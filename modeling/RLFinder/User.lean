import RLFinder.Firebase
import RLFinder.Theory.Machine

/-!
# The user and the session

`User.swift`, the sign-in callback of `PartnerPostsController` and the log-out of
`SettingsController`: everything that touches `User.currentUser` or its archive in `UserDefaults`.
Three machines drive it: `sessionMachine` with relaunches, `signInMachine` over the shared database,
and `loadsMachine`, where loads and their callbacks interleave with log-outs.
-/

namespace RLFinder

structure User where
  uid : Option String := none
  email : Option String := none
  platform : Option String := none
  username : Option String := none
  deriving DecidableEq

/-- The keys and values an `NSCoder` holds. Decoding hands over exactly what encoding wrote. -/
abbrev Coder := List (String × String)

namespace User

/-- `init(uid:)` -/
def ofUid (uid : String) : User := { uid := some uid }

/-- `encode(with:)`, whose body is empty: it writes no key. -/
def encode (_user : User) (aCoder : Coder) : Coder := aCoder

/-- `init?(coder:)`, whose body is empty: it never fails and leaves every property nil. -/
def ofCoder (_aDecoder : Coder) : Option User := some {}

end User

/-- `User.currentUser` and the data `UserDefaults.standard` holds under the key `currentUser`. -/
structure Session where
  currentUser : Option User := none
  defaults : Option Coder := none
  deriving DecidableEq

namespace Session

def archiveCurrentUser (s : Session) : Except Fault Session :=
  match s.currentUser with
  | none => .error .forcedUnwrap
  | some user => .ok { s with defaults := some (user.encode []) }

def unarchiveCurrentUser (s : Session) : Session :=
  match s.defaults with
  | some data => { s with currentUser := User.ofCoder data }
  | none => s

def logOutCurrentUser (_s : Session) : Session := { currentUser := none, defaults := none }

/-- A process start: the memory is lost, `UserDefaults` is kept, and
`application(_:didFinishLaunchingWithOptions:)` unarchives the user. -/
def relaunch (s : Session) : Session := unarchiveCurrentUser { s with currentUser := none }

/-! ## Loading a user -/

/-- The place `loadUser(uid:)` reads. -/
def loadUserPath (uid : String) : Path := child (child [] "users") uid

/-- `value?[key] as? String ?? ""` -/
def stringField (value : Option (List (String × Any))) (key : String) : String :=
  ((value.bind (·.lookup key)).bind Any.asString?).getD ""

/-- The user that the value callback of `loadUser(uid:)` builds from a snapshot. -/
def loadedUser (uid : String) (snapshot : Any) : User :=
  let value := snapshot.asDictionary?
  { uid := some uid
    email := some (stringField value "email")
    platform := some (stringField value "platform")
    username := some (stringField value "username") }

/-- The value callback of `loadUser(uid:)`. -/
def loadUserCallback (s : Session) (uid : String) (snapshot : Any) : Session :=
  { s with currentUser := some (loadedUser uid snapshot) }

end Session

/-! ## Signing in and out -/

/-- The two properties of a `FirebaseAuth.User` that the app reads. -/
structure FirebaseUser where
  uid : String
  email : Option String
  deriving DecidableEq

/-- `ref.child("users").setValue(user!.uid)` -/
def usersWrite (uid : String) : Write where
  path := child [] "users"
  value := .leaf (.string uid)
  wellFormed := .leaf

/-- `authUI(_:didSignInWith:error:)`: the new session and the writes to the database. -/
def Session.didSignIn (s : Session) (user : Option FirebaseUser) (error : Option String) :
    Except Fault (Session × List Write) :=
  match error, user with
  | none, some user => do
    let s := { s with currentUser := some (User.ofUid user.uid) }
    let s := { s with
      currentUser := s.currentUser.map fun (u : User) => { u with email := user.email } }
    let s := { s with
      currentUser := s.currentUser.map fun (u : User) => { u with uid := some user.uid } }
    let s ← s.archiveCurrentUser
    return (s, [usersWrite user.uid])
  | _, _ => return (s, [])

/-- `logOut()` of `SettingsController`: the new session, and whether the screen is popped. When
`signOut` throws, the error is printed and nothing changes. -/
def Session.logOut (s : Session) (signOut : Except String Unit) : Session × Bool :=
  match signOut with
  | .ok () => (s.logOutCurrentUser, true)
  | .error _ => (s, false)

/-! ## Sign-ins, log-outs and relaunches -/

inductive SessionEvent
  | didSignIn (user : Option FirebaseUser) (error : Option String)
  | logOut (signOut : Except String Unit)
  | relaunch

def Session.handle (s : Session) : SessionEvent → Except Fault Session
  | .didSignIn user error => do
    let (s, _) ← s.didSignIn user error
    return s
  | .logOut signOut => .ok (s.logOut signOut).1
  | .relaunch => .ok s.relaunch

def sessionMachine : Machine Session SessionEvent Fault where
  enabled _ _ := True
  step := Session.handle

instance (s : Session) (e : SessionEvent) : Decidable (sessionMachine.enabled s e) :=
  inferInstanceAs (Decidable True)

/-! ## Sign-ins and the database -/

/-- Successful sign-ins, one after the other, on one database. -/
def signInMachine : Machine (Session × Database) FirebaseUser Fault where
  enabled _ _ := True
  step s user := do
    let (session, writes) ← s.1.didSignIn (some user) none
    return (session, s.2.apply writes)

instance (s : Session × Database) (user : FirebaseUser) :
    Decidable (signInMachine.enabled s user) := inferInstanceAs (Decidable True)

/-! ## Loads in flight -/

inductive LoadResult
  | value (snapshot : Any)
  | error (localizedDescription : String)

/-- The session with the loads it has issued, oldest first; a load is known by its position. -/
structure Loads where
  session : Session := {}
  /-- The uid of each load. -/
  issued : List String := []
  /-- The loads whose callback is still to come. -/
  outstanding : List Nat := []
  /-- How many loads had been issued when the user last logged out. -/
  loggedOut : Option Nat := none
  /-- The loads that have delivered a value, with the user each one set, in order of arrival. -/
  succeeded : List (Nat × User) := []

inductive LoadEvent
  | loadUser (uid : String)
  | callback (ticket : Nat) (result : LoadResult)
  | logOutCurrentUser

namespace Loads

def handle (s : Loads) : LoadEvent → Except Fault Loads
  | .loadUser uid => .ok { s with
      issued := s.issued ++ [uid], outstanding := s.outstanding ++ [s.issued.length] }
  | .callback ticket (.value snapshot) =>
    -- the closure has captured the uid of its call
    let uid := s.issued.getD ticket ""
    .ok { s with
      session := s.session.loadUserCallback uid snapshot
      outstanding := s.outstanding.erase ticket
      succeeded := s.succeeded ++ [(ticket, Session.loadedUser uid snapshot)] }
  | .callback ticket (.error _) => .ok { s with outstanding := s.outstanding.erase ticket }
  | .logOutCurrentUser => .ok { s with
      session := s.session.logOutCurrentUser, loggedOut := some s.issued.length }

/-- An outstanding load calls back once. -/
def Enabled (s : Loads) : LoadEvent → Prop
  | .callback ticket _ => ticket ∈ s.outstanding
  | .loadUser _ | .logOutCurrentUser => True

instance {s : Loads} {e : LoadEvent} : Decidable (s.Enabled e) := by
  cases e <;> unfold Enabled <;> infer_instance

end Loads

def loadsMachine : Machine Loads LoadEvent Fault where
  enabled := Loads.Enabled
  step := Loads.handle

instance (s : Loads) (e : LoadEvent) : Decidable (loadsMachine.enabled s e) :=
  inferInstanceAs (Decidable (s.Enabled e))

end RLFinder
