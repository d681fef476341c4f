import RLFinder.User
import RLFinder.PartnerPosts
import RLFinder.NewPost

/-!
# The app and its clients

One running app (`App`): the session, the posts board at the root of the navigation stack and the
screens pushed above it. `World` is any number of apps sharing one database; a client's read
delivers what the database holds at the place it observes.
-/

namespace RLFinder

inductive ViewController
  | newPost (screen : NewPostScreen)
  | settings

/-- What is presented over the navigation stack. -/
inductive Presented
  | alert (title message : String)
  | authViewController
  deriving DecidableEq

structure App where
  session : Session
  board : PostsScreen := .start
  /-- The screens above the board, the top one first. -/
  stack : List ViewController := []
  presented : Option Presented := none

inductive AppEvent
  /-- The process ends and the app is launched again. -/
  | launch
  | board (e : PostsEvent)
  | newPost (e : NewPostEvent)
  /-- A tap on the floating post button. -/
  | toCreatePost
  | toSettings
  | didSignIn (user : Option FirebaseUser) (error : Option String)
  | logOut (signOut : Except String Unit)
  | back
  | dismiss
  /-- A tap on the Post button, with the key that `childByAutoId` generates. -/
  | buttonPushed (key : String)

namespace App

/-- The app after a launch on a device whose `UserDefaults` hold `defaults`. -/
def launched (defaults : Option Coder) : App where
  session := .relaunch { currentUser := none, defaults }

def present (a : App) (p : Presented) : App := { a with presented := some p }

def push (a : App) (vc : ViewController) : App := { a with stack := vc :: a.stack }

/-- `toCreatePost()`. There is no early exit behind the alert. -/
def toCreatePost (a : App) : App :=
  let a := if a.session.currentUser = none then
      a.present (.alert "Please Log In" "You need to log in in order to post")
    else a
  a.push (.newPost (.start a.board.controller.currentSelectedSystem ⟨0, 0⟩))

/-- `toSettings()` -/
def toSettings (a : App) : App :=
  if a.session.currentUser = none then a.present .authViewController else a.push .settings

/-- The writes of `postPost` on the top screen. -/
def postWrites (a : App) (key : String) : List Write :=
  match a.stack with
  | .newPost s :: _ => (s.controller.postPost key).toList
  | _ => []

/-- An event: the next state and the writes it sends to the database. -/
def handle (a : App) : AppEvent → Except Fault (App × List Write)
  | .launch => .ok (launched a.session.defaults, [])
  | .board e => do
    let board ← a.board.handle e
    return ({ a with board }, [])
  | .newPost e =>
    match a.stack with
    | .newPost s :: below => do
      let s ← s.handle e
      return ({ a with stack := .newPost s :: below }, [])
    | _ => .ok (a, [])
  | .toCreatePost => .ok (a.toCreatePost, [])
  | .toSettings => .ok (a.toSettings, [])
  | .didSignIn user error => do
    let (session, writes) ← a.session.didSignIn user error
    return ({ a with session }, writes)
  | .logOut signOut =>
    let (session, pop) := a.session.logOut signOut
    .ok ({ a with session, stack := if pop then a.stack.tail else a.stack }, [])
  | .back => .ok ({ a with stack := a.stack.tail }, [])
  | .dismiss => .ok ({ a with presented := none }, [])
  | .buttonPushed key => .ok (a, a.postWrites key)

/-- Each screen's controls can be used only while it is on top. -/
def Enabled (a : App) : AppEvent → Prop
  | .board e => a.board.Enabled e ∧ (e.issuesRead → a.stack = [])
  | .newPost e => ∃ s below, a.stack = .newPost s :: below ∧ s.Enabled e
  | .toCreatePost | .toSettings => a.stack = []
  | .logOut _ => ∃ below, a.stack = .settings :: below
  | .back => a.stack ≠ []
  | .buttonPushed _ => ∃ s below, a.stack = .newPost s :: below
  | .launch | .didSignIn .. | .dismiss => True

end App

def appMachine : Machine App AppEvent Fault where
  enabled := App.Enabled
  step a e := (a.handle e).map Prod.fst

/-! ## Clients sharing a database -/

structure World (ι : Type) where
  clients : ι → App
  database : Database

namespace World

variable {ι : Type} [DecidableEq ι]

def handle (w : World ι) (e : ι × AppEvent) : Except Fault (World ι) := do
  let (a, writes) ← (w.clients e.1).handle e.2
  return { clients := Function.update w.clients e.1 a, database := w.database.apply writes }

/-- A value callback carries the value at the observed place; `childByAutoId` generates a key that
is new at the place it is called on. -/
def Enabled (w : World ι) (e : ι × AppEvent) : Prop :=
  (w.clients e.1).Enabled e.2 ∧
  match e.2 with
  | .board (.readCallback ticket (.value _ value)) =>
    ∀ path ∈ (w.clients e.1).board.issued[ticket]?, value = snapshotValue (w.database.get path)
  | .buttonPushed key =>
    ∀ write ∈ (w.clients e.1).postWrites key, IsAutoId w.database write.path.dropLast key
  | _ => True

/-- Freshly launched apps and an empty database. -/
def start (defaults : ι → Option Coder) : World ι where
  clients i := .launched (defaults i)
  database := .empty

end World

def worldMachine (ι : Type) [DecidableEq ι] : Machine (World ι) (ι × AppEvent) Fault where
  enabled := World.Enabled
  step := World.handle

end RLFinder
