import RLFinder.Verify.SignIn

/-!
# The record of a user

The sign-in writes the uid where the records of all users lie, and `loadUser` reads a record of
fields below. After a sign-in nobody has a record (`asDictionary?_of_steps`), so `loadUser` turns
every field into an empty string: the user of the sign-in is read back only when there was nothing
to lose (`keepsRecord_iff`).
-/

namespace RLFinder
open KeyTree

/-- The string stored at a place, or `""`. -/
def storedString (db : Database) (p : Path) : String :=
  match db.get p with
  | some (.leaf (.string s)) => s
  | _ => ""

/-- A `loadUser(uid:)` whose callback delivers what the database holds. -/
def Session.loadUser (s : Session) (uid : String) (db : Database) : Session :=
  s.loadUserCallback uid (snapshotValue (db.get (loadUserPath uid)))

variable {d d' : Session × Database} {user : FirebaseUser}

/-- `loadUser` after the sign-in gives the user who signed in, with the e-mail of the sign-in and
the platform and username stored for the user before. -/
def KeepsRecord (d d' : Session × Database) (user : FirebaseUser) : Prop :=
  (d'.1.loadUser user.uid d'.2).currentUser = some {
    uid := some user.uid
    email := some (user.email.getD "")
    platform := some (storedString d.2 (Session.loadUserPath user.uid ++ ["platform"]))
    username := some (storedString d.2 (Session.loadUserPath user.uid ++ ["username"])) }

/-- After a sign-in `loadUser` finds no record, whoever it is called for. -/
theorem asDictionary?_of_steps (h : signInMachine.Steps d user d') (uid : String) :
    (snapshotValue (d'.2.get (Session.loadUserPath uid))).asDictionary? = none := by
  have hget : d'.2.get (Session.loadUserPath uid) =
      KeyTree.get (some (.leaf (.string user.uid))) (pathPieces uid) := get_users_of_steps h
  rw [hget]
  cases pathPieces uid with
  | nil => rfl
  | cons k q => rw [get_leaf (List.cons_ne_nil k q)]; rfl

theorem loadUser_of_steps (h : signInMachine.Steps d user d') (uid : String) :
    (d'.1.loadUser uid d'.2).currentUser =
      some { uid := some uid, email := some "", platform := some "", username := some "" } := by
  rw [Session.loadUser, Session.loadUserCallback, Session.loadedUser, asDictionary?_of_steps h]
  rfl

/-- A successful sign-in followed by a completed `loadUser` keeps the user and the record if and
only if the sign-in comes without e-mail, or with an empty one, and no platform and no username
other than `""` were stored for the user. -/
theorem keepsRecord_iff (h : signInMachine.Steps d user d') :
    KeepsRecord d d' user ↔ user.email.getD "" = "" ∧
      storedString d.2 (Session.loadUserPath user.uid ++ ["platform"]) = "" ∧
      storedString d.2 (Session.loadUserPath user.uid ++ ["username"]) = "" := by
  rw [KeepsRecord, loadUser_of_steps h]
  simp only [Option.some.injEq, User.mk.injEq, true_and]
  constructor
  · rintro ⟨hemail, hplatform, husername⟩
    exact ⟨hemail.symm, hplatform.symm, husername.symm⟩
  · rintro ⟨hemail, hplatform, husername⟩
    exact ⟨hemail.symm, hplatform.symm, husername.symm⟩

/-- Of the user's own record only the e-mail was filled in, and the sign-in comes without one. -/
theorem keepsRecord_iff_own : ∃ (db : Database) (d' : Session × Database),
    db.get ["ps4", "solo", "goldPosts", "-K1", "body"] = some (.leaf (.string "Need one")) ∧
    db.get (Session.loadUserPath "u1" ++ ["email"]) = some (.leaf (.string "u1@mail")) ∧
    db.get (Session.loadUserPath "u1" ++ ["platform"]) = some (.leaf (.string "")) ∧
    signInMachine.Steps ({}, db) ⟨"u1", none⟩ d' ∧ KeepsRecord ({}, db) d' ⟨"u1", none⟩ := by
  let db : Database :=
    ((Store.empty.set ["ps4", "solo", "goldPosts", "-K1", "body"] (.leaf (.string "Need one"))
      .leaf).set ["users", "u1", "email"] (.leaf (.string "u1@mail")) .leaf).set
      ["users", "u1", "platform"] (.leaf (.string "")) .leaf
  obtain ⟨d', h⟩ : ∃ d', signInMachine.Steps ({}, db) ⟨"u1", none⟩ d' := steps_signIn
  exact ⟨db, d', rfl, rfl, rfl, h, (keepsRecord_iff h).mpr ⟨rfl, rfl, rfl⟩⟩

/-- The e-mail of the sign-in is not read back, and the platform stored before it is gone. -/
theorem record_not_loaded :
    ∃ db d', signInMachine.Steps ({}, db) ⟨"u1", some "u1@mail"⟩ d' ∧
      ¬ KeepsRecord ({}, db) d' ⟨"u1", some "u1@mail"⟩ ∧
      storedString db (Session.loadUserPath "u1" ++ ["platform"]) = "ps4" ∧
      (d'.1.loadUser "u1" d'.2).currentUser =
        some { uid := some "u1", email := some "", platform := some "", username := some "" } := by
  have h : signInMachine.Steps
      ({}, Store.empty.set ["users", "u1", "platform"] (.leaf (.string "ps4")) .leaf)
      ⟨"u1", some "u1@mail"⟩ _ := ⟨trivial, rfl⟩
  refine ⟨_, _, h, fun hkeeps => ?_, rfl, loadUser_of_steps h "u1"⟩
  rw [KeepsRecord, loadUser_of_steps h] at hkeeps
  simp at hkeeps

end RLFinder
