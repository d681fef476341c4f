import RLFinder.Verify.Schema
import RLFinder.Verify.SettingsLemmas
import RLFinder.Verify.Storage
import RLFinder.Verify.UserRecord

/-!
# What is known of the users

The clients only ever keep the uid of the one user who has signed in last, on any of them
(`users_of_run`). So there is never a record for `loadUser` to read, and every user it loads has
empty fields (`profile_of_load`).
-/

namespace RLFinder
open KeyTree

namespace World

variable {ι : Type} {w w' : World ι} {i : ι} {e : AppEvent} {es : List (ι × AppEvent)}
  {defaults : ι → Option Coder}

/-- The users who have signed in on any of the clients, oldest first. -/
def signIns (es : List (ι × AppEvent)) : List FirebaseUser :=
  es.flatMap fun e => (App.sessionEvents e.2).filterMap SessionEvent.user?

/-- What is stored for the users. -/
def usersTree (users : List FirebaseUser) : Option Tree :=
  users.getLast?.map fun user => .leaf (.string user.uid)

theorem get_users_postWrite {db : Database} {c : NewPostController} {key : String}
    (hsystem : c.currentSelectedSystem ∈ DropDown.systemDropDown.dropDownOptions) :
    (db.setValue (c.postWrite key)).get ["users"] = db.get ["users"] := by
  refine Store.get_set_of_outside (NewPostController.fields_wellFormed _) ?_
  rw [path_postWrite hsystem]
  refine outside_cons_of_ne fun heq => ?_
  have hmem := NewPostController.postSystem_mem hsystem
  rw [heq] at hmem
  revert hmem
  decide

variable [DecidableEq ι]

theorem users_of_steps (hsound : w.Sound) (hstep : (worldMachine ι).Steps w (i, e) w')
    {users : List FirebaseUser} (h : w.database.get ["users"] = usersTree users) :
    w'.database.get ["users"] = usersTree (users ++ signIns [(i, e)]) := by
  have hsame : w.database.get ["users"] = usersTree (users ++ []) :=
    h.trans (congrArg usersTree (List.append_nil users).symm)
  cases e with
  | didSignIn user error =>
    cases error with
    | none =>
      cases user with
      | none =>
        cases hstep.2
        exact hsame
      | some user =>
        cases hstep.2
        have hlast : usersTree (users ++ [user]) = some (.leaf (.string user.uid)) := by
          rw [usersTree, List.getLast?_concat, Option.map_some]
        exact Eq.trans (Store.get_set_self .leaf) hlast.symm
    | some error => cases user <;> cases hstep.2 <;> exact hsame
  | buttonPushed key =>
    obtain ⟨a, writes, heffect, rfl⟩ := effect_of_steps hstep
    cases heffect with
    | buttonPushed hstack => exact (get_users_postWrite (hsound.system hstack)).trans hsame
  | launch | board | newPost | toCreatePost | toSettings | logOut | back | dismiss =>
    obtain ⟨a, writes, heffect, rfl⟩ := effect_of_steps hstep
    cases heffect <;> exact hsame

/-- The database holds the uid of the user who signed in last, on whatever client. -/
theorem users_of_run (hrun : (worldMachine ι).Run (start defaults) es w) :
    w.database.get ["users"] = usersTree (signIns es) := by
  induction hrun with
  | nil => exact Store.get_empty
  | @snoc es w e w' hrun hstep ih =>
    rw [signIns, List.flatMap_append]
    exact users_of_steps (sound_of_run hrun) hstep ih

/-- Below a uid there is nothing. -/
theorem asDictionary?_of_users {db : Database} {users : List FirebaseUser}
    (h : db.get ["users"] = usersTree users) (uid : String) :
    (snapshotValue (db.get (Session.loadUserPath uid))).asDictionary? = none := by
  have hget : db.get (Session.loadUserPath uid) =
      KeyTree.get (db.get ["users"]) (pathPieces uid) := KeyTree.get_append
  rw [hget, h, usersTree]
  cases users.getLast? with
  | none => rw [Option.map_none, get_none]; rfl
  | some user =>
    rw [Option.map_some]
    cases pathPieces uid with
    | nil => rfl
    | cons k q => rw [get_leaf (List.cons_ne_nil k q)]; rfl

/-- In every run of the clients the place of the users holds just the uid of the last user to sign
in on any of them, or nothing, and no session can load an e-mail, a platform or a username from it,
whatever uid it asks for. -/
theorem profile_of_load (hrun : (worldMachine ι).Run (start defaults) es w) :
    w.database.get ["users"] =
        ((signIns es).getLast?.map fun user => KeyTree.leaf (.string user.uid)) ∧
      ∀ (s : Session) (uid : String), (s.loadUser uid w.database).currentUser =
        some { uid := some uid, email := some "", platform := some "", username := some "" } := by
  refine ⟨users_of_run hrun, fun s uid => ?_⟩
  rw [Session.loadUser, Session.loadUserCallback, Session.loadedUser,
    asDictionary?_of_users (users_of_run hrun)]
  rfl

theorem profile_of_load_signedIn : ∃ w, (worldMachine (Fin 2)).Run (start fun _ => none)
      [(0, .didSignIn (some ⟨"u1", some "u1@mail"⟩) none),
        (1, .didSignIn (some ⟨"u2", none⟩) none), (0, .toCreatePost)] w ∧
    w.database.get ["users"] = some (.leaf (.string "u2")) := by
  have hrun : (worldMachine (Fin 2)).Run (start fun _ => none)
      [(0, .didSignIn (some ⟨"u1", some "u1@mail"⟩) none),
        (1, .didSignIn (some ⟨"u2", none⟩) none), (0, .toCreatePost)] _ :=
    .cons ⟨⟨trivial, trivial⟩, rfl⟩ (.cons ⟨⟨trivial, trivial⟩, rfl⟩
      (.single ⟨⟨rfl, trivial⟩, rfl⟩))
  exact ⟨_, hrun, (profile_of_load hrun).1⟩

end World
end RLFinder
