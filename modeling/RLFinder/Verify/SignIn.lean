import RLFinder.User

/-!
# Signing in

The sign-in callback replaces all of `users` by the uid of the user who signs in. It leaves the
database outside that user's record alone exactly when there is nothing else under `users`
(`leavesOthers_iff`), and after one sign-in that is so: in a sequence of sign-ins only the first can
destroy anything (`signIns_leaveOthers_iff`).
-/

namespace RLFinder
open KeyTree

variable {d d' : Session × Database} {user : FirebaseUser} {users : List FirebaseUser}

/-- A sign-in in this state leaves every path outside the user's record as it is. -/
def LeavesOthers (d : Session × Database) (user : FirebaseUser) : Prop :=
  ∀ d', signInMachine.Steps d user d' →
    ∀ p, Outside (Session.loadUserPath user.uid) p → d'.2.get p = d.2.get p

/-- There is nothing under `users` outside the user's record. -/
def NoOtherRecords (db : Database) (user : FirebaseUser) : Prop :=
  ∀ p, Outside (Session.loadUserPath user.uid) p → ["users"] <+: p → db.get p = none

/-! ## One sign-in -/

/-- The database after a sign-in. -/
theorem database_of_steps (h : signInMachine.Steps d user d') :
    d'.2 = d.2.setValue (usersWrite user.uid) := by
  have hstep := h.2
  cases hstep
  rfl

theorem steps_signIn : ∃ d', signInMachine.Steps d user d' := ⟨_, trivial, rfl⟩

theorem get_users_of_steps (h : signInMachine.Steps d user d') {q : Path} :
    d'.2.get (["users"] ++ q) = KeyTree.get (some (.leaf (.string user.uid))) q := by
  rw [database_of_steps h]
  exact Store.get_set_append .leaf

/-- Places that are not under `users` keep their value. -/
theorem get_of_not_users (h : signInMachine.Steps d user d') {p : Path}
    (hp : Outside (Session.loadUserPath user.uid) p) (husers : ¬ ["users"] <+: p) :
    d'.2.get p = d.2.get p := by
  rw [database_of_steps h]
  refine Store.get_set_of_outside .leaf ⟨husers, fun hpre => hp.2 (hpre.trans ?_)⟩
  exact ⟨pathPieces user.uid, rfl⟩

/-- After a sign-in, by anyone, there are no records left to lose. -/
theorem noOtherRecords_of_steps (h : signInMachine.Steps d user d') (user' : FirebaseUser) :
    NoOtherRecords d'.2 user' := by
  intro p hp husers
  obtain ⟨q, rfl⟩ := husers
  have hq : q ≠ [] := by
    rintro rfl
    exact hp.2 ⟨pathPieces user'.uid, rfl⟩
  rw [get_users_of_steps h, get_leaf hq]

theorem leavesOthers_iff : LeavesOthers d user ↔ NoOtherRecords d.2 user := by
  constructor
  · intro h p hp husers
    obtain ⟨d', hstep⟩ : ∃ d', signInMachine.Steps d user d' := steps_signIn
    rw [← h d' hstep p hp, noOtherRecords_of_steps hstep user p hp husers]
  · intro h d' hstep p hp
    by_cases husers : ["users"] <+: p
    · rw [noOtherRecords_of_steps hstep user p hp husers, h p hp husers]
    · exact get_of_not_users hstep hp husers

/-! ## Sequences of sign-ins -/

/-- In a sequence of sign-ins from any database, each one leaves every path outside its user's
record as it was if and only if the database held nothing under `users` outside the record of the
first user. -/
theorem signIns_leaveOthers_iff (hrun : signInMachine.Run d users d') :
    signInMachine.StepsMeet d users LeavesOthers ↔
      ∀ user ∈ users.head?, NoOtherRecords d.2 user := by
  constructor
  · intro h user huser
    obtain ⟨rest, rfl⟩ := List.head?_eq_some_iff.mp huser
    exact leavesOthers_iff.mp (h [] user d ⟨rest, rfl⟩ .nil)
  · intro h us user d₁ hpre hrun₁
    refine leavesOthers_iff.mpr ?_
    cases us using List.reverseRecOn with
    | nil =>
      cases hrun₁.nil_inv
      obtain ⟨rest, rfl⟩ := hpre
      exact h user rfl
    | append_singleton us user' =>
      -- somebody has signed in before
      obtain ⟨d₀, -, hstep⟩ := hrun₁.snoc_inv
      exact noOtherRecords_of_steps hstep user

/-- A post, and a record of the first user only. -/
def ownRecord : Database :=
  (Store.empty.set ["ps4", "solo", "goldPosts", "-K1", "body"] (.leaf (.string "Need one")) .leaf).set
    ["users", "u1", "platform"] (.leaf (.string "ps4")) .leaf

theorem signIns_leaveOthers_iff_own : signInMachine.StepsMeet ({}, ownRecord)
    [⟨"u1", some "u1@mail"⟩, ⟨"u2", none⟩] LeavesOthers := by
  refine (signIns_leaveOthers_iff (.of_replay rfl)).mpr fun user huser p hp husers => ?_
  cases huser
  have hrecord : Outside ["users", "u1", "platform"] p := hp.of_prefix ⟨["platform"], rfl⟩
  obtain ⟨q, rfl⟩ := husers
  have hpost : Outside ["ps4", "solo", "goldPosts", "-K1", "body"] (["users"] ++ q) :=
    outside_cons_of_ne (by decide)
  exact (Store.get_set_of_outside .leaf hrecord).trans
    ((Store.get_set_of_outside .leaf hpost).trans Store.get_empty)

/-- The record of `u2` does not survive the sign-in of `u1`. -/
theorem record_lost_on_signIn :
    ∃ d d', signInMachine.Steps d ⟨"u1", none⟩ d' ∧
      Outside (Session.loadUserPath "u1") (Session.loadUserPath "u2" ++ ["email"]) ∧
      d.2.get (Session.loadUserPath "u2" ++ ["email"]) = some (.leaf (.string "u2@mail")) ∧
      d'.2.get (Session.loadUserPath "u2" ++ ["email"]) = none :=
  ⟨({}, Store.empty.set ["users", "u2", "email"] (.leaf (.string "u2@mail")) .leaf), _,
    ⟨trivial, rfl⟩, outside_cons_cons.mpr (outside_cons_of_ne (by decide)), rfl, rfl⟩

end RLFinder
