import RLFinder.User
import RLFinder.Theory.Trace

/-!
# Relaunching

Memory and `UserDefaults` always agree on whether there is a user, but the archive keeps none of its
properties, so a relaunch brings back the user of the last launch, not one who has signed in since.
-/

namespace RLFinder

namespace SessionEvent

/-- A successful sign-in. -/
def signsIn : SessionEvent → Bool
  | didSignIn (some _) none => true
  | _ => false

/-- A relaunch or a successful log-out: the user in memory is what the archive gives back. -/
def restores : SessionEvent → Bool
  | relaunch | logOut (.ok ()) => true
  | _ => false

end SessionEvent

namespace Session

variable {s s' : Session} {e : SessionEvent} {es : List SessionEvent} {defaults : Option Coder}

/-- The user in memory is what the archive gives back. -/
def Restored (s : Session) : Prop :=
  s = ⟨none, none⟩ ∨ ∃ data, s = ⟨some {}, some data⟩

/-- The user in memory is the one who signed in, with an archive that has lost the uid. -/
def SignedIn (s : Session) : Prop :=
  ∃ uid email data, s = ⟨some { uid := some uid, email }, some data⟩

theorem restored_relaunch : s.relaunch.Restored := by
  obtain ⟨user, data⟩ := s
  cases data with
  | none => exact .inl rfl
  | some data => exact .inr ⟨data, rfl⟩

theorem Restored.relaunch_currentUser (h : s.Restored) :
    s.relaunch.currentUser = s.currentUser := by
  rcases h with rfl | ⟨data, rfl⟩
  · rfl
  · rfl

theorem SignedIn.relaunch_currentUser (h : s.SignedIn) :
    s.relaunch.currentUser ≠ s.currentUser := by
  obtain ⟨uid, email, data, rfl⟩ := h
  intro heq
  cases heq

/-! ## What one event does -/

theorem steps_restores (h : sessionMachine.Steps s e s') (he : e.restores = true) :
    s'.Restored := by
  have hstep := h.2
  cases e with
  | didSignIn => cases he
  | logOut signOut =>
    cases signOut with
    | ok => exact .inl (Except.ok.inj hstep).symm
    | error => cases he
  | relaunch =>
    cases hstep
    exact restored_relaunch

theorem steps_signsIn (h : sessionMachine.Steps s e s') (he : e.signsIn = true) :
    s'.SignedIn := by
  have hstep := h.2
  cases e with
  | didSignIn user error =>
    cases user with
    | none => cases he
    | some user =>
      cases error with
      | none => exact ⟨user.uid, user.email, [], (Except.ok.inj hstep).symm⟩
      | some error => cases he
  | logOut | relaunch => cases he

/-- A failed sign-in and a failed log-out change nothing. -/
theorem steps_other (h : sessionMachine.Steps s e s') (hr : e.restores = false)
    (hs : e.signsIn = false) : s' = s := by
  have hstep := h.2
  cases e with
  | didSignIn user error =>
    cases error with
    | none =>
      cases user with
      | none => exact (Except.ok.inj hstep).symm
      | some user => cases hs
    | some error => cases user <;> exact (Except.ok.inj hstep).symm
  | logOut signOut =>
    cases signOut with
    | ok => cases hr
    | error => exact (Except.ok.inj hstep).symm
  | relaunch => cases hr

/-! ## Whole runs -/

/-- The state depends only on whether anyone has signed in since the last launch or log-out. -/
theorem session_of_run (hrun : sessionMachine.Run (relaunch ⟨none, defaults⟩) es s) :
    ((∀ e ∈ es.since SessionEvent.restores, e.signsIn = false) → s.Restored) ∧
      ((∃ e ∈ es.since SessionEvent.restores, e.signsIn = true) → s.SignedIn) := by
  induction hrun with
  | nil => exact ⟨fun _ => restored_relaunch, fun ⟨e, he, _⟩ => by cases he⟩
  | @snoc es s e s' _ hstep ih =>
    cases hr : e.restores with
    | true =>
      rw [List.since_concat_of_mark hr]
      exact ⟨fun _ => steps_restores hstep hr, fun ⟨e, he, _⟩ => by cases he⟩
    | false =>
      rw [List.since_concat_of_not_mark hr]
      cases hs : e.signsIn with
      | true =>
        refine ⟨fun h => ?_, fun _ => steps_signsIn hstep hs⟩
        have := h e (List.mem_append_right _ (.head _))
        rw [hs] at this
        cases this
      | false =>
        rw [steps_other hstep hr hs]
        refine ⟨fun h => ih.1 fun e he => h e (List.mem_append_left _ he), ?_⟩
        rintro ⟨e', he', hs'⟩
        rcases List.mem_append.mp he' with he' | he'
        · exact ih.2 ⟨e', he', hs'⟩
        · cases List.mem_singleton.mp he'
          rw [hs] at hs'
          cases hs'

/-- A relaunch restores the user of the moment before, with all its properties, if and only if no
sign-in has succeeded since the last launch or the last successful log-out. -/
theorem relaunch_currentUser_iff (hrun : sessionMachine.Run (relaunch ⟨none, defaults⟩) es s) :
    s.relaunch.currentUser = s.currentUser ↔
      ∀ e ∈ es.since SessionEvent.restores, e.signsIn = false := by
  obtain ⟨hrestored, hsigned⟩ := session_of_run hrun
  constructor
  · intro h e he
    by_contra hs
    exact (hsigned ⟨e, he, by simpa using hs⟩).relaunch_currentUser h
  · intro h
    exact (hrestored h).relaunch_currentUser

theorem relaunch_currentUser_iff_relaunched :
    ∃ s, sessionMachine.Run (relaunch ⟨none, none⟩)
      [.didSignIn (some ⟨"u1", some "u1@mail"⟩) none, .relaunch] s ∧
      s.relaunch.currentUser = s.currentUser :=
  have hrun := Machine.Run.of_replay rfl
  ⟨_, hrun, (relaunch_currentUser_iff hrun).mpr (by decide)⟩

/-- After a sign-in a relaunch gives back a user without uid and e-mail. -/
theorem identity_lost_on_relaunch :
    ∃ s, sessionMachine.Run (relaunch ⟨none, none⟩)
      [.didSignIn (some ⟨"u1", some "u1@mail"⟩) none] s ∧
      s.currentUser = some { uid := some "u1", email := some "u1@mail" } ∧
      s.relaunch.currentUser = some {} :=
  ⟨_, .of_replay rfl, rfl, rfl⟩

end Session
end RLFinder
