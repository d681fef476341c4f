import RLFinder.Settings
import RLFinder.Theory.Simulation
import RLFinder.Verify.AppLemmas
import RLFinder.Verify.Relaunch

/-!
# What the settings show

The session of a running app is a run of `sessionMachine` over the launches, sign-ins and log-outs
that the app has seen (`session_of_app`), so the settings can be read off those: no name is ever
shown, and the e-mail is that of the last sign-in since the last launch or log-out
(`settings_of_run`).
-/

namespace RLFinder

namespace SessionEvent

/-- The user a successful sign-in is of. -/
def user? : SessionEvent → Option FirebaseUser
  | didSignIn (some user) none => some user
  | _ => none

theorem eq_of_user? {e : SessionEvent} {user : FirebaseUser} (h : e.user? = some user) :
    e = .didSignIn (some user) none := by
  cases e with
  | didSignIn user' error =>
    cases user' with
    | none => cases h
    | some user' =>
      cases error with
      | none =>
        cases h
        rfl
      | some error => cases h
  | logOut | relaunch => cases h

theorem signsIn_of_user? {e : SessionEvent} (h : e.user? = none) : e.signsIn = false := by
  cases e with
  | didSignIn user error =>
    cases user with
    | none => rfl
    | some user =>
      cases error with
      | none => cases h
      | some error => rfl
  | logOut | relaunch => rfl

end SessionEvent

namespace Session

variable {s : Session} {es : List SessionEvent} {defaults : Option Coder}

/-- Who has signed in last since the last launch or log-out. -/
def signedIn (es : List SessionEvent) : Option FirebaseUser :=
  ((es.since SessionEvent.restores).filterMap SessionEvent.user?).getLast?

theorem Restored.profile (h : s.Restored) :
    s.currentUser.bind User.username = none ∧ s.currentUser.bind User.email = none := by
  rcases h with rfl | ⟨data, rfl⟩
  · exact ⟨rfl, rfl⟩
  · exact ⟨rfl, rfl⟩

theorem signedIn_of_restores {e : SessionEvent} (h : e.restores = true) :
    signedIn (es ++ [e]) = none := by
  rw [signedIn, List.since_concat_of_mark h]
  rfl

theorem signedIn_of_not_restores {e : SessionEvent} (h : e.restores = false) :
    signedIn (es ++ [e]) = e.user?.or (signedIn es) := by
  rw [signedIn, List.since_concat_of_not_mark h, List.filterMap_append, signedIn]
  cases huser : e.user? with
  | none => rw [List.filterMap_cons_none huser, List.filterMap_nil, List.append_nil, Option.none_or]
  | some user => rw [List.filterMap_cons_some huser, List.filterMap_nil, List.getLast?_concat,
      Option.some_or]

/-- In memory there is never a name, and the e-mail is that of the last sign-in. -/
theorem profile_of_run (hrun : sessionMachine.Run (relaunch ⟨none, defaults⟩) es s) :
    s.currentUser.bind User.username = none ∧
      s.currentUser.bind User.email = (signedIn es).bind FirebaseUser.email := by
  induction hrun with
  | nil => exact restored_relaunch.profile
  | @snoc es s e s' _ hstep ih =>
    cases hr : e.restores with
    | true =>
      rw [signedIn_of_restores hr]
      exact (steps_restores hstep hr).profile
    | false =>
      rw [signedIn_of_not_restores hr]
      cases huser : e.user? with
      | none =>
        rw [steps_other hstep hr (SessionEvent.signsIn_of_user? huser)]
        exact ih
      | some user =>
        cases SessionEvent.eq_of_user? huser
        cases hstep.2
        exact ⟨rfl, rfl⟩

end Session

namespace App

variable {a a' : App} {e : AppEvent} {es : List AppEvent} {defaults : Option Coder}

/-- What an event is for the session. -/
def sessionEvents : AppEvent → List SessionEvent
  | .launch => [.relaunch]
  | .didSignIn user error => [.didSignIn user error]
  | .logOut signOut => [.logOut signOut]
  | _ => []

theorem session_of_app (hrun : appMachine.Run (launched defaults) es a) :
    sessionMachine.Run (Session.relaunch ⟨none, defaults⟩) (es.flatMap sessionEvents)
      a.session := by
  refine hrun.project (f := App.session) fun a e a' hstep => ?_
  cases e with
  | launch =>
    cases hstep.2
    exact .single ⟨trivial, rfl⟩
  | didSignIn user error =>
    cases error with
    | none => cases user <;> cases hstep.2 <;> exact .single ⟨trivial, rfl⟩
    | some error => cases user <;> cases hstep.2 <;> exact .single ⟨trivial, rfl⟩
  | logOut signOut => cases signOut <;> cases hstep.2 <;> exact .single ⟨trivial, rfl⟩
  | board | newPost | toCreatePost | toSettings | back | dismiss | buttonPushed =>
    obtain ⟨writes, heffect⟩ := effect_of_steps hstep
    cases heffect <;> exact .nil

/-- The settings are open only while a user is set. -/
def SettingsGuarded (a : App) : Prop :=
  a.stack = [] ∨ ∃ vc, a.stack = [vc] ∧ (vc = .settings → a.session.currentUser ≠ none)

theorem SettingsGuarded.tail (h : a.SettingsGuarded) : a.stack.tail = [] := by
  rcases h with hnil | ⟨vc, hvc, -⟩
  · rw [hnil, List.tail_nil]
  · rw [hvc, List.tail_cons]

theorem SettingsGuarded.steps (h : a.SettingsGuarded) (hstep : appMachine.Steps a e a') :
    a'.SettingsGuarded := by
  obtain ⟨writes, heffect⟩ := effect_of_steps hstep
  cases e with
  | toSettings =>
    have hstack : a.stack = [] := hstep.1
    have hok : (a.handle .toSettings).map Prod.fst = .ok a' := hstep.2
    simp only [handle, App.toSettings] at hok
    split at hok
    · cases hok
      exact .inl hstack
    · rename_i hset
      cases hok
      exact .inr ⟨.settings, by rw [push, hstack], fun _ => hset⟩
  | launch =>
    cases heffect
    exact .inl rfl
  | board | dismiss | buttonPushed =>
    cases heffect
    exact h
  | newPost e =>
    cases heffect with
    | newPost hstack _ =>
      have htail := h.tail
      rw [hstack, List.tail_cons] at htail
      rw [htail]
      exact .inr ⟨_, rfl, fun hvc => by cases hvc⟩
  | toCreatePost =>
    cases heffect
    exact .inr ⟨_, rfl, fun hvc => by cases hvc⟩
  | didSignIn user error =>
    cases heffect with
    | signIn user =>
      refine h.imp_right ?_
      rintro ⟨vc, hvc, -⟩
      exact ⟨vc, hvc, fun _ hnone => by cases hnone⟩
    | noSignIn => exact h
  | logOut signOut =>
    cases heffect with
    | logOut hstack =>
      have htail := h.tail
      rw [hstack, List.tail_cons] at htail
      exact .inl htail
    | noLogOut => exact h
  | back =>
    cases heffect
    exact .inl h.tail

theorem settingsGuarded_of_run (hrun : appMachine.Run (launched defaults) es a) :
    a.SettingsGuarded :=
  hrun.invariant (.inl rfl) fun _ _ _ hs hstep => hs.steps hstep

/-- In every run of the app the settings are open only while a user is set; their first row is
always empty, and their second row is the e-mail of whoever has signed in last since the last launch
or log-out, and empty when nobody has. -/
theorem settings_of_run (hrun : appMachine.Run (launched defaults) es a) :
    (.settings ∈ a.stack → a.session.currentUser ≠ none) ∧
      SettingsController.cellForRowAt a.session 0 = .username "" ∧
      SettingsController.cellForRowAt a.session 1 = .email
        (((Session.signedIn (es.flatMap sessionEvents)).bind FirebaseUser.email).getD "") := by
  obtain ⟨husername, hemail⟩ := Session.profile_of_run (session_of_app hrun)
  refine ⟨fun hopen => ?_, ?_, ?_⟩
  · rcases settingsGuarded_of_run hrun with hnil | ⟨vc, hvc, hset⟩
    · rw [hnil] at hopen
      cases hopen
    · rw [hvc, List.mem_singleton] at hopen
      exact hset hopen.symm
  · rw [SettingsController.cellForRowAt, husername]
    rfl
  · rw [SettingsController.cellForRowAt, hemail]

theorem settings_of_run_signedIn : ∃ a, appMachine.Run (launched none)
      [.didSignIn (some ⟨"u1", some "u1@mail"⟩) none, .toSettings] a ∧
    SettingsController.cellForRowAt a.session 1 = .email "u1@mail" := by
  have hrun : appMachine.Run (launched none)
      [.didSignIn (some ⟨"u1", some "u1@mail"⟩) none, .toSettings] _ :=
    .cons ⟨trivial, rfl⟩ (.single ⟨rfl, rfl⟩)
  exact ⟨_, hrun, (settings_of_run hrun).2.2⟩

end App
end RLFinder
