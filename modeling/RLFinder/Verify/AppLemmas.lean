import RLFinder.App
import RLFinder.Verify.NewPostLemmas

/-!
# What one event does to the app

`App.Effect` lists the ways an event can go: the next state and the writes it sends. The invariants
of the app and of the clients sharing a database are case analyses over it.
-/

namespace RLFinder
namespace App

inductive Effect (a : App) : AppEvent → App → List Write → Prop
  | launch : Effect a .launch (.launched a.session.defaults) []
  | board : postsMachine.Steps a.board e b → Effect a (.board e) { a with board := b } []
  | newPost : a.stack = .newPost s :: below → newPostMachine.Steps s e s' →
      Effect a (.newPost e) { a with stack := .newPost s' :: below } []
  /-- Pushed with or without an alert. -/
  | toCreatePost {presented : Option Presented} : a.stack = [] →
      Effect a .toCreatePost
        { a with
          stack := [.newPost (.start a.board.controller.currentSelectedSystem ⟨0, 0⟩)]
          presented } []
  | toSettings : a.stack = [] → Effect a .toSettings { a with stack := [.settings] } []
  | toAuth : a.session.currentUser = none →
      Effect a .toSettings { a with presented := some .authViewController } []
  | signIn (user : FirebaseUser) : Effect a (.didSignIn (some user) none)
      { a with session := ⟨some { uid := some user.uid, email := user.email }, some []⟩ }
      [usersWrite user.uid]
  | noSignIn : Effect a (.didSignIn user error) a []
  | logOut : a.stack = .settings :: below →
      Effect a (.logOut (.ok ())) { a with session := ⟨none, none⟩, stack := below } []
  | noLogOut : Effect a (.logOut (.error error)) a []
  | back : Effect a .back { a with stack := a.stack.tail } []
  | dismiss : Effect a .dismiss { a with presented := none } []
  | buttonPushed : a.stack = .newPost s :: below →
      Effect a (.buttonPushed key) a [s.controller.postWrite key]

variable {a a' : App} {e : AppEvent} {writes : List Write}

theorem effect_of_handle (hen : a.Enabled e) (h : a.handle e = .ok (a', writes)) :
    Effect a e a' writes := by
  cases e with
  | launch =>
    cases h
    exact .launch
  | board e =>
    obtain ⟨b, hb, h⟩ := Except.of_bind_eq_ok h
    cases h
    exact .board ⟨hen.1, hb⟩
  | newPost e =>
    obtain ⟨s, below, hstack, hen⟩ := hen
    simp only [handle, hstack] at h
    obtain ⟨s', hs, h⟩ := Except.of_bind_eq_ok h
    cases h
    exact .newPost hstack ⟨hen, hs⟩
  | toCreatePost =>
    have hstack : a.stack = [] := hen
    cases h
    unfold toCreatePost
    split
    · simp only [push, present, hstack]
      exact .toCreatePost hstack
    · simp only [push, hstack]
      exact .toCreatePost hstack
  | toSettings =>
    have hstack : a.stack = [] := hen
    cases h
    unfold toSettings
    split
    · rename_i hnone
      exact .toAuth hnone
    · simp only [push, hstack]
      exact .toSettings hstack
  | didSignIn user error =>
    cases error with
    | some error =>
      cases user <;> cases h <;> exact .noSignIn
    | none =>
      cases user with
      | none =>
        cases h
        exact .noSignIn
      | some user =>
        cases h
        exact .signIn user
  | logOut signOut =>
    obtain ⟨below, hstack⟩ := hen
    cases signOut with
    | ok =>
      have htail : a.stack = .settings :: a.stack.tail := by rw [hstack, List.tail_cons]
      cases h
      exact .logOut htail
    | error error =>
      cases h
      exact .noLogOut
  | back =>
    cases h
    exact .back
  | dismiss =>
    cases h
    exact .dismiss
  | buttonPushed key =>
    obtain ⟨s, below, hstack⟩ := hen
    simp only [handle, postWrites, hstack, NewPostController.postPost_eq] at h
    cases h
    exact .buttonPushed hstack

theorem effect_of_steps (h : appMachine.Steps a e a') : ∃ writes, Effect a e a' writes := by
  obtain ⟨hen, hstep⟩ := h
  cases hh : a.handle e with
  | error f =>
    simp only [appMachine, hh] at hstep
    cases hstep
  | ok r =>
    simp only [appMachine, hh] at hstep
    cases hstep
    exact ⟨r.2, effect_of_handle hen hh⟩

/-! ## The screens of a running app -/

/-- The screens of the app are in states their own machines reach, and each post editor was opened
for a system the board offers. -/
structure Composed (a : App) : Prop where
  board : ∃ es, postsMachine.Run .start es a.board
  editors : ∀ s, .newPost s ∈ a.stack → ∃ system es,
    system ∈ DropDown.systemDropDown.dropDownOptions ∧
      newPostMachine.Run (.start system ⟨0, 0⟩) es s

theorem composed_launched {defaults : Option Coder} : (launched defaults).Composed where
  board := ⟨[], .nil⟩
  editors s hs := by cases hs

theorem Composed.effect (h : a.Composed) (heffect : Effect a e a' writes) : a'.Composed := by
  cases heffect with
  | launch => exact composed_launched
  | board hstep =>
    obtain ⟨es, hrun⟩ := h.board
    exact ⟨⟨_, hrun.snoc hstep⟩, h.editors⟩
  | @newPost below s e s' hstack hstep =>
    refine ⟨h.board, fun t ht => ?_⟩
    rcases List.mem_cons.mp ht with heq | ht
    · cases heq
      obtain ⟨system, es, hsystem, hrun⟩ := h.editors s (hstack ▸ .head _)
      exact ⟨system, _, hsystem, hrun.snoc hstep⟩
    · exact h.editors t (hstack ▸ .tail _ ht)
  | toCreatePost _ =>
    refine ⟨h.board, fun t ht => ?_⟩
    cases List.mem_singleton.mp ht
    obtain ⟨es, hrun⟩ := h.board
    exact ⟨_, [], (PostsScreen.offered_of_run hrun).system, .nil⟩
  | toSettings _ =>
    refine ⟨h.board, fun t ht => ?_⟩
    cases List.mem_singleton.mp ht
  | toAuth _ => exact ⟨h.board, h.editors⟩
  | signIn user => exact ⟨h.board, h.editors⟩
  | noSignIn => exact h
  | logOut hstack =>
    exact ⟨h.board, fun t ht => h.editors t (hstack ▸ .tail _ ht)⟩
  | noLogOut => exact h
  | back => exact ⟨h.board, fun t ht => h.editors t (List.mem_of_mem_tail ht)⟩
  | dismiss => exact ⟨h.board, h.editors⟩
  | buttonPushed _ => exact h

end App

/-! ## The clients of a database -/

namespace World

variable {ι : Type} [DecidableEq ι] {w w' : World ι} {i : ι} {e : AppEvent}

/-- An event takes one client on and sends its writes to the database. -/
theorem effect_of_steps (h : (worldMachine ι).Steps w (i, e) w') :
    ∃ a writes, (w.clients i).Effect e a writes ∧
      w' = ⟨Function.update w.clients i a, w.database.apply writes⟩ := by
  obtain ⟨hen, hstep⟩ := h
  obtain ⟨⟨a, writes⟩, hhandle, hok⟩ := Except.of_bind_eq_ok hstep
  cases hok
  exact ⟨a, writes, App.effect_of_handle hen.1 hhandle, rfl⟩

end World
end RLFinder
