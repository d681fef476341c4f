import RLFinder.Verify.AppLemmas

/-!
# Who can post

`postPost` checks nothing, so whether only logged-in users post is decided where its screen is
pushed. `toCreatePost` alerts a logged-out user and pushes all the same; in runs where nobody taps
its button while logged out, a user stays set for as long as the screen is on the stack (`Guarded`).
-/

namespace RLFinder
namespace App

variable {a a' : App} {e : AppEvent} {es : List AppEvent} {defaults : Option Coder}

/-- At most one screen is pushed, and a post editor only while a user is set. -/
def Guarded (a : App) : Prop :=
  a.stack = [] ∨ ∃ vc, a.stack = [vc] ∧ ∀ s, vc = .newPost s → a.session.currentUser ≠ none

/-- The floating post button is tapped only while a user is set. -/
def TapsWhileLoggedIn (a : App) (e : AppEvent) : Prop :=
  e = .toCreatePost → a.session.currentUser ≠ none

/-- A post is written only while a user is set. -/
def PostsWhileLoggedIn (a : App) (e : AppEvent) : Prop :=
  ∀ key, e = .buttonPushed key → a.session.currentUser ≠ none

theorem Guarded.tail (h : a.Guarded) : a.stack.tail = [] := by
  rcases h with hnil | ⟨vc, hvc, -⟩
  · rw [hnil, List.tail_nil]
  · rw [hvc, List.tail_cons]

theorem Guarded.currentUser (h : a.Guarded) (hstack : a.stack = .newPost s :: below) :
    a.session.currentUser ≠ none := by
  rcases h with hnil | ⟨vc, hvc, hset⟩
  · rw [hstack] at hnil
    cases hnil
  · rw [hstack] at hvc
    cases hvc
    exact hset s rfl

theorem Guarded.effect (h : a.Guarded) (htap : TapsWhileLoggedIn a e) {writes : List Write}
    (heffect : Effect a e a' writes) : a'.Guarded := by
  cases heffect with
  | launch => exact .inl rfl
  | board _ => exact h
  | @newPost below s _ s' hstack _ =>
    have hset := h.currentUser hstack
    have hbelow : below = [] := by simpa [hstack] using h.tail
    subst hbelow
    exact .inr ⟨_, rfl, fun _ _ => hset⟩
  | toCreatePost _ => exact .inr ⟨_, rfl, fun _ _ => htap rfl⟩
  | toSettings _ => exact .inr ⟨_, rfl, fun _ hs => by cases hs⟩
  | toAuth _ => exact h
  | signIn user =>
    refine h.imp_right ?_
    rintro ⟨vc, hvc, -⟩
    exact ⟨vc, hvc, fun _ _ hnone => by cases hnone⟩
  | noSignIn => exact h
  | @logOut below hstack =>
    have hbelow : below = [] := by simpa [hstack] using h.tail
    exact .inl hbelow
  | noLogOut => exact h
  | back => exact .inl h.tail
  | dismiss => exact h
  | buttonPushed _ => exact h

/-- In every run of the app in which the floating post button is tapped only while a user is set,
every post is written while a user is set. -/
theorem posts_while_loggedIn (hrun : appMachine.Run (launched defaults) es a)
    (htaps : appMachine.StepsMeet (launched defaults) es TapsWhileLoggedIn) :
    appMachine.StepsMeet (launched defaults) es PostsWhileLoggedIn := by
  refine hrun.stepsMeet_of_stepsMeet (I := Guarded) (.inl rfl) ?_ ?_ htaps
  · intro a e a' h htap hstep
    obtain ⟨writes, heffect⟩ := effect_of_steps hstep
    exact h.effect htap heffect
  · intro a e h _ hen key he
    subst he
    obtain ⟨s, below, hstack⟩ := hen
    exact h.currentUser hstack

theorem posts_while_loggedIn_signIn :
    appMachine.StepsMeet (launched none)
      [.didSignIn (some ⟨"u1", none⟩) none, .toCreatePost, .buttonPushed "-K1"]
      PostsWhileLoggedIn := by
  have htaps : appMachine.StepsMeet (launched none)
      [.didSignIn (some ⟨"u1", none⟩) none, .toCreatePost, .buttonPushed "-K1"]
      TapsWhileLoggedIn := by
    refine (Machine.stepsMeet_cons ⟨trivial, rfl⟩).mpr ⟨fun h => (by cases h), ?_⟩
    refine (Machine.stepsMeet_cons ⟨rfl, rfl⟩).mpr ⟨fun _ h => (by cases h), ?_⟩
    refine (Machine.stepsMeet_cons ⟨by exact ⟨_, _, rfl⟩, rfl⟩).mpr ⟨fun h => (by cases h), ?_⟩
    exact Machine.stepsMeet_nil
  obtain ⟨a, hrun⟩ : ∃ a, appMachine.Run (launched none)
      [.didSignIn (some ⟨"u1", none⟩) none, .toCreatePost, .buttonPushed "-K1"] a :=
    ⟨_, .snoc (.snoc (.snoc .nil ⟨trivial, rfl⟩) ⟨rfl, rfl⟩) ⟨⟨_, _, rfl⟩, rfl⟩⟩
  exact posts_while_loggedIn hrun htaps

/-- Nobody is logged in; the alert is shown, the editor pushed, and the post written. -/
theorem anonymous_post :
    ∃ a, appMachine.Run (launched none) [.toCreatePost, .dismiss] a ∧
      a.session.currentUser = none ∧ appMachine.enabled a (.buttonPushed "-K1") ∧
      (a.postWrites "-K1").map Write.path = [["ps4", "solo", "bronzePosts", "-K1"]] :=
  ⟨_, .snoc (.snoc .nil ⟨rfl, rfl⟩) ⟨trivial, rfl⟩, rfl, ⟨_, _, rfl⟩, rfl⟩

end App
end RLFinder
