import RLFinder.User

/-!
# Loads that come late

The callback of `loadUser` sets the user without asking whether anybody has logged out, or another
load has succeeded, in the meantime. Runs in which no callback comes late in this sense (`Fresh`)
keep the user that the latest successful load has set (`Current`).
-/

namespace RLFinder
namespace Loads

variable {s s' : Loads} {e : LoadEvent} {es : List LoadEvent}

/-- Nobody is logged in until a load issued after the last log-out has succeeded. -/
def LogOutIsFinal (s : Loads) : Prop :=
  ∀ n, s.loggedOut = some n → (∀ load ∈ s.succeeded, load.1 < n) → s.session.currentUser = none

/-- With no load in flight, the user is the one of the most recently issued load that succeeded. -/
def LatestUserWins (s : Loads) : Prop :=
  s.outstanding = [] → ∀ user, s.session.currentUser = some user →
    ∃ ticket, (ticket, user) ∈ s.succeeded ∧ ∀ load ∈ s.succeeded, load.1 ≤ ticket

/-- A value is delivered only for a load that was issued after the last log-out and after every load
that has succeeded. -/
def Fresh (s : Loads) (e : LoadEvent) : Prop :=
  ∀ ticket snapshot, e = .callback ticket (.value snapshot) →
    (∀ n, s.loggedOut = some n → n ≤ ticket) ∧ ∀ load ∈ s.succeeded, load.1 < ticket

/-- The user is the one of the latest load that succeeded, issued after the last log-out. -/
def Current (s : Loads) : Prop :=
  ∀ user, s.session.currentUser = some user →
    ∃ ticket, (ticket, user) ∈ s.succeeded ∧ (∀ load ∈ s.succeeded, load.1 ≤ ticket) ∧
      ∀ n, s.loggedOut = some n → n ≤ ticket

theorem Current.logOutIsFinal (h : s.Current) : s.LogOutIsFinal := by
  intro n hn hearlier
  by_contra hne
  obtain ⟨user, huser⟩ := Option.ne_none_iff_exists'.mp hne
  obtain ⟨ticket, hmem, -, hafter⟩ := h user huser
  have hlt := hearlier _ hmem
  have hle := hafter n hn
  simp only at hlt
  omega

theorem Current.latestUserWins (h : s.Current) : s.LatestUserWins := by
  intro _ user huser
  obtain ⟨ticket, hmem, hlatest, -⟩ := h user huser
  exact ⟨ticket, hmem, hlatest⟩

theorem Current.steps (h : s.Current) (hfresh : s.Fresh e) (hstep : loadsMachine.Steps s e s') :
    s'.Current := by
  have hok := hstep.2
  cases e with
  | loadUser uid =>
    cases hok
    exact h
  | callback ticket result =>
    cases result with
    | value snapshot =>
      obtain ⟨hlogout, hearlier⟩ := hfresh ticket snapshot rfl
      cases hok
      intro user huser
      cases huser
      refine ⟨ticket, List.mem_append_right _ (.head _), fun load hload => ?_, hlogout⟩
      rcases List.mem_append.mp hload with hload | hload
      · exact Nat.le_of_lt (hearlier load hload)
      · cases List.mem_singleton.mp hload
        exact Nat.le_refl _
    | error localizedDescription =>
      cases hok
      exact h
  | logOutCurrentUser =>
    cases hok
    intro user huser
    cases huser

/-- In every run whose values are all delivered fresh, each state passed through has the log-out
final and the latest user logged in. -/
theorem logOut_final_latest_wins (hrun : loadsMachine.Run {} es s)
    (hfresh : loadsMachine.StepsMeet {} es Fresh) :
    loadsMachine.Throughout {} es fun s => s.LogOutIsFinal ∧ s.LatestUserWins := by
  have hstart : Current {} := by
    intro user huser
    cases huser
  have hcurrent : loadsMachine.Throughout {} es Current :=
    hrun.throughout_of_stepsMeet hstart (fun _ _ _ h hG hstep => h.steps hG hstep) hfresh
  exact hcurrent.imp fun _ h => ⟨h.logOutIsFinal, h.latestUserWins⟩

/-- A log-out between two loads, each of which calls back before anything else happens. -/
theorem logOut_final_latest_wins_twice :
    loadsMachine.Throughout {} [.loadUser "u1", .callback 0 (.value .null), .logOutCurrentUser,
        .loadUser "u2", .callback 1 (.value .null)]
      fun s => s.LogOutIsFinal ∧ s.LatestUserWins := by
  refine logOut_final_latest_wins (.of_replay rfl) ?_
  have hother (s : Loads) (e : LoadEvent) (h : ∀ ticket result, e ≠ .callback ticket result) :
      Fresh s e := fun ticket _ he => absurd he (h ticket _)
  refine (Machine.stepsMeet_cons ⟨trivial, rfl⟩).mpr ⟨hother _ _ (by simp), ?_⟩
  refine (Machine.stepsMeet_cons ⟨List.Mem.head _, rfl⟩).mpr ⟨?_, ?_⟩
  · intro ticket snapshot he
    cases he
    exact ⟨by rintro n ⟨⟩, by simp⟩
  refine (Machine.stepsMeet_cons ⟨trivial, rfl⟩).mpr ⟨hother _ _ (by simp), ?_⟩
  refine (Machine.stepsMeet_cons ⟨trivial, rfl⟩).mpr ⟨hother _ _ (by simp), ?_⟩
  refine (Machine.stepsMeet_cons ⟨List.Mem.head _, rfl⟩).mpr ⟨?_, Machine.stepsMeet_nil⟩
  -- the second load comes after the log-out, and after the first load
  intro ticket snapshot he
  cases he
  exact ⟨by rintro n ⟨⟩; exact le_rfl, by simp⟩

/-- A load in flight revives the user after a log-out, and an older load that calls back last
replaces the newer user. -/
theorem late_callback_wins :
    (∃ s, loadsMachine.Run {}
        [.loadUser "u1", .logOutCurrentUser, .callback 0 (.value .null)] s ∧
      s.loggedOut = some 1 ∧ s.issued = ["u1"] ∧ s.session.currentUser.isSome = true) ∧
    (∃ s, loadsMachine.Run {}
        [.loadUser "u1", .loadUser "u2", .callback 1 (.value .null), .callback 0 (.value .null)] s ∧
      s.outstanding = [] ∧ s.session.currentUser = some (Session.loadedUser "u1" .null) ∧
      s.succeeded.map Prod.fst = [1, 0]) :=
  ⟨⟨_, .of_replay rfl, rfl, rfl, rfl⟩, ⟨_, .of_replay rfl, rfl, rfl, rfl⟩⟩

end Loads
end RLFinder
