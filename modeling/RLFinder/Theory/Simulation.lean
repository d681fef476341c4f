import RLFinder.Theory.Machine

/-!
# Simulations between machines

A machine simulates another when each step of the first is answered by a run of the second over
what the step lets be seen of it (`Machine.Simulation`). Whole runs are then answered over what they
let be seen (`Simulation.run`), which `observations` collects.
-/

namespace Machine

variable {σ ε φ α η ψ : Type*}

/-- What the steps of a run let be seen, in order. -/
def observations (M : Machine σ ε φ) (obs : σ → ε → List η) (s : σ) : List ε → List η
  | [] => []
  | e :: es => obs s e ++
    match M.step s e with
    | .ok s' => M.observations obs s' es
    | .error _ => []

variable {M : Machine σ ε φ} {A : Machine α η ψ} {obs : σ → ε → List η} {R : σ → α → Prop}
  {s₀ s s' : σ} {a₀ : α} {e : ε} {es : List ε}

theorem observations_cons (h : M.Steps s e s') :
    M.observations obs s (e :: es) = obs s e ++ M.observations obs s' es := by
  rw [observations, h.2]

theorem observations_snoc (hrun : M.Run s₀ es s) :
    M.observations obs s₀ (es ++ [e]) = M.observations obs s₀ es ++ obs s e := by
  induction es generalizing s₀ with
  | nil =>
    cases hrun.nil_inv
    rw [List.nil_append, observations, observations, List.nil_append]
    cases M.step s e <;> exact List.append_nil _
  | cons e' es ih =>
    obtain ⟨s', hstep, hrest⟩ := hrun.cons_inv
    rw [List.cons_append, observations_cons hstep, observations_cons hstep, ih hrest,
      List.append_assoc]

theorem observations_append {es' : List ε} (hrun : M.Run s₀ es s) :
    M.observations obs s₀ (es ++ es') = M.observations obs s₀ es ++ M.observations obs s es' := by
  induction es generalizing s₀ with
  | nil =>
    cases hrun.nil_inv
    rfl
  | cons e es ih =>
    obtain ⟨s₁, hstep, hrest⟩ := hrun.cons_inv
    rw [List.cons_append, observations_cons hstep, observations_cons hstep, ih hrest,
      List.append_assoc]

/-- `A` answers every step of `M` by a run over what the step lets be seen, and stays related. -/
def Simulation (M : Machine σ ε φ) (A : Machine α η ψ) (obs : σ → ε → List η)
    (R : σ → α → Prop) : Prop :=
  ∀ s a e s', R s a → M.Steps s e s' → ∃ a', A.Run a (obs s e) a' ∧ R s' a'

theorem Simulation.run (h : M.Simulation A obs R) (h₀ : R s₀ a₀) (hrun : M.Run s₀ es s) :
    ∃ a, A.Run a₀ (M.observations obs s₀ es) a ∧ R s a := by
  induction hrun with
  | nil => exact ⟨a₀, .nil, h₀⟩
  | snoc hrun hstep ih =>
    obtain ⟨a, ha, hR⟩ := ih
    obtain ⟨a', ha', hR'⟩ := h _ a _ _ hR hstep
    rw [observations_snoc hrun]
    exact ⟨a', ha.append ha', hR'⟩

/-- A part of a machine that answers each step by a run of its own has a run in every run. -/
theorem Run.project {f : σ → α} {g : ε → List η}
    (h : ∀ s e s', M.Steps s e s' → A.Run (f s) (g e) (f s')) (hrun : M.Run s₀ es s) :
    A.Run (f s₀) (es.flatMap g) (f s) := by
  induction hrun with
  | nil => exact .nil
  | snoc _ hstep ih =>
    rw [List.flatMap_append, List.flatMap_singleton]
    exact ih.append (h _ _ _ hstep)

/-- A run of at most one event is nothing or a step. -/
theorem Run.of_length_le_one (hrun : M.Run s₀ es s) (h : es.length ≤ 1) :
    (es = [] ∧ s = s₀) ∨ ∃ e, es = [e] ∧ M.Steps s₀ e s := by
  cases es with
  | nil => exact .inl ⟨rfl, hrun.nil_inv⟩
  | cons e es =>
    have hnil : es = [] := List.length_eq_zero_iff.mp (Nat.le_zero.mp (Nat.le_of_succ_le_succ h))
    subst hnil
    obtain ⟨s₁, hstep, hrun⟩ := hrun.cons_inv
    cases hrun.nil_inv
    exact .inr ⟨e, rfl, hstep⟩

theorem observations_singleton : M.observations obs s [e] = obs s e := by
  rw [observations]
  cases M.step s e <;> exact List.append_nil _

end Machine
