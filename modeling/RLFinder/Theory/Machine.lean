import Mathlib.Data.List.Infix

/-!
# Event machines with faults

A machine reads events one at a time. The environment decides which events it may deliver in a
state (`enabled`); the machine answers with its next state or with a fault that ends the process.
A run (`Run`) is a list of delivered events, none of which faulted. `Throughout` says that a
predicate holds in every state of a run, `StepsMeet` that every event of a run is delivered in a
state that meets a guard, and the rules below derive the one from the other by one induction.
-/

/-- A computation that returns went through without a fault. -/
theorem Except.of_bind_eq_ok {φ : Type u} {α β : Type v} {x : Except φ α} {f : α → Except φ β}
    {b : β} (h : x >>= f = .ok b) : ∃ a, x = .ok a ∧ f a = .ok b := by
  cases x with
  | error e => cases h
  | ok a => exact ⟨a, rfl, h⟩

/-- A computation that only maps its result faults where its first part does. -/
theorem Except.bind_pure_eq_error_iff {φ : Type u} {α β : Type v} {x : Except φ α} {f : α → β}
    {e : φ} : (x >>= fun a => pure (f a)) = .error e ↔ x = .error e := by
  cases x with
  | error e' => exact ⟨fun h => congrArg Except.error (Except.error.inj h),
      fun h => congrArg Except.error (Except.error.inj h)⟩
  | ok a => exact ⟨fun h => (by cases h), fun h => (by cases h)⟩

theorem Except.of_mapError_eq_ok {φ ψ α : Type*} {x : Except φ α} {f : φ → ψ} {a : α}
    (h : x.mapError f = .ok a) : x = .ok a := by
  cases x with
  | error e => cases h
  | ok a' =>
    cases h
    rfl

theorem Except.mapError_eq_error_iff {φ ψ α : Type*} {x : Except φ α} {f : φ → ψ} {e : ψ} :
    x.mapError f = .error e ↔ ∃ e', x = .error e' ∧ f e' = e := by
  cases x with
  | error e' =>
    constructor
    · rintro ⟨⟩
      exact ⟨e', rfl, rfl⟩
    · rintro ⟨_, ⟨⟩, rfl⟩
      rfl
  | ok a => exact ⟨fun h => (by cases h), fun ⟨e', h, _⟩ => (by cases h)⟩

structure Machine (σ ε φ : Type*) where
  /-- The environment may deliver this event in this state. -/
  enabled : σ → ε → Prop
  /-- What the event does: the next state, or the fault that ends the process. -/
  step : σ → ε → Except φ σ

namespace Machine

variable {σ ε φ : Type*}

/-- One delivered event that does not fault. -/
def Steps (M : Machine σ ε φ) (s : σ) (e : ε) (s' : σ) : Prop :=
  M.enabled s e ∧ M.step s e = .ok s'

/-- `M.Run s₀ es s`: delivering `es` in order takes `s₀` to `s` without a fault. -/
inductive Run (M : Machine σ ε φ) (s₀ : σ) : List ε → σ → Prop
  | nil : Run M s₀ [] s₀
  | snoc : Run M s₀ es s → M.Steps s e s' → Run M s₀ (es ++ [e]) s'

variable {M : Machine σ ε φ} {s₀ s s' s₁ s₂ : σ} {e : ε} {es es' : List ε}

/-! ## Runs -/

theorem Steps.det (h₁ : M.Steps s e s₁) (h₂ : M.Steps s e s₂) : s₁ = s₂ := by
  have h := h₁.2.symm.trans h₂.2
  cases h
  rfl

namespace Run

theorem nil_inv (h : M.Run s₀ [] s) : s = s₀ := by
  generalize hes : ([] : List ε) = es at h
  cases h with
  | nil => rfl
  | snoc => simp at hes

theorem snoc_inv (h : M.Run s₀ (es ++ [e]) s') : ∃ s, M.Run s₀ es s ∧ M.Steps s e s' := by
  generalize hes : es ++ [e] = es' at h
  cases h with
  | nil => simp at hes
  | snoc hrun hstep =>
    obtain ⟨rfl, he⟩ := List.append_inj' hes rfl
    cases he
    exact ⟨_, hrun, hstep⟩

/-- The machine is deterministic: the events fix the state. -/
theorem det (h₁ : M.Run s₀ es s₁) (h₂ : M.Run s₀ es s₂) : s₁ = s₂ := by
  induction h₁ generalizing s₂ with
  | nil => exact h₂.nil_inv.symm
  | snoc _ hstep ih =>
    obtain ⟨t, ht, hstep'⟩ := h₂.snoc_inv
    cases ih ht
    exact hstep.det hstep'

theorem single (h : M.Steps s e s') : M.Run s [e] s' := by
  simpa using Run.snoc .nil h

theorem append (h₁ : M.Run s₀ es s) (h₂ : M.Run s es' s') : M.Run s₀ (es ++ es') s' := by
  induction h₂ with
  | nil => simpa using h₁
  | snoc _ hstep ih =>
    rw [← List.append_assoc]
    exact .snoc ih hstep

theorem cons (h₁ : M.Steps s₀ e s) (h₂ : M.Run s es s') : M.Run s₀ (e :: es) s' :=
  (single h₁).append h₂

theorem split (h : M.Run s₀ (es ++ es') s') : ∃ s, M.Run s₀ es s ∧ M.Run s es' s' := by
  induction es' using List.reverseRecOn generalizing s' with
  | nil => exact ⟨s', by simpa using h, .nil⟩
  | append_singleton es' e ih =>
    rw [← List.append_assoc] at h
    obtain ⟨t, ht, hstep⟩ := h.snoc_inv
    obtain ⟨s, hs, hst⟩ := ih ht
    exact ⟨s, hs, .snoc hst hstep⟩

theorem cons_inv (h : M.Run s₀ (e :: es) s') : ∃ s, M.Steps s₀ e s ∧ M.Run s es s' := by
  have h : M.Run s₀ ([e] ++ es) s' := h
  obtain ⟨s, hs, hrest⟩ := h.split
  have hs : M.Run s₀ ([] ++ [e]) s := hs
  obtain ⟨t, ht, hstep⟩ := hs.snoc_inv
  cases ht.nil_inv
  exact ⟨s, hstep, hrest⟩

theorem single_inv (h : M.Run s₀ [e] s) : M.Steps s₀ e s := by
  obtain ⟨s₁, hstep, hnil⟩ := h.cons_inv
  cases hnil.nil_inv
  exact hstep

/-- The invariant rule: what every step preserves holds at the end of every run. -/
theorem invariant {I : σ → Prop} (h : M.Run s₀ es s) (h₀ : I s₀)
    (keep : ∀ s e s', I s → M.Steps s e s' → I s') : I s := by
  induction h with
  | nil => exact h₀
  | snoc _ hstep ih => exact keep _ _ _ ih hstep

/-- The invariant rule for predicates that also speak of the events delivered so far. -/
theorem history {I : List ε → σ → Prop} (h : M.Run s₀ es s) (h₀ : I [] s₀)
    (keep : ∀ es s e s', M.Run s₀ es s → I es s → M.Steps s e s' → I (es ++ [e]) s') : I es s := by
  induction h with
  | nil => exact h₀
  | snoc hrun hstep ih => exact keep _ _ _ _ hrun ih hstep

end Run

/-- An event that pops a stack empties it when it is delivered often enough. -/
theorem run_replicate_of_pop {α : Type*} {f : List α → σ}
    (h : ∀ x xs, M.Steps (f (x :: xs)) e (f xs)) (xs : List α) :
    M.Run (f xs) (List.replicate xs.length e) (f []) := by
  induction xs with
  | nil => exact .nil
  | cons x xs ih => exact .cons (h x xs) ih

/-! ## Predicates over whole runs -/

/-- Every state the run passes through, the last one included, satisfies `P`. -/
def Throughout (M : Machine σ ε φ) (s₀ : σ) (es : List ε) (P : σ → Prop) : Prop :=
  ∀ es₁ s₁, es₁ <+: es → M.Run s₀ es₁ s₁ → P s₁

/-- Every event of the run is delivered in a state that meets the guard `G`. -/
def StepsMeet (M : Machine σ ε φ) (s₀ : σ) (es : List ε) (G : σ → ε → Prop) : Prop :=
  ∀ es₁ e s₁, es₁ ++ [e] <+: es → M.Run s₀ es₁ s₁ → G s₁ e

variable {P I : σ → Prop} {G H : σ → ε → Prop}

theorem Throughout.last (h : M.Throughout s₀ es P) (hrun : M.Run s₀ es s) : P s :=
  h es s List.prefix_rfl hrun

theorem Throughout.imp {Q : σ → Prop} (h : M.Throughout s₀ es P) (hPQ : ∀ s, P s → Q s) :
    M.Throughout s₀ es Q := fun es₁ s₁ hpre hrun => hPQ s₁ (h es₁ s₁ hpre hrun)

theorem throughout_nil : M.Throughout s₀ [] P ↔ P s₀ := by
  constructor
  · exact fun h => h.last .nil
  · intro h es₁ s₁ hpre hrun
    obtain rfl := List.prefix_nil.mp hpre
    cases hrun.nil_inv
    exact h

theorem throughout_snoc (hrun : M.Run s₀ (es ++ [e]) s') :
    M.Throughout s₀ (es ++ [e]) P ↔ M.Throughout s₀ es P ∧ P s' := by
  constructor
  · exact fun h => ⟨fun es₁ s₁ hpre => h es₁ s₁ (hpre.trans (List.prefix_append ..)), h.last hrun⟩
  · rintro ⟨h, hlast⟩ es₁ s₁ hpre hrun₁
    rcases List.prefix_concat_iff.mp hpre with rfl | hpre
    · exact hrun₁.det hrun ▸ hlast
    · exact h es₁ s₁ hpre hrun₁

theorem stepsMeet_nil : M.StepsMeet s₀ [] G := by
  intro es₁ e s₁ hpre
  simp at hpre

theorem stepsMeet_snoc (hrun : M.Run s₀ es s) :
    M.StepsMeet s₀ (es ++ [e]) G ↔ M.StepsMeet s₀ es G ∧ G s e := by
  constructor
  · refine fun h => ⟨fun es₁ e₁ s₁ hpre => h es₁ e₁ s₁ (hpre.trans (List.prefix_append ..)), ?_⟩
    exact h es e s List.prefix_rfl hrun
  · rintro ⟨h, hlast⟩ es₁ e₁ s₁ hpre hrun₁
    rcases List.prefix_concat_iff.mp hpre with heq | hpre
    · obtain ⟨rfl, he⟩ := List.append_inj' heq rfl
      cases he
      exact hrun₁.det hrun ▸ hlast
    · exact h es₁ e₁ s₁ hpre hrun₁

theorem stepsMeet_cons (hstep : M.Steps s e s') :
    M.StepsMeet s (e :: es) G ↔ G s e ∧ M.StepsMeet s' es G := by
  constructor
  · refine fun h => ⟨h [] e s ⟨es, rfl⟩ .nil, fun es₁ e₁ s₁ hpre hrun => ?_⟩
    exact h (e :: es₁) e₁ s₁ (List.cons_prefix_cons.mpr ⟨rfl, hpre⟩) (.cons hstep hrun)
  · rintro ⟨hhead, htail⟩ es₁ e₁ s₁ hpre hrun
    cases es₁ with
    | nil =>
      obtain ⟨rfl, -⟩ := List.cons_prefix_cons.mp hpre
      cases hrun.nil_inv
      exact hhead
    | cons e₀ es₁ =>
      obtain ⟨rfl, hpre'⟩ := List.cons_prefix_cons.mp hpre
      obtain ⟨t, hstep', hrun'⟩ := hrun.cons_inv
      cases hstep.det hstep'
      exact htail es₁ e₁ s₁ hpre' hrun'

/-- A predicate that every guarded step preserves holds throughout every run whose steps meet the
guard. -/
theorem Run.throughout_of_stepsMeet (hrun : M.Run s₀ es s) (h₀ : P s₀)
    (keep : ∀ s e s', P s → G s e → M.Steps s e s' → P s') (hG : M.StepsMeet s₀ es G) :
    M.Throughout s₀ es P := by
  induction hrun with
  | nil => exact throughout_nil.mpr h₀
  | snoc hrun hstep ih =>
    rw [stepsMeet_snoc hrun] at hG
    have hP := ih hG.1
    exact (throughout_snoc (.snoc hrun hstep)).mpr ⟨hP, keep _ _ _ (hP.last hrun) hG.2 hstep⟩

/-- A guard is exact when a step that misses it also breaks the predicate: then the runs that keep
the predicate throughout are those whose steps all meet the guard. -/
theorem Run.throughout_iff_stepsMeet (hrun : M.Run s₀ es s) (h₀ : P s₀)
    (keep : ∀ s e s', P s → G s e → M.Steps s e s' → P s')
    (break_ : ∀ s e s', P s → ¬ G s e → M.Steps s e s' → ¬ P s') :
    M.Throughout s₀ es P ↔ M.StepsMeet s₀ es G := by
  refine ⟨fun hP => ?_, hrun.throughout_of_stepsMeet h₀ keep⟩
  induction hrun with
  | nil => exact stepsMeet_nil
  | snoc hrun hstep ih =>
    rw [throughout_snoc (.snoc hrun hstep)] at hP
    refine (stepsMeet_snoc hrun).mpr ⟨ih hP.1, ?_⟩
    by_contra hG
    exact break_ _ _ _ (hP.1.last hrun) hG hstep hP.2

/-- The same where the steps may use an invariant. -/
theorem Run.throughout_iff_of_invariant (hrun : M.Run s₀ es s) (hI : I s₀)
    (keepI : ∀ s e s', I s → M.Steps s e s' → I s') (h₀ : P s₀)
    (keep : ∀ s e s', I s → P s → G s e → M.Steps s e s' → P s')
    (break_ : ∀ s e s', I s → P s → ¬ G s e → M.Steps s e s' → ¬ P s') :
    M.Throughout s₀ es P ↔ M.StepsMeet s₀ es G := by
  have hiff := hrun.throughout_iff_stepsMeet (P := fun s => I s ∧ P s) (G := G) ⟨hI, h₀⟩
    (fun s e s' ⟨hI, hP⟩ hG hstep => ⟨keepI s e s' hI hstep, keep s e s' hI hP hG hstep⟩)
    fun s e s' ⟨hI, hP⟩ hG hstep ⟨_, hP'⟩ => break_ s e s' hI hP hG hstep hP'
  rw [← hiff]
  constructor
  · exact fun h es₁ s₁ hpre hrun₁ => ⟨hrun₁.invariant hI keepI, h es₁ s₁ hpre hrun₁⟩
  · exact fun h => h.imp fun s hs => hs.2

/-- A guard strengthened by an invariant: runs whose steps meet `G` also meet `H`. -/
theorem Run.stepsMeet_of_stepsMeet (hrun : M.Run s₀ es s) (h₀ : I s₀)
    (keep : ∀ s e s', I s → G s e → M.Steps s e s' → I s')
    (use : ∀ s e, I s → G s e → M.enabled s e → H s e) (hG : M.StepsMeet s₀ es G) :
    M.StepsMeet s₀ es H := by
  induction hrun with
  | nil => exact stepsMeet_nil
  | snoc hrun hstep ih =>
    have hI := (hrun.throughout_of_stepsMeet h₀ keep ((stepsMeet_snoc hrun).mp hG).1).last hrun
    rw [stepsMeet_snoc hrun] at hG
    exact (stepsMeet_snoc hrun).mpr ⟨ih hG.1, use _ _ hI hG.2 hstep.1⟩

/-! ## Replaying a list of events -/

/-- Deliver the events in order; `none` once one is not enabled or faults. -/
def replay (M : Machine σ ε φ) [∀ s e, Decidable (M.enabled s e)] (s : σ) : List ε → Option σ
  | [] => some s
  | e :: es =>
    if M.enabled s e then
      match M.step s e with
      | .ok s' => M.replay s' es
      | .error _ => none
    else none

theorem Run.of_replay [∀ s e, Decidable (M.enabled s e)] (h : M.replay s es = some s') :
    M.Run s es s' := by
  induction es generalizing s with
  | nil =>
    cases h
    exact .nil
  | cons e es ih =>
    simp only [replay] at h
    split at h
    · rename_i hen
      split at h
      · rename_i t hstep
        exact .cons ⟨hen, hstep⟩ (ih h)
      · cases h
    · cases h

end Machine
