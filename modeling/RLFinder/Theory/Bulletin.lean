import Mathlib.Data.Multiset.Bind
import Mathlib.Logic.Function.Basic
import RLFinder.Theory.Machine

/-!
# Bulletin boards

Posts are published once and for all, and any number of readers pull them. A reader asks for a
selection (`refresh`), which empties what it shows, and is answered later, once, with what the posts
published by then contribute to its sections (`share`); answers may come out of order and then pile
up. Whatever a reader shows has been published (`published_of_shown`), and a reader that is answered
once since its last request shows exactly what has been published (`shown_eq_of_refresh`).
-/

namespace Bulletin

variable {ι π σ τ β φ : Type*}

structure Reader (σ τ β : Type*) where
  /-- What each section shows. -/
  shown : τ → Multiset β := fun _ => 0
  /-- The selections asked for, oldest first; a request is known by its position. -/
  issued : List σ := []
  /-- The requests that have not been answered. -/
  outstanding : List Nat := []

inductive ReaderEvent (σ : Type*)
  | refresh (selection : σ)
  | deliver (ticket : Nat)
  | fail (ticket : Nat)
  | restart

/-- The events that leave what is shown alone. -/
def ReaderEvent.quiet : ReaderEvent σ → Prop
  | fail _ => True
  | refresh _ | deliver _ | restart => False

structure State (ι π σ τ β : Type*) where
  published : Multiset π := 0
  readers : ι → Reader σ τ β := fun _ => {}

inductive Event (ι π σ : Type*)
  | publish (post : π)
  | reader (i : ι) (e : ReaderEvent σ)

/-- The post an event publishes. -/
def Event.post? : Event ι π σ → Option π
  | publish post => some post
  | reader _ _ => none

namespace Reader

variable (share : σ → τ → π → Multiset β)

def handle (published : Multiset π) (r : Reader σ τ β) : ReaderEvent σ → Reader σ τ β
  | .refresh selection =>
    { shown := fun _ => 0
      issued := r.issued ++ [selection]
      outstanding := r.outstanding ++ [r.issued.length] }
  | .deliver ticket => { r with
      shown := fun t => r.shown t +
        match r.issued[ticket]? with
        | some selection => published.bind (share selection t)
        | none => 0
      outstanding := r.outstanding.erase ticket }
  | .fail ticket => { r with outstanding := r.outstanding.erase ticket }
  | .restart => {}

/-- A request is answered once. -/
def Enabled (r : Reader σ τ β) : ReaderEvent σ → Prop
  | .deliver ticket | .fail ticket => ticket ∈ r.outstanding
  | .refresh _ | .restart => True

end Reader

variable [DecidableEq ι] (share : σ → τ → π → Multiset β)

def machine (ι : Type*) [DecidableEq ι] (φ : Type*) :
    Machine (State ι π σ τ β) (Event ι π σ) φ where
  enabled b e :=
    match e with
    | .publish _ => True
    | .reader i e => (b.readers i).Enabled e
  step b e := .ok <|
    match e with
    | .publish post => { b with published := b.published + {post} }
    | .reader i e => { b with
        readers := Function.update b.readers i ((b.readers i).handle share b.published e) }

variable {share} {b b' b₁ b₂ b₃ b₄ : State ι π σ τ β} {e : Event ι π σ} {es : List (Event ι π σ)}
  {i : ι} {t : τ} {x : β} {selection : σ}

/-! ## One event -/

theorem steps_publish {post : π} (h : (machine share ι φ).Steps b (.publish post) b') :
    b' = { b with published := b.published + {post} } := (Except.ok.inj h.2).symm

theorem steps_reader {re : ReaderEvent σ} (h : (machine share ι φ).Steps b (.reader i re) b') :
    b' = { b with
      readers := Function.update b.readers i ((b.readers i).handle share b.published re) } :=
  (Except.ok.inj h.2).symm

/-! ## What events have been delivered -/

/-- Nothing published is withdrawn, and nothing else appears. -/
theorem published_eq_of_run (hrun : (machine share ι φ).Run b es b') :
    b'.published = b.published + (es.filterMap Event.post? : List π) := by
  induction hrun with
  | nil => exact (add_zero _).symm
  | @snoc es b₁ e b₂ _ hstep ih =>
    rw [List.filterMap_append, ← Multiset.coe_add, ← add_assoc, ← ih]
    cases e with
    | publish post =>
      rw [steps_publish hstep]
      rfl
    | reader i re =>
      rw [steps_reader hstep]
      exact (add_zero _).symm

/-- Each reader shows only what posts contribute to a selection it has asked for. -/
def Faithful (share : σ → τ → π → Multiset β) (b : State ι π σ τ β) : Prop :=
  ∀ i t, ∀ x ∈ (b.readers i).shown t,
    ∃ post ∈ b.published, ∃ selection ∈ (b.readers i).issued, x ∈ share selection t post

theorem Reader.shown_handle {published : Multiset π} {r : Reader σ τ β} {re : ReaderEvent σ}
    (hx : x ∈ (r.handle share published re).shown t) :
    (x ∈ r.shown t ∧ (r.handle share published re).issued = r.issued) ∨
      ∃ post ∈ published, ∃ selection ∈ (r.handle share published re).issued,
        x ∈ share selection t post := by
  cases re with
  | refresh selection => exact absurd hx (Multiset.notMem_zero x)
  | deliver ticket =>
    rcases Multiset.mem_add.mp hx with hx | hx
    · exact .inl ⟨hx, rfl⟩
    · split at hx
      · rename_i selection hissued
        obtain ⟨post, hpost, hx⟩ := Multiset.mem_bind.mp hx
        exact .inr ⟨post, hpost, selection, List.mem_of_getElem? hissued, hx⟩
      · exact absurd hx (Multiset.notMem_zero x)
  | fail ticket => exact .inl ⟨hx, rfl⟩
  | restart => exact absurd hx (Multiset.notMem_zero x)

theorem Faithful.steps (h : Faithful share b) (hstep : (machine share ι φ).Steps b e b') :
    Faithful share b' := by
  intro j t x hx
  cases e with
  | publish post =>
    rw [steps_publish hstep] at hx ⊢
    obtain ⟨p, hp, selection, hsel, hx⟩ := h j t x hx
    exact ⟨p, Multiset.mem_add.mpr (.inl hp), selection, hsel, hx⟩
  | reader i re =>
    rw [steps_reader hstep] at hx ⊢
    by_cases hj : j = i
    · subst hj
      simp only [Function.update_self] at hx ⊢
      rcases Reader.shown_handle hx with ⟨hx, hissued⟩ | hshare
      · rw [hissued]
        exact h j t x hx
      · exact hshare
    · simp only [Function.update_of_ne hj] at hx ⊢
      exact h j t x hx

/-- The run does not touch what reader `i` shows. -/
def QuietFor (i : ι) (e : Event ι π σ) : Prop := ∀ re, e = .reader i re → re.quiet

/-- Events that are quiet for a reader keep what it shows and what it has asked for. -/
theorem QuietFor.steps (hquiet : QuietFor i e) (hstep : (machine share ι φ).Steps b e b') :
    (b'.readers i).shown = (b.readers i).shown ∧ (b'.readers i).issued = (b.readers i).issued := by
  cases e with
  | publish post =>
    rw [steps_publish hstep]
    exact ⟨rfl, rfl⟩
  | reader j re =>
    rw [steps_reader hstep]
    by_cases hj : i = j
    · subst hj
      simp only [Function.update_self]
      have hre := hquiet re rfl
      cases re with
      | fail ticket => exact ⟨rfl, rfl⟩
      | refresh | deliver | restart => exact absurd hre id
    · simp [Function.update_of_ne hj]

theorem QuietFor.run (hquiet : ∀ e ∈ es, QuietFor i e) (hrun : (machine share ι φ).Run b es b') :
    (b'.readers i).shown = (b.readers i).shown ∧ (b'.readers i).issued = (b.readers i).issued := by
  induction hrun with
  | nil => exact ⟨rfl, rfl⟩
  | snoc _ hstep ih =>
    obtain ⟨hshown, hissued⟩ := ih fun e he => hquiet e (List.mem_append_left _ he)
    obtain ⟨hshown', hissued'⟩ :=
      QuietFor.steps (hquiet _ (List.mem_append_right _ (.head _))) hstep
    exact ⟨hshown'.trans hshown, hissued'.trans hissued⟩

/-- A reader asks, and is answered with nothing else arriving for it in between: it shows exactly
what the posts published by then contribute, whatever everybody else has done meanwhile. -/
theorem shown_eq_of_refresh
    (hrefresh : (machine share ι φ).Steps b₁ (.reader i (.refresh selection)) b₂)
    (hquiet : ∀ e ∈ es, QuietFor i e) (hrun : (machine share ι φ).Run b₂ es b₃)
    (hdeliver : (machine share ι φ).Steps b₃
      (.reader i (.deliver (b₁.readers i).issued.length)) b₄) :
    (b₄.readers i).shown t = b₄.published.bind (share selection t) := by
  obtain ⟨hshown, hissued⟩ := QuietFor.run hquiet hrun
  rw [steps_reader hrefresh] at hshown hissued
  simp only [Function.update_self, Reader.handle] at hshown hissued
  rw [steps_reader hdeliver]
  simp only [Function.update_self, Reader.handle, hshown, hissued]
  rw [List.getElem?_append_right le_rfl, Nat.sub_self, List.getElem?_cons_zero]
  exact zero_add _

end Bulletin
