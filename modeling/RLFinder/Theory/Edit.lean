import Mathlib.Data.List.Basic
import RLFinder.Theory.Machine

/-!
# Edits of a text buffer

An edit replaces a range of a buffer, a list of characters of any type, by another list. The plain
buffer (`bufferMachine`) accepts the edits that lie within it and change something.
-/

structure Edit (α : Type*) where
  location : Nat
  length : Nat
  replacement : List α
  deriving DecidableEq

namespace Edit

variable {α : Type*} {e : Edit α} {xs : List α}

/-- The range lies within the buffer. -/
def InRange (e : Edit α) (xs : List α) : Prop := e.location + e.length ≤ xs.length

instance : Decidable (e.InRange xs) := inferInstanceAs (Decidable (_ ≤ _))

def apply (e : Edit α) (xs : List α) : List α :=
  xs.take e.location ++ e.replacement ++ xs.drop (e.location + e.length)

/-- The edit removes something or inserts something. -/
def Changes (e : Edit α) : Prop := e.length ≠ 0 ∨ e.replacement ≠ []

/-- In an empty buffer an edit leaves its replacement. -/
@[simp] theorem apply_nil : e.apply [] = e.replacement := by simp [apply]

theorem inRange_nil : e.InRange [] ↔ e.location = 0 ∧ e.length = 0 := by
  simp [InRange]

theorem length_apply (h : e.InRange xs) :
    (e.apply xs).length + e.length = xs.length + e.replacement.length := by
  unfold InRange at h
  simp only [apply, List.length_append, List.length_take, List.length_drop]
  omega

/-- The caret that an edit leaves behind is within the edited buffer. -/
theorem caret_le_length_apply (h : e.InRange xs) :
    e.location + e.replacement.length ≤ (e.apply xs).length := by
  have := length_apply h
  unfold InRange at h
  omega

/-- A plain buffer: it accepts the edits that lie within it and change something. -/
def bufferMachine (α : Type*) (φ : Type*) : Machine (List α) (Edit α) φ where
  enabled xs e := e.InRange xs ∧ e.Changes
  step xs e := .ok (e.apply xs)

theorem bufferMachine_steps {φ : Type*} (hrange : e.InRange xs) (hchanges : e.Changes) :
    (bufferMachine α φ).Steps xs e (e.apply xs) := ⟨⟨hrange, hchanges⟩, rfl⟩

end Edit
