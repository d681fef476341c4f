import Mathlib.Data.List.DropRight
import Mathlib.Data.List.Range
import Mathlib.Data.List.Perm.Basic

/-!
# Traces of events

What a trace says about the moment it ends: the events since the last marked one (`List.since`), the
tickets of asynchronous calls that are still out (`Ledger`), and when what a trace collects is the
share of one of its events.
-/

variable {α β : Type*}

namespace List

variable {mark : α → Bool} {l l₁ l₂ : List α} {a : α}

/-- The events since the last marked one, or all of them. -/
def since (mark : α → Bool) (l : List α) : List α := l.rtakeWhile (!mark ·)

theorem since_concat_of_mark (h : mark a = true) : (l ++ [a]).since mark = [] :=
  rtakeWhile_concat_neg _ _ _ (by simp [h])

theorem since_concat_of_not_mark (h : mark a = false) :
    (l ++ [a]).since mark = l.since mark ++ [a] :=
  rtakeWhile_concat_pos _ _ _ (by simp [h])

theorem since_suffix : l.since mark <:+ l := rtakeWhile_suffix _ _

theorem map_filter_concat {p : α → Bool} {f : α → β} :
    ((l ++ [a]).filter p).map f = (l.filter p).map f ++ if p a then [f a] else [] := by
  rw [filter_append, map_append]
  cases h : p a <;> simp [h]

/-- A trace collects exactly the share of one of its events if and only if the others contribute
nothing. -/
theorem flatMap_perm_iff {f : α → List β} :
    ((l₁ ++ a :: l₂).flatMap f).Perm (f a) ↔ ∀ x ∈ l₁ ++ l₂, f x = [] := by
  rw [flatMap_append, flatMap_cons]
  constructor
  · intro h
    have hlen := h.length_eq
    simp only [length_append] at hlen
    have h₁ : l₁.flatMap f = [] := length_eq_zero_iff.mp (by omega)
    have h₂ : l₂.flatMap f = [] := length_eq_zero_iff.mp (by omega)
    rw [flatMap_eq_nil_iff] at h₁ h₂
    intro x hx
    exact (mem_append.mp hx).elim (h₁ x) (h₂ x)
  · intro h
    have h₁ : l₁.flatMap f = [] :=
      flatMap_eq_nil_iff.mpr fun x hx => h x (mem_append_left _ hx)
    have h₂ : l₂.flatMap f = [] :=
      flatMap_eq_nil_iff.mpr fun x hx => h x (mem_append_right _ hx)
    rw [h₁, h₂, nil_append, append_nil]

end List

/-- The tickets `0, …, n - 1` have been issued, and each is delivered or outstanding, once. -/
def Ledger (n : Nat) (delivered outstanding : List Nat) : Prop :=
  (delivered ++ outstanding).Perm (List.range n)

namespace Ledger

variable {n k : Nat} {delivered outstanding : List Nat}

theorem start : Ledger 0 [] [] := .refl _

theorem issue (h : Ledger n delivered outstanding) :
    Ledger (n + 1) delivered (outstanding ++ [n]) := by
  rw [Ledger, List.range_succ, ← List.append_assoc]
  exact List.Perm.append_right [n] h

theorem deliver (h : Ledger n delivered outstanding) (hk : k ∈ outstanding) :
    Ledger n (delivered ++ [k]) (outstanding.erase k) := by
  rw [Ledger, List.append_assoc]
  exact ((List.perm_cons_erase hk).symm.append_left delivered).trans h

theorem lt_of_delivered (h : Ledger n delivered outstanding) (hk : k ∈ delivered) : k < n :=
  List.mem_range.mp (h.mem_iff.mp (List.mem_append_left _ hk))

theorem lt_of_outstanding (h : Ledger n delivered outstanding) (hk : k ∈ outstanding) : k < n :=
  List.mem_range.mp (h.mem_iff.mp (List.mem_append_right _ hk))

theorem nodup_delivered (h : Ledger n delivered outstanding) : delivered.Nodup :=
  (List.nodup_append.mp (h.nodup_iff.mpr List.nodup_range)).1

end Ledger
