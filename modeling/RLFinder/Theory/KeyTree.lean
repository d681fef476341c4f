import Mathlib.Data.List.Infix
import Mathlib.Data.List.Nodup
import Mathlib.Data.Set.Finite.Basic

/-!
# Hierarchical stores

A store is a tree of keyed children with values at its leaves, addressed by paths of keys. Writing
at a path replaces the whole subtree there and creates the nodes above it (`KeyTree.set`); a leaf
on the way is overwritten by a node. Reading after a write is described by three laws: at and below
the written path (`get_set_append`), above it (`get_set_above`), and everywhere else
(`get_set_of_outside`). `Store` carries the invariant that no node is empty and no key is repeated,
and `Journal` the one that a store holds at certain places what has been written there, once each.
-/

inductive KeyTree (κ ν : Type*)
  | leaf (v : ν)
  | node (children : List (κ × KeyTree κ ν))

/-! ### Keyed lists -/

section KeyedList
variable {κ β : Type*} [DecidableEq κ] {k k' : κ} {v : β} {cs : List (κ × β)}

/-- Replace the entry of a key in place, or append it. -/
def List.upsert (k : κ) (v : β) : List (κ × β) → List (κ × β)
  | [] => [(k, v)]
  | c :: cs => if c.1 = k then (k, v) :: cs else c :: upsert k v cs

theorem List.lookup_cons_of_ne {a : κ} {b : β} (h : k ≠ a) :
    ((a, b) :: cs).lookup k = cs.lookup k := by
  rw [List.lookup_cons, beq_eq_false_iff_ne.mpr h]

@[simp] theorem List.lookup_upsert_self : (cs.upsert k v).lookup k = some v := by
  induction cs with
  | nil => simp [upsert]
  | cons c cs ih =>
    obtain ⟨a, b⟩ := c
    by_cases h : a = k
    · simp [upsert, h]
    · simp [upsert, h, List.lookup_cons_of_ne (Ne.symm h), ih]

theorem List.lookup_upsert_of_ne (h : k' ≠ k) : (cs.upsert k v).lookup k' = cs.lookup k' := by
  induction cs with
  | nil => simp [upsert, h]
  | cons c cs ih =>
    obtain ⟨a, b⟩ := c
    by_cases ha : a = k
    · subst ha
      simp [upsert, List.lookup_cons_of_ne h]
    · simp [upsert, ha, List.lookup_cons, ih]

theorem List.upsert_of_lookup_eq_none (h : cs.lookup k = none) :
    cs.upsert k v = cs ++ [(k, v)] := by
  induction cs with
  | nil => rfl
  | cons c cs ih =>
    simp only [List.lookup_eq_none_iff, List.mem_cons, forall_eq_or_imp, bne_iff_ne] at h
    have hc : c.1 ≠ k := fun hc => by simp [hc] at h
    rw [upsert, if_neg hc, ih (by simpa using h.2), List.cons_append]

theorem List.upsert_ne_nil : cs.upsert k v ≠ [] := by
  cases cs with
  | nil => simp [upsert]
  | cons c cs =>
    simp only [upsert]
    split <;> simp

theorem List.mem_upsert {c : κ × β} (h : c ∈ cs.upsert k v) : c = (k, v) ∨ c ∈ cs := by
  induction cs with
  | nil => simpa [upsert] using h
  | cons d cs ih =>
    simp only [upsert] at h
    split at h
    · rcases List.mem_cons.mp h with rfl | h
      · exact .inl rfl
      · exact .inr (.tail _ h)
    · rcases List.mem_cons.mp h with rfl | h
      · exact .inr (.head _)
      · exact (ih h).imp_right (.tail _)

theorem List.nodup_keys_upsert (h : (cs.map Prod.fst).Nodup) :
    ((cs.upsert k v).map Prod.fst).Nodup := by
  induction cs with
  | nil => simp [upsert]
  | cons c cs ih =>
    rw [List.map_cons, List.nodup_cons] at h
    simp only [upsert]
    split
    · rename_i hc
      simpa [hc] using h
    · rename_i hc
      refine List.nodup_cons.mpr ⟨fun hmem => ?_, ih h.2⟩
      obtain ⟨d, hd, hdc⟩ := List.mem_map.mp hmem
      rcases List.mem_upsert hd with rfl | hd
      · exact hc hdc.symm
      · exact h.1 (hdc ▸ List.mem_map_of_mem hd)

theorem List.lookup_eq_some_of_mem (hnd : (cs.map Prod.fst).Nodup) (h : (k, v) ∈ cs) :
    cs.lookup k = some v := by
  obtain ⟨l₁, l₂, rfl⟩ := List.append_of_mem h
  refine List.lookup_eq_some_iff.mpr ⟨l₁, l₂, rfl, fun p hp => bne_iff_ne.mpr fun hk => ?_⟩
  rw [List.map_append, List.map_cons] at hnd
  have hdisj := (List.nodup_append.mp hnd).2.2
  exact hdisj _ (List.mem_map_of_mem hp) _ (.head _) hk.symm

theorem List.mem_of_lookup_eq_some (h : cs.lookup k = some v) : (k, v) ∈ cs := by
  obtain ⟨l₁, l₂, rfl, -⟩ := List.lookup_eq_some_iff.mp h
  simp

/-- With distinct keys, collecting over the entries of one key is collecting over its lookup. -/
theorem List.flatMap_key {γ : Type*} (hnd : (cs.map Prod.fst).Nodup) (f : β → List γ) :
    (cs.flatMap fun c => if c.1 = k then f c.2 else []) = ((cs.lookup k).map f).getD [] := by
  induction cs with
  | nil => rfl
  | cons c cs ih =>
    obtain ⟨a, b⟩ := c
    rw [List.map_cons, List.nodup_cons] at hnd
    rw [List.flatMap_cons, ih hnd.2]
    by_cases ha : a = k
    · subst ha
      have hnone : cs.lookup a = none :=
        List.lookup_eq_none_iff.mpr fun p hp => bne_iff_ne.mpr fun h =>
          hnd.1 (List.mem_map.mpr ⟨p, hp, h.symm⟩)
      simp [hnone]
    · rw [List.lookup_cons_of_ne (Ne.symm ha)]
      simp [ha]

end KeyedList

namespace KeyTree

/-! ### Places -/

section Outside
variable {κ : Type*} {k k' : κ} {p q : List κ}

/-- Neither place contains the other. -/
def Outside (p q : List κ) : Prop := ¬ p <+: q ∧ ¬ q <+: p

theorem outside_cons_of_ne (h : k ≠ k') : Outside (k :: p) (k' :: q) := by
  constructor <;> intro hpre
  · exact h (List.cons_prefix_cons.mp hpre).1
  · exact h (List.cons_prefix_cons.mp hpre).1.symm

theorem Outside.of_prefix {r : List κ} (h : Outside p q) (hp : p <+: r) : Outside r q :=
  ⟨fun hr => h.1 (hp.trans hr), fun hq => (List.prefix_or_prefix_of_prefix hp hq).elim h.1 h.2⟩

@[simp] theorem outside_cons_cons : Outside (k :: p) (k :: q) ↔ Outside p q := by
  simp [Outside]

/-- A place no deeper than a written one is outside it unless it lies above it. -/
theorem outside_of_length_le (hlen : q.length ≤ p.length) (h : ¬ q <+: p) : Outside p q := by
  refine ⟨fun hpre => h ?_, h⟩
  rw [hpre.eq_of_length_le hlen]

/-- Two places of one depth are outside each other. -/
theorem outside_of_ne (hlen : p.length = q.length) (h : p ≠ q) : Outside p q :=
  ⟨fun hpre => h (hpre.eq_of_length hlen), fun hpre => h (hpre.eq_of_length hlen.symm).symm⟩

end Outside

/-! ### Reading and writing -/

variable {κ ν : Type*} {t : Option (KeyTree κ ν)} {v : KeyTree κ ν} {k : κ} {p q : List κ}

/-- The children of a place; a leaf and an absent place have none. -/
def children : Option (KeyTree κ ν) → List (κ × KeyTree κ ν)
  | some (.node cs) => cs
  | _ => []

@[simp] theorem children_none : children (none : Option (KeyTree κ ν)) = [] := rfl

variable [DecidableEq κ]

def child (t : Option (KeyTree κ ν)) (k : κ) : Option (KeyTree κ ν) := (children t).lookup k

/-- The subtree at a path, `none` where there is nothing. -/
def get (t : Option (KeyTree κ ν)) : List κ → Option (KeyTree κ ν)
  | [] => t
  | k :: p => get (child t k) p

/-- Replace the whole subtree at a path. -/
def set (t : Option (KeyTree κ ν)) : List κ → KeyTree κ ν → KeyTree κ ν
  | [], v => v
  | k :: p, v => .node ((children t).upsert k (set (child t k) p v))

@[simp] theorem get_none : get (none : Option (KeyTree κ ν)) p = none := by
  induction p with
  | nil => rfl
  | cons k p ih => exact ih

theorem get_leaf {l : ν} (h : p ≠ []) : get (some (.leaf l)) p = none := by
  cases p with
  | nil => exact absurd rfl h
  | cons k p => exact get_none

theorem get_append : get t (p ++ q) = get (get t p) q := by
  induction p generalizing t with
  | nil => rfl
  | cons k p ih => exact ih

@[simp] theorem child_set_cons_self :
    child (some (set t (k :: p) v)) k = some (set (child t k) p v) :=
  List.lookup_upsert_self

theorem child_set_cons_of_ne {k' : κ} (h : k' ≠ k) :
    child (some (set t (k :: p) v)) k' = child t k' :=
  List.lookup_upsert_of_ne h

/-- Reading above a written place: the subtree there, with the write done inside it. -/
theorem get_set_above : get (some (set t (p ++ q) v)) p = some (set (get t p) q v) := by
  induction p generalizing t with
  | nil => rfl
  | cons k p ih =>
    rw [List.cons_append, get, child_set_cons_self, ih, get]

/-- Reading at or below a written place. -/
theorem get_set_append : get (some (set t p v)) (p ++ q) = get (some v) q := by
  have h : get (some (set t (p ++ []) v)) p = some (set (get t p) [] v) := get_set_above
  rw [List.append_nil] at h
  rw [get_append, h, set]

/-- The frame law: a write is not seen at any place outside the written one. -/
theorem get_set_of_outside (h : Outside p q) : get (some (set t p v)) q = get t q := by
  induction p generalizing t q with
  | nil => exact absurd List.nil_prefix h.1
  | cons k p ih =>
    cases q with
    | nil => exact absurd List.nil_prefix h.2
    | cons k' q =>
      by_cases hk : k' = k
      · subst hk
        rw [get, child_set_cons_self, get]
        exact ih (outside_cons_cons.mp h)
      · rw [get, child_set_cons_of_ne hk, get]

/-! ### Well-formed trees -/

/-- No empty node and no repeated key, at any depth. -/
inductive WellFormed : KeyTree κ ν → Prop
  | leaf {l : ν} : WellFormed (.leaf l)
  | node {cs : List (κ × KeyTree κ ν)} : cs ≠ [] → (cs.map Prod.fst).Nodup →
    (∀ k t, (k, t) ∈ cs → WellFormed t) → WellFormed (.node cs)

omit [DecidableEq κ] in
theorem WellFormed.nodup_children (h : ∀ t' ∈ t, WellFormed t') :
    ((children t).map Prod.fst).Nodup := by
  match t, h with
  | none, _ => simp
  | some (.leaf _), _ => simp [children]
  | some (.node cs), h =>
    cases h _ rfl with
    | node _ hnd _ => exact hnd

omit [DecidableEq κ] in
theorem WellFormed.of_mem_children (h : ∀ t' ∈ t, WellFormed t') (hmem : (k, v) ∈ children t) :
    WellFormed v := by
  match t, h with
  | none, _ => simp at hmem
  | some (.leaf _), _ => simp [children] at hmem
  | some (.node cs), h =>
    cases h _ rfl with
    | node _ _ hall => exact hall _ _ hmem

theorem WellFormed.child (h : ∀ t' ∈ t, WellFormed t') : ∀ t' ∈ child t k, WellFormed t' :=
  fun _ ht => of_mem_children h (List.mem_of_lookup_eq_some ht)

theorem WellFormed.get (h : ∀ t' ∈ t, WellFormed t') : ∀ t' ∈ get t p, WellFormed t' := by
  induction p generalizing t with
  | nil => exact h
  | cons k p ih => exact ih (WellFormed.child h)

theorem WellFormed.set (h : ∀ t' ∈ t, WellFormed t') (hv : WellFormed v) :
    WellFormed (set t p v) := by
  induction p generalizing t with
  | nil => exact hv
  | cons k p ih =>
    refine .node List.upsert_ne_nil (List.nodup_keys_upsert (nodup_children h)) ?_
    intro k' t' hmem
    rcases List.mem_upsert hmem with heq | hmem
    · cases heq
      exact ih (WellFormed.child h)
    · exact of_mem_children h hmem

end KeyTree

/-- A store whose tree has no empty node and no repeated key. -/
structure Store (κ ν : Type*) [DecidableEq κ] where
  tree : Option (KeyTree κ ν)
  wellFormed : ∀ t ∈ tree, t.WellFormed

namespace Store
open KeyTree

variable {κ ν : Type*} [DecidableEq κ] {s : Store κ ν} {v : KeyTree κ ν} {p q : List κ} {k : κ}

def empty : Store κ ν := ⟨none, by simp⟩

def get (s : Store κ ν) (p : List κ) : Option (KeyTree κ ν) := KeyTree.get s.tree p

def set (s : Store κ ν) (p : List κ) (v : KeyTree κ ν) (hv : v.WellFormed) : Store κ ν :=
  ⟨some (KeyTree.set s.tree p v), by rintro _ ⟨⟩; exact .set s.wellFormed hv⟩

@[simp] theorem get_empty : (empty : Store κ ν).get p = none := get_none

theorem get_set_of_outside (hv : v.WellFormed) (h : Outside p q) : (s.set p v hv).get q = s.get q :=
  KeyTree.get_set_of_outside h

theorem get_set_append (hv : v.WellFormed) :
    (s.set p v hv).get (p ++ q) = KeyTree.get (some v) q := KeyTree.get_set_append

theorem get_set_above (hv : v.WellFormed) :
    (s.set (p ++ q) v hv).get p = some (KeyTree.set (s.get p) q v) := KeyTree.get_set_above

theorem get_set_self (hv : v.WellFormed) : (s.set p v hv).get p = some v := by
  have h : (s.set p v hv).get (p ++ []) = _ := get_set_append hv
  rwa [List.append_nil] at h

/-! ### Journals -/

/-- At the places of `P` the store holds what the journal has written, each place once. -/
structure Journal (P : List κ → Prop) (s : Store κ ν) (log : List (List κ × KeyTree κ ν)) :
    Prop where
  places : ∀ e ∈ log, P e.1
  nodup : (log.map Prod.fst).Nodup
  get : ∀ p, P p → ∀ v, s.get p = some v ↔ (p, v) ∈ log

namespace Journal

variable {P : List κ → Prop} {log : List (List κ × KeyTree κ ν)}

theorem empty : Journal P (Store.empty : Store κ ν) [] where
  places e he := by cases he
  nodup := List.nodup_nil
  get p _ v := by rw [get_empty]; exact iff_of_false nofun (List.not_mem_nil)

/-- A write outside all places is not recorded. -/
theorem set_outside (h : Journal P s log) (hv : v.WellFormed) (hout : ∀ q, P q → Outside p q) :
    Journal P (s.set p v hv) log where
  places := h.places
  nodup := h.nodup
  get q hq u := by rw [get_set_of_outside hv (hout q hq), h.get q hq u]

/-- A write to a place that holds nothing is recorded, when the other places are outside it. -/
theorem set_fresh (h : Journal P s log) (hv : v.WellFormed) (hp : P p) (hfresh : s.get p = none)
    (hout : ∀ q, P q → q ≠ p → Outside p q) : Journal P (s.set p v hv) (log ++ [(p, v)]) where
  places e he := by
    rcases List.mem_append.mp he with he | he
    · exact h.places e he
    · cases List.mem_singleton.mp he
      exact hp
  nodup := by
    rw [List.map_append, List.nodup_append_comm]
    refine List.nodup_cons.mpr ⟨fun hmem => ?_, h.nodup⟩
    obtain ⟨e, he, hkey⟩ := List.mem_map.mp hmem
    have hsome := (h.get e.1 (h.places e he) e.2).mpr he
    rw [hkey, hfresh] at hsome
    cases hsome
  get q hq u := by
    by_cases hqp : q = p
    · subst hqp
      rw [get_set_self, List.mem_append, ← h.get q hq u, hfresh]
      simp [eq_comm]
    · rw [get_set_of_outside hv (hout q hq hqp), h.get q hq u, List.mem_append]
      simp [hqp]

end Journal

end Store
