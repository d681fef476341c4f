import Mathlib.Data.Rat.Defs
import Mathlib.Data.List.Basic

/-!
# Swift values

The parts of Swift the app leans on: the run-time errors that end the process, lower-casing, values
of type `Any` with the casts applied to them, and the unspecified order in which a `for` loop visits
a dictionary.
-/

namespace RLFinder

/-- The run-time errors that end the process. -/
inductive Fault
  /-- `as!` on a value of another type. -/
  | forcedCast
  /-- `!` on nil. -/
  | forcedUnwrap
  /-- A subscript past the end of an array. -/
  | indexOutOfRange
  /-- An `insertRows` or `deleteRows` that does not add up. -/
  | invalidUpdate
  /-- A text range past the end of the text. -/
  | rangeException
  deriving DecidableEq

/-- `lowercased()`, which the app only applies to ASCII strings. -/
def lowercased (s : String) : String := String.ofList (s.toList.map Char.toLower)

/-- A scalar: a leaf of the database. -/
inductive Leaf
  | string (s : String)
  | number (n : ℚ)
  | boolean (b : Bool)
  deriving DecidableEq

/-- A value of type `Any`. The entries of a dictionary are listed in no meaningful order. -/
inductive Any
  | null
  | leaf (l : Leaf)
  | array (elements : List Any)
  | dictionary (entries : List (String × Any))

/-! ### Casts -/

namespace Any

/-- `as? [String : Any]` -/
def asDictionary? : Any → Option (List (String × Any))
  | .dictionary entries => some entries
  | _ => none

/-- `as? String` -/
def asString? : Any → Option String
  | .leaf (.string s) => some s
  | _ => none

/-- Cast the values of a dictionary; one value of another type fails the whole cast. -/
def castValues {β : Type} (cast : Any → Option β) (value : Any) : Option (List (String × β)) :=
  value.asDictionary?.bind fun entries => entries.mapM fun e => (cast e.2).map (e.1, ·)

/-- `as? [String : String]` -/
def asStringDictionary? : Any → Option (List (String × String)) := castValues asString?

/-- `as? [String : [String : String]]` -/
def asPosts? : Any → Option (List (String × List (String × String))) :=
  castValues asStringDictionary?

/-- A cast succeeds when it succeeds on every value. -/
theorem castValues_map {α β : Type} {cast : Any → Option β} (es : List (String × α))
    (value : α → Any) (g : α → β) (h : ∀ e ∈ es, cast (value e.2) = some (g e.2)) :
    castValues cast (.dictionary (es.map fun e => (e.1, value e.2))) =
      some (es.map fun e => (e.1, g e.2)) := by
  rw [castValues, asDictionary?, Option.bind_some]
  induction es with
  | nil => rfl
  | cons e es ih =>
    rw [List.map_cons, List.mapM_cons, h e (.head _), ih fun e he => h e (.tail _ he)]
    rfl

end Any

/-- The order in which two nested `for` loops visit a dictionary of dictionaries: a permutation of
the outer entries and, for each outer key, one of the inner entries. -/
structure IterationOrder (α β : Type) where
  outer : List (String × α) → List (String × α)
  inner : String → List (String × β) → List (String × β)
  outer_perm : ∀ l, (outer l).Perm l
  inner_perm : ∀ k l, (inner k l).Perm l

/-- The order in which the entries are listed. -/
def IterationOrder.listed {α β : Type} : IterationOrder α β where
  outer l := l
  inner _ l := l
  outer_perm l := .refl l
  inner_perm _ l := .refl l

end RLFinder
