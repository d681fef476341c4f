import Mathlib.Logic.Function.Basic
import Mathlib.Data.List.Count
import Mathlib.Data.Fintype.Basic
import RLFinder.Swift

/-!
# The table view

What the app relies on of `UITableView`. The view remembers a row count for each of its sections and
the header views it displays. It asks the data source again only when sections are reloaded or rows
are inserted or deleted, and an insertion or deletion must add up: in every section the data
source's count is the remembered one plus the rows inserted, or minus the rows deleted.
-/

namespace RLFinder

/-- The library's instance under a name of its own: all modules then number the sections by the same
terms. -/
instance sections_neZero : @NeZero Nat Zero.ofOfNat0 7 := inferInstance

inductive Caret
  | angleDown
  | angleUp
  deriving DecidableEq

/-- A header view. The storyboard's prototype shows the caret `angle-down`. -/
structure PartnerPostHeader where
  tierName : String
  tierIcon : String
  caret : Caret := .angleDown
  deriving DecidableEq

structure IndexPath where
  row : Nat
  section_ : Nat
  deriving DecidableEq

structure UITableView where
  /-- The remembered row counts. -/
  rowCounts : Fin 7 → Nat
  /-- The displayed headers. -/
  headers : Fin 7 → PartnerPostHeader

inductive TableUpdate
  | insertRows (indexPaths : List IndexPath)
  | deleteRows (indexPaths : List IndexPath)
  deriving DecidableEq

namespace TableUpdate

def indexPaths : TableUpdate → List IndexPath
  | insertRows indexPaths | deleteRows indexPaths => indexPaths

/-- The number of index paths of the update that lie in a section. -/
def rowsIn (u : TableUpdate) (s : Fin 7) : Nat :=
  u.indexPaths.countP fun indexPath => indexPath.section_ = s.val

/-- The update adds up in every section: `rows` is what the data source answers now. -/
def Valid (u : TableUpdate) (t : UITableView) (rows : Fin 7 → Nat) : Prop :=
  match u with
  | insertRows _ => ∀ s, rows s = t.rowCounts s + u.rowsIn s
  | deleteRows _ => ∀ s, rows s + u.rowsIn s = t.rowCounts s

instance {u : TableUpdate} {t : UITableView} {rows : Fin 7 → Nat} : Decidable (u.Valid t rows) := by
  cases u <;> exact inferInstanceAs (Decidable (∀ _, _))

end TableUpdate

namespace UITableView

def perform (t : UITableView) (u : TableUpdate) (rows : Fin 7 → Nat) : Except Fault UITableView :=
  if u.Valid t rows then .ok { t with rowCounts := rows } else .error .invalidUpdate

/-- `reloadSections` over all sections: new counts and newly created headers. -/
def reloadSections (_t : UITableView) (rows : Fin 7 → Nat) (header : Fin 7 → PartnerPostHeader) :
    UITableView where
  rowCounts := rows
  headers := header

def setHeader (t : UITableView) (s : Fin 7) (header : PartnerPostHeader) : UITableView :=
  { t with headers := Function.update t.headers s header }

variable {t : UITableView} {u : TableUpdate} {rows : Fin 7 → Nat}

theorem perform_of_valid (h : u.Valid t rows) :
    t.perform u rows = .ok { t with rowCounts := rows } := if_pos h

end UITableView

end RLFinder
