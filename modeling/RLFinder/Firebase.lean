import RLFinder.Swift
import RLFinder.Theory.KeyTree

/-!
# The Firebase database

The realtime database as the app sees it: a store of scalars addressed by paths (`Database`),
references built by `child` and `childByAutoId`, `setValue`, and the native value of a snapshot
(`snapshotValue`). Firebase stores no null and no empty object, so a place without data reads as
`Any.null`.
-/

namespace RLFinder

abbrev Tree := KeyTree String Leaf

abbrev Path := List String

abbrev Database := Store String Leaf

/-! ## References -/

/-- The keys of a slash-separated relative path. -/
def pathPieces (pathString : String) : Path :=
  ((pathString.toList.splitOn '/').filter (· ≠ [])).map String.ofList

def child (ref : Path) (pathString : String) : Path := ref ++ pathPieces pathString

def childByAutoId (ref : Path) (key : String) : Path := ref ++ [key]

/-- The number that a child key denotes when it is an array index. -/
def arrayIndex? (key : String) : Option Nat :=
  match key.toList with
  | [] => none
  | ['0'] => some 0
  | '0' :: _ => none
  | ds => if ds.all Char.isDigit then
      some (ds.foldl (fun n d => 10 * n + (d.toNat - '0'.toNat)) 0)
    else none

/-- What `childByAutoId` promises of its key: it is not in use at this place and is not an array
index. -/
structure IsAutoId (db : Database) (ref : Path) (key : String) : Prop where
  fresh : (db.get (childByAutoId ref key)).isNone
  nonempty : key ≠ ""
  notIndex : (arrayIndex? key).isNone

instance {db : Database} {ref : Path} {key : String} : Decidable (IsAutoId db ref key) :=
  decidable_of_iff ((db.get (childByAutoId ref key)).isNone ∧ key ≠ "" ∧ (arrayIndex? key).isNone)
    ⟨fun ⟨h1, h2, h3⟩ => ⟨h1, h2, h3⟩, fun ⟨h1, h2, h3⟩ => ⟨h1, h2, h3⟩⟩

/-! ## Writing -/

/-- A `setValue` call: the place and the value, which is never null in this app. -/
structure Write where
  path : Path
  value : Tree
  wellFormed : value.WellFormed

def Database.setValue (db : Database) (w : Write) : Database := db.set w.path w.value w.wellFormed

def Database.apply (db : Database) (ws : List Write) : Database := ws.foldl Database.setValue db

/-- A dictionary literal of strings, as `setValue` receives it. -/
def stringDictionary (fields : List (String × String)) : Tree :=
  .node (fields.map fun f => (f.1, .leaf (.string f.2)))

theorem stringDictionary_wellFormed {fields : List (String × String)} (hne : fields ≠ [])
    (hnd : (fields.map Prod.fst).Nodup) : (stringDictionary fields).WellFormed := by
  refine .node (by simpa using hne) (by simpa [Function.comp_def] using hnd) fun k t hmem => ?_
  obtain ⟨f, -, hf⟩ := List.mem_map.mp hmem
  cases hf
  exact .leaf

/-! ## Reading -/

/-- An object whose keys are all array indices, more than half of them in use, is presented as an
array. -/
def present (entries : List (String × Any)) : Any :=
  match entries.mapM fun e => (arrayIndex? e.1).map (·, e.2) with
  | none => .dictionary entries
  | some indexed =>
    let maxIndex := (indexed.map Prod.fst).foldl max 0
    if maxIndex < 2 * indexed.length then
      .array ((List.range (maxIndex + 1)).map fun i => (indexed.lookup i).getD .null)
    else .dictionary entries

mutual
/-- The native value of a subtree. -/
def nativeValue : Tree → Any
  | .leaf l => .leaf l
  | .node cs => present (nativeEntries cs)
def nativeEntries : List (String × Tree) → List (String × Any)
  | [] => []
  | (k, t) :: cs => (k, nativeValue t) :: nativeEntries cs
end

def snapshotValue : Option Tree → Any
  | none => .null
  | some t => nativeValue t

theorem nativeEntries_eq_map (cs : List (String × Tree)) :
    nativeEntries cs = cs.map fun c => (c.1, nativeValue c.2) := by
  induction cs with
  | nil => rfl
  | cons c cs ih => rw [nativeEntries, ih, List.map_cons]

/-- An object with a key that is not an array index is presented as a dictionary. -/
theorem present_eq_dictionary {entries : List (String × Any)} {e : String × Any}
    (hmem : e ∈ entries) (hkey : arrayIndex? e.1 = none) :
    present entries = .dictionary entries := by
  have hnone : (entries.mapM fun e => (arrayIndex? e.1).map (·, e.2)) = none := by
    induction entries with
    | nil => cases hmem
    | cons d entries ih =>
      rw [List.mapM_cons]
      rcases List.mem_cons.mp hmem with rfl | hmem
      · simp [hkey]
      · simp [ih hmem]
  rw [present, hnone]

theorem nativeValue_node {cs : List (String × Tree)} (hne : cs ≠ [])
    (hkeys : ∀ c ∈ cs, arrayIndex? c.1 = none) :
    nativeValue (.node cs) = .dictionary (cs.map fun c => (c.1, nativeValue c.2)) := by
  obtain ⟨c, cs', rfl⟩ := List.exists_cons_of_ne_nil hne
  rw [nativeValue, nativeEntries_eq_map]
  exact present_eq_dictionary (List.mem_map_of_mem (.head _)) (hkeys c (.head _))

theorem asStringDictionary?_nativeValue {fields : List (String × String)} (hne : fields ≠ [])
    (hkeys : ∀ f ∈ fields, arrayIndex? f.1 = none) :
    (nativeValue (stringDictionary fields)).asStringDictionary? = some fields := by
  rw [stringDictionary, nativeValue_node (by simpa using hne), Any.asStringDictionary?]
  · rw [List.map_map]
    have hcast : ∀ f ∈ fields, (nativeValue (.leaf (.string f.2))).asString? = some (id f.2) :=
      fun _ _ => rfl
    simpa [Function.comp_def] using
      Any.castValues_map fields (fun s => nativeValue (.leaf (.string s))) id hcast
  · intro c hc
    obtain ⟨f, hf, rfl⟩ := List.mem_map.mp hc
    exact hkeys f hf

end RLFinder
