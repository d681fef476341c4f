import RLFinder.User
import RLFinder.Verify.NewPostLemmas

/-!
# A board in the database

The subtree of one system and game type holds posts under rank keys (`Holds`). Writing a post under
a new id adds it to its rank (`Holds.set`). What Firebase delivers for such a subtree is null or a
dictionary the reader's cast accepts (`Holds.readsAs`), and the callback then records the posts, no
more and no fewer, and prints nothing (`ReadsAs.readCallback`).
-/

namespace RLFinder
open KeyTree

/-- A post as it is stored: its id and its fields. -/
abbrev StoredPost := String × List (String × String)

/-- Firebase presents the post as a dictionary of strings under its id. -/
structure Presentable (post : StoredPost) : Prop where
  id : arrayIndex? post.1 = none
  nonempty : post.2 ≠ []
  fields : ∀ field ∈ post.2, arrayIndex? field.1 = none

/-- The subtree under a rank key; without posts there is none. -/
def rankTree (posts : List StoredPost) : Option Tree :=
  if posts = [] then none
  else some (.node (posts.map fun post => (post.1, stringDictionary post.2)))

/-- The subtree holds exactly these posts under each rank key, and nothing else. -/
structure Holds (t : Option Tree) (posts : Fin 7 → List StoredPost) : Prop where
  notLeaf : ∀ l, t ≠ some (.leaf l)
  rank : ∀ r, get t [tierKey r] = rankTree (posts r)
  other : ∀ k, (∀ r, k ≠ tierKey r) → get t [k] = none
  presentable : ∀ r, ∀ post ∈ posts r, Presentable post

variable {t : Option Tree} {posts : Fin 7 → List StoredPost} {r : Fin 7} {key : String}
  {fields : List (String × String)}

/-! ## Writing a post -/

theorem children_rankTree {posts : List StoredPost} :
    children (rankTree posts) = posts.map fun post => (post.1, stringDictionary post.2) := by
  unfold rankTree
  split
  · rename_i hnil
    rw [hnil]
    rfl
  · rfl

theorem set_rankTree {posts : List StoredPost} (hfresh : get (rankTree posts) [key] = none) :
    some (KeyTree.set (rankTree posts) [key] (stringDictionary fields)) =
      rankTree (posts ++ [(key, fields)]) := by
  have hnone : (children (rankTree posts)).lookup key = none := hfresh
  rw [KeyTree.set, List.upsert_of_lookup_eq_none hnone, children_rankTree, KeyTree.set, rankTree,
    if_neg (by simp), List.map_append]
  rfl

theorem holds_none : Holds none fun _ => [] where
  notLeaf _ h := by cases h
  rank _ := rfl
  other _ _ := rfl
  presentable _ _ h := by cases h

/-- A post written under a new id joins its rank and leaves the others alone. -/
theorem Holds.set (h : Holds t posts) (hfresh : get t [tierKey r, key] = none)
    (hpost : Presentable (key, fields)) :
    Holds (some (KeyTree.set t [tierKey r, key] (stringDictionary fields)))
      (Function.update posts r (posts r ++ [(key, fields)])) where
  notLeaf l := by
    intro heq
    cases heq
  rank r' := by
    by_cases hr : r' = r
    · subst hr
      have hget : get (rankTree (posts r')) [key] = none := by
        rw [← h.rank r', ← get_append]
        exact hfresh
      have hset : get (some (KeyTree.set t ([tierKey r'] ++ [key]) (stringDictionary fields)))
          [tierKey r'] = some (KeyTree.set (get t [tierKey r']) [key] (stringDictionary fields)) :=
        get_set_above
      rw [Function.update_self, ← set_rankTree hget, ← h.rank r']
      exact hset
    · rw [Function.update_of_ne hr, ← h.rank r']
      exact get_set_of_outside (outside_cons_of_ne (tierKey_injective.ne (Ne.symm hr)))
  other k hk := by
    rw [← h.other k hk]
    exact get_set_of_outside (outside_cons_of_ne (Ne.symm (hk r)))
  presentable r' post hmem := by
    by_cases hr : r' = r
    · subst hr
      rw [Function.update_self] at hmem
      rcases List.mem_append.mp hmem with hmem | hmem
      · exact h.presentable r' post hmem
      · cases List.mem_singleton.mp hmem
        exact hpost
    · rw [Function.update_of_ne hr] at hmem
      exact h.presentable r' post hmem

/-! ## Writes to the database -/

section Database
variable {db : Database} {c : NewPostController} {system gameType : String}

theorem presentable_fields (hkey : arrayIndex? key = none) : Presentable (key, c.fields) where
  id := hkey
  nonempty := List.cons_ne_nil _ _
  fields := by
    intro field hmem
    simp only [NewPostController.fields, NewPostController.postFields, List.mem_cons,
      List.not_mem_nil, or_false] at hmem
    have hkeys : ∀ name ∈ ["gameType", "postBody", "username"], arrayIndex? name = none := by decide
    rcases hmem with rfl | rfl | rfl <;> exact hkeys _ (by simp)

/-- A post is added to the board and the rank it is posted for; the other boards are unchanged. -/
theorem Holds.postWrite (h : Holds (db.get [system, gameType]) posts)
    (hsystem : c.currentSelectedSystem ∈ DropDown.systemDropDown.dropDownOptions)
    (hkey : IsAutoId db c.place key) :
    Holds ((db.setValue (c.postWrite key)).get [system, gameType])
      (if c.postSystem = system ∧ c.chosenGameType = gameType then
        Function.update posts c.rankSegment (posts c.rankSegment ++ [(key, c.fields)])
      else posts) := by
  have hplace := NewPostController.place_eq hsystem
  have hfresh : db.get (c.place ++ [key]) = none := Option.isNone_iff_eq_none.mp hkey.fresh
  split
  · rename_i hboard
    obtain ⟨rfl, rfl⟩ := hboard
    have hsplit : c.place ++ [key] =
        [c.postSystem, c.chosenGameType] ++ [tierKey c.rankSegment, key] := by
      rw [hplace]
      rfl
    rw [hsplit] at hfresh
    have hget : (db.setValue (c.postWrite key)).get [c.postSystem, c.chosenGameType] =
        some (KeyTree.set (db.get [c.postSystem, c.chosenGameType])
          [tierKey c.rankSegment, key] (stringDictionary c.fields)) := by
      simp only [Database.setValue, NewPostController.postWrite, hsplit]
      exact Store.get_set_above _
    rw [hget]
    exact h.set (get_append.symm.trans hfresh)
      (presentable_fields (Option.isNone_iff_eq_none.mp hkey.notIndex))
  · rename_i hboard
    have houtside : Outside (c.place ++ [key]) [system, gameType] := by
      rw [hplace]
      refine outside_of_length_le (by simp) fun hpre => hboard ?_
      obtain ⟨hs, hpre⟩ := List.cons_prefix_cons.mp hpre
      exact ⟨hs.symm, (List.cons_prefix_cons.mp hpre).1.symm⟩
    have hget : (db.setValue (c.postWrite key)).get [system, gameType] =
        db.get [system, gameType] := Store.get_set_of_outside _ houtside
    rw [hget]
    exact h

/-- A sign-in does not touch the boards. -/
theorem get_setValue_usersWrite {uid : String} (hsystem : system ≠ "users") :
    (db.setValue (usersWrite uid)).get [system, gameType] = db.get [system, gameType] :=
  Store.get_set_of_outside .leaf (outside_cons_of_ne (Ne.symm hsystem))

end Database

/-! ## What a read delivers -/

/-- The native value of a subtree that holds the posts: a dictionary from the rank keys in use to
posts, or null. -/
inductive ReadsAs (posts : Fin 7 → List StoredPost) : Any → Prop
  | null : (∀ r, posts r = []) → ReadsAs posts .null
  | dictionary {entries : List (String × Any)} : (entries.map Prod.fst).Nodup →
      (∀ e ∈ entries, ∃ r, e.1 = tierKey r ∧ e.2.asPosts? = some (posts r)) →
      (∀ r, posts r ≠ [] → tierKey r ∈ entries.map Prod.fst) → ReadsAs posts (.dictionary entries)

theorem arrayIndex?_tierKey : arrayIndex? (tierKey r) = none := by
  revert r
  decide

theorem asPosts?_nativeValue {posts : List StoredPost} (hne : posts ≠ [])
    (h : ∀ post ∈ posts, Presentable post) :
    (nativeValue (.node (posts.map fun post => (post.1, stringDictionary post.2)))).asPosts? =
      some posts := by
  rw [nativeValue_node (by simpa using hne)]
  · have hcast := Any.castValues_map posts (fun fields => nativeValue (stringDictionary fields)) id
      fun post hpost =>
        asStringDictionary?_nativeValue (h post hpost).nonempty (h post hpost).fields
    simpa [Any.asPosts?, List.map_map, Function.comp_def] using hcast
  · intro c hc
    obtain ⟨post, hpost, rfl⟩ := List.mem_map.mp hc
    exact (h post hpost).id

/-- Each child of the subtree is the subtree of a rank in use. -/
theorem Holds.of_mem_children (h : Holds t posts) (hwf : ∀ t' ∈ t, WellFormed t') {k : String}
    {v : Tree} (hmem : (k, v) ∈ children t) :
    ∃ r, k = tierKey r ∧ posts r ≠ [] ∧
      v = .node ((posts r).map fun post => (post.1, stringDictionary post.2)) := by
  have hget : get t [k] = some v :=
    List.lookup_eq_some_of_mem (WellFormed.nodup_children hwf) hmem
  by_cases hk : ∃ r, k = tierKey r
  · obtain ⟨r, rfl⟩ := hk
    rw [h.rank r, rankTree] at hget
    split at hget
    · cases hget
    · rename_i hne
      cases hget
      exact ⟨r, rfl, hne, rfl⟩
  · rw [h.other k fun r hr => hk ⟨r, hr⟩] at hget
    cases hget

theorem Holds.readsAs (h : Holds t posts) (hwf : ∀ t' ∈ t, WellFormed t') :
    ReadsAs posts (snapshotValue t) := by
  match t, h, hwf with
  | none, h, _ =>
    refine .null fun r => ?_
    by_contra hne
    have hrank := h.rank r
    rw [rankTree, if_neg hne] at hrank
    cases hrank
  | some (.leaf l), h, _ => exact absurd rfl (h.notLeaf l)
  | some (.node cs), h, hwf =>
    have hchild : ∀ c ∈ cs, ∃ r, c.1 = tierKey r ∧ posts r ≠ [] ∧
        c.2 = .node ((posts r).map fun post => (post.1, stringDictionary post.2)) :=
      fun c hc => h.of_mem_children hwf hc
    have hne : cs ≠ [] := by
      cases hwf _ rfl with
      | node hne _ _ => exact hne
    rw [snapshotValue, nativeValue_node hne]
    · refine .dictionary ?_ ?_ ?_
      · rw [List.map_map]
        exact WellFormed.nodup_children hwf
      · intro e he
        obtain ⟨c, hc, rfl⟩ := List.mem_map.mp he
        obtain ⟨r, hkey, hposts, hvalue⟩ := hchild c hc
        refine ⟨r, hkey, ?_⟩
        simp only [hvalue]
        exact asPosts?_nativeValue hposts (h.presentable r)
      · intro r hposts
        have hrank := h.rank r
        rw [rankTree, if_neg hposts] at hrank
        have hmem := List.mem_of_lookup_eq_some (show cs.lookup (tierKey r) = some _ from hrank)
        exact List.mem_map.mpr ⟨_, List.mem_map.mpr ⟨_, hmem, rfl⟩, rfl⟩
    · intro c hc
      obtain ⟨r, hkey, -, -⟩ := hchild c hc
      rw [hkey]
      exact arrayIndex?_tierKey

/-! ## What the callback records -/

namespace ReadsAs

variable {snapshot : Any} {order : IterationOrder Any (List (String × String))}
  {c : PartnerPostsController}

/-- The posts of the snapshot under a rank key are those the board holds. -/
theorem posts_eq (h : ReadsAs posts snapshot) :
    snapshot.posts (tierKey r) = (posts r).map PartnerPostsController.postText := by
  cases h with
  | null hnil => rw [hnil r]; rfl
  | @dictionary entries hnodup hentries hkeys =>
    have hflat : (Any.dictionary entries).posts (tierKey r) =
        ((entries.lookup (tierKey r)).map fun value =>
          (value.asPosts?.getD []).map PartnerPostsController.postText).getD [] :=
      List.flatMap_key hnodup fun value =>
        (value.asPosts?.getD []).map PartnerPostsController.postText
    rw [hflat]
    cases hlookup : entries.lookup (tierKey r) with
    | none =>
      have hnil : posts r = [] := by
        by_contra hne
        obtain ⟨e, he, hkey⟩ := List.mem_map.mp (hkeys r hne)
        have hsome := List.lookup_eq_some_of_mem (k := e.1) (v := e.2) hnodup he
        rw [hkey, hlookup] at hsome
        cases hsome
      rw [hnil]
      rfl
    | some value =>
      obtain ⟨r', hkey, hposts⟩ := hentries _ (List.mem_of_lookup_eq_some hlookup)
      cases tierKey_injective hkey
      simp only at hposts
      rw [Option.map_some, Option.getD_some, hposts, Option.getD_some]

/-- The callback goes through, prints nothing, and adds the posts of each rank to its list. -/
theorem readCallback (h : ReadsAs posts snapshot) :
    ∃ c', c.readCallback (.value order snapshot) = .ok c' ∧ c'.console = c.console ∧
      ∀ r, (c'.posts r).Perm (c.posts r ++ (posts r).map PartnerPostsController.postText) := by
  have htotal : ∃ c', c.readCallback (.value order snapshot) = .ok c' ∧
      c'.console = c.console := by
    cases h with
    | null => exact ⟨c, rfl, rfl⟩
    | @dictionary entries _ hentries _ =>
      obtain ⟨c', hc'⟩ : ∃ c', c.readCallback (.value order (.dictionary entries)) = .ok c' := by
        refine PartnerPostsController.readCallback_dictionary rfl fun e he => ?_
        obtain ⟨r, -, hposts⟩ := hentries e he
        exact ⟨_, hposts⟩
      refine ⟨c', hc', PartnerPostsController.readCallback_console rfl (fun e he => ?_) hc'⟩
      obtain ⟨r, hkey, -⟩ := hentries e he
      exact ⟨r, hkey⟩
  obtain ⟨c', hc', hconsole⟩ := htotal
  refine ⟨c', hc', hconsole, fun r => ?_⟩
  rw [PartnerPostsController.readCallback_posts hc', ← h.posts_eq]
  exact ReadResult.posts_perm.append_left _

end ReadsAs

end RLFinder
