import Mathlib.Algebra.BigOperators.Group.Finset.Piecewise
import RLFinder.Verify.NewPostLemmas

/-!
# The snapshot decoder

The value callback turns a dictionary of dictionaries into seven lists. Each list gains one entry
for each post stored under the key of its rank, whatever the order in which the two dictionaries are
visited, and the section of that rank counts, shows and animates the rows of that list
(`readCallback_partitions`).
-/

namespace RLFinder
open PartnerPostsController (postText)

/-- A snapshot's value: rank keys, post ids and the fields of each post. -/
abbrev Board := List (String × List (String × List (String × String)))

namespace Board

/-- One entry for each post stored under a rank key: its body, or its id when it has none. -/
def bodies (board : Board) (key : String) : List String :=
  board.flatMap fun rank => if rank.1 = key then rank.2.map postText else []

/-- The number of posts stored under keys of the rank table. -/
def knownPosts (board : Board) : Nat :=
  (board.flatMap fun rank =>
    if ∃ i, (ranks.get i).postType = some rank.1 then rank.2 else []).length

variable {board : Board} {rank : String × List (String × List (String × String))} {key : String}

/-- The forced cast succeeds on the posts of a rank and changes nothing. -/
theorem asPosts?_posts (posts : List (String × List (String × String))) :
    (Any.dictionary (posts.map fun post => (post.1,
      .dictionary (post.2.map fun field => (field.1, .leaf (.string field.2)))))).asPosts? =
      some posts := by
  have hfields (fields : List (String × String)) :
      (Any.dictionary (fields.map fun field =>
        (field.1, .leaf (.string field.2)))).asStringDictionary? = some fields := by
    simpa [Any.asStringDictionary?] using
      Any.castValues_map fields (fun s => .leaf (.string s)) id fun _ _ => rfl
  simpa [Any.asPosts?] using Any.castValues_map posts
    (fun fields => .dictionary (fields.map fun field => (field.1, .leaf (.string field.2)))) id
    fun post _ => hfields post.2

theorem posts_boardValue : (boardValue board).posts key = board.bodies key := by
  rw [boardValue, Any.posts, Any.asDictionary?, Option.getD_some, List.flatMap_map, bodies]
  simp only [asPosts?_posts, Option.getD_some]

/-! ## Counting -/

/-- The posts of one rank are counted for its own key, if it is known, and for no other. -/
theorem sum_rank : ∑ i, (if rank.1 = tierKey i then rank.2.map postText else []).length =
    (if ∃ i, (ranks.get i).postType = some rank.1 then rank.2 else []).length := by
  simp only [NewPostController.postType_eq, Option.some.injEq]
  split
  · rename_i hknown
    obtain ⟨s, hs⟩ := hknown
    have hlength (i : Fin 7) : (if rank.1 = tierKey i then rank.2.map postText else []).length =
        if s = i then rank.2.length else 0 := by
      rw [← hs, apply_ite List.length, List.length_map, List.length_nil]
      simp only [tierKey_injective.eq_iff]
    simp only [hlength, Finset.sum_ite_eq, Finset.mem_univ, if_true]
  · rename_i hunknown
    refine Finset.sum_eq_zero fun i _ => ?_
    rw [if_neg fun h => hunknown ⟨i, h.symm⟩, List.length_nil]

theorem sum_bodies : ∑ i, (board.bodies (tierKey i)).length = board.knownPosts := by
  induction board with
  | nil => rfl
  | cons rank board ih =>
    simp only [bodies, knownPosts, List.flatMap_cons, List.length_append,
      Finset.sum_add_distrib] at ih ⊢
    rw [sum_rank, ih]

end Board

namespace PartnerPostsController

variable {c : PartnerPostsController} {board : Board} {i : Fin 7}

/-! ## Sections -/

/-- The section shows the list: its rows are counted from it, its cells hold its entries, and the
rows that `expandPosts` inserts or deletes are its rows. -/
structure SectionShows (c : PartnerPostsController) (i : Fin 7) (texts : List String) : Prop where
  array : c.selectedPostArray i = texts
  rows : c.numberOfRowsInSection i = if c.isHidden i then 0 else texts.length
  cell : ∀ row, c.cellForRowAt ⟨row, i⟩ =
    match texts[row]? with
    | some text => .ok text
    | none => .error .indexOutOfRange
  update : (c.toggle i).expandUpdate i =
    if texts = [] then none
    else
      let indexPaths := (List.range texts.length).map fun row => ⟨row, i⟩
      if c.isHidden i then some (.insertRows indexPaths) else some (.deleteRows indexPaths)

theorem sectionShows_posts : c.SectionShows i (c.posts i) where
  array := rfl
  rows := rows_eq
  cell _ := rfl
  update := expandUpdate_toggle

/-! ## The callback -/

/-- Every callback that delivers a board goes through and gives section `i` the list it had,
followed by the bodies of the rank, in the order they are visited. -/
theorem readCallback_boardValue (c : PartnerPostsController) (board : Board)
    (order : IterationOrder Any (List (String × String))) :
    ∃ c', c.readCallback (.value order (boardValue board)) = .ok c' ∧
      ∀ i, ∃ added, added.Perm (board.bodies (tierKey i)) ∧ c'.posts i = c.posts i ++ added := by
  obtain ⟨c', hc'⟩ : ∃ c', c.readCallback (.value order (boardValue board)) = .ok c' := by
    refine readCallback_dictionary rfl fun e he => ?_
    obtain ⟨rank, -, rfl⟩ := List.mem_map.mp he
    exact ⟨_, Board.asPosts?_posts rank.2⟩
  refine ⟨c', hc', fun i => ⟨_, ?_, readCallback_posts hc'⟩⟩
  rw [← Board.posts_boardValue]
  exact ReadResult.posts_perm

/-- For every board, every order in which its dictionaries are visited and every previous contents,
the callback goes through; the section of each rank of the rank table shows the list it had followed
by exactly one entry for each post stored under the key of the rank; the entries added to all lists
are as many as the posts under known keys; and any two orders give the same lists up to
permutation. -/
theorem readCallback_partitions (c : PartnerPostsController) (board : Board) :
    (∀ order, ∃ c', c.readCallback (.value order (boardValue board)) = .ok c' ∧
      (∀ i, ∃ key added, (ranks.get i).postType = some key ∧ added.Perm (board.bodies key) ∧
        c'.SectionShows i (c.posts i ++ added)) ∧
      ∑ i, (c'.posts i).length = ∑ i, (c.posts i).length + board.knownPosts) ∧
    ∀ order₁ order₂, ∃ c₁ c₂,
      c.readCallback (.value order₁ (boardValue board)) = .ok c₁ ∧
      c.readCallback (.value order₂ (boardValue board)) = .ok c₂ ∧
      ∀ i, (c₁.posts i).Perm (c₂.posts i) := by
  constructor
  · intro order
    obtain ⟨c', hc', hposts⟩ := readCallback_boardValue c board order
    refine ⟨c', hc', fun i => ?_, ?_⟩
    · obtain ⟨added, hperm, heq⟩ := hposts i
      exact ⟨_, added, NewPostController.postType_eq i, hperm, heq ▸ sectionShows_posts⟩
    · have hlength (i : Fin 7) : (c'.posts i).length =
          (c.posts i).length + (board.bodies (tierKey i)).length := by
        obtain ⟨added, hperm, heq⟩ := hposts i
        rw [heq, List.length_append, hperm.length_eq]
      simp only [hlength, Finset.sum_add_distrib, Board.sum_bodies]
  · intro order₁ order₂
    obtain ⟨c₁, hc₁, hposts₁⟩ := readCallback_boardValue c board order₁
    obtain ⟨c₂, hc₂, hposts₂⟩ := readCallback_boardValue c board order₂
    refine ⟨c₁, c₂, hc₁, hc₂, fun i => ?_⟩
    obtain ⟨added₁, hperm₁, heq₁⟩ := hposts₁ i
    obtain ⟨added₂, hperm₂, heq₂⟩ := hposts₂ i
    rw [heq₁, heq₂]
    exact (hperm₁.trans hperm₂.symm).append_left _

end PartnerPostsController
end RLFinder
