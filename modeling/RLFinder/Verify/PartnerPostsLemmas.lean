import RLFinder.PartnerPosts
import Mathlib.Tactic.FinCases

/-!
# What each method of the posts board does

One specification for each method of `PartnerPostsController`, in terms of the list of one tier
(`posts`): clearing, recording a post, the value callback (`readCallback_posts`,
`readCallback_table`), and the toggle with the table update it issues (`expandPosts_cases`). Later
modules cite these and do not unfold the methods.
-/

namespace RLFinder

/-- The rank key whose posts the reader files under a section. -/
def tierKey (t : Fin 7) : String :=
  #v["bronzePosts", "silverPosts", "goldPosts", "platinumPosts", "diamondPosts", "championPosts",
    "grandChampionPosts"][t]

theorem tierKey_injective : Function.Injective tierKey := by decide

namespace PartnerPostsController

variable {c c' : PartnerPostsController} {t s : Fin 7} {postRank body : String}

/-- The list shown in a section. -/
def posts (c : PartnerPostsController) (t : Fin 7) : List String := c.selectedPostArray t

theorem rows_eq : c.rows t = if c.isHidden t then 0 else (c.posts t).length := by
  fin_cases t <;> rfl

theorem rows_le_length_posts : c.rows t ≤ (c.posts t).length := by
  rw [rows_eq]
  split
  · exact Nat.zero_le _
  · exact Nat.le_refl _

@[simp] theorem posts_clearPosts : c.clearPosts.posts t = [] := by
  fin_cases t <;> rfl

/-! ## Recording posts -/

/-- The parts of the controller that recording a post leaves alone. -/
structure Untouched (c c' : PartnerPostsController) : Prop where
  system : c'.currentSelectedSystem = c.currentSelectedSystem
  gameType : c'.currentSelectedGameType = c.currentSelectedGameType
  isHidden : c'.isHidden = c.isHidden
  postsTable : c'.postsTable = c.postsTable

theorem Untouched.refl : Untouched c c := ⟨rfl, rfl, rfl, rfl⟩

theorem Untouched.trans {c'' : PartnerPostsController} (h₁ : Untouched c c')
    (h₂ : Untouched c' c'') : Untouched c c'' :=
  ⟨h₂.1.trans h₁.1, h₂.2.trans h₁.2, h₂.3.trans h₁.3, h₂.4.trans h₁.4⟩

theorem recordPost_tierKey :
    (c.recordPost (tierKey s) body).posts t = c.posts t ++ if s = t then [body] else [] := by
  fin_cases s <;> fin_cases t <;> simp [recordPost, posts, selectedPostArray, tierKey]

theorem recordPost_unknown (h : ∀ s, postRank ≠ tierKey s) :
    c.recordPost postRank body =
      { c with console := c.console ++ ["Post type was not recorded correctly in Firebase"] } := by
  unfold recordPost
  split
  · exact absurd rfl (h 0)
  · exact absurd rfl (h 1)
  · exact absurd rfl (h 2)
  · exact absurd rfl (h 3)
  · exact absurd rfl (h 4)
  · exact absurd rfl (h 5)
  · exact absurd rfl (h 6)
  · rfl

theorem recordPost_untouched : Untouched c (c.recordPost postRank body) := by
  unfold recordPost
  split <;> exact ⟨rfl, rfl, rfl, rfl⟩

theorem recordPost_posts :
    (c.recordPost postRank body).posts t =
      c.posts t ++ if postRank = tierKey t then [body] else [] := by
  by_cases h : ∃ s, postRank = tierKey s
  · obtain ⟨s, rfl⟩ := h
    simp only [recordPost_tierKey, tierKey_injective.eq_iff]
  · have h : ∀ s, postRank ≠ tierKey s := fun s hs => h ⟨s, hs⟩
    rw [recordPost_unknown h, if_neg (h t), List.append_nil]
    rfl

theorem recordPost_console (h : postRank = tierKey s) :
    (c.recordPost postRank body).console = c.console := by
  subst h
  fin_cases s <;> rfl

end PartnerPostsController

/-! ## The value callback -/

/-- The native value of a board: the posts, as dictionaries of strings, under each rank key. -/
def boardValue (ranks : List (String × List (String × List (String × String)))) : Any :=
  .dictionary <| ranks.map fun rank => (rank.1, .dictionary <| rank.2.map fun post =>
    (post.1, .dictionary <| post.2.map fun field => (field.1, .leaf (.string field.2))))

/-- A board with one bronze post. -/
def bronzeBoard : Any := boardValue [("bronzePosts", [("-K1", [("postBody", "LF 2s")])])]

def bronzeRead : ReadResult := .value .listed bronzeBoard

/-- The posts that one entry of a snapshot files under a rank key, in the order they are visited. -/
def rankPosts (order : IterationOrder Any (List (String × String))) (entry : String × Any)
    (key : String) : List String :=
  if entry.1 = key then
    (order.inner entry.1 (entry.2.asPosts?.getD [])).map PartnerPostsController.postText
  else []

/-- The posts that a read delivers for a rank key, in the order they are visited. -/
def ReadResult.posts (key : String) : ReadResult → List String
  | .error _ => []
  | .value order snapshot =>
    (order.outer (snapshot.asDictionary?.getD [])).flatMap fun entry => rankPosts order entry key

/-- The posts that a snapshot holds under a rank key, in the order they are listed. -/
def Any.posts (key : String) (snapshot : Any) : List String :=
  (snapshot.asDictionary?.getD []).flatMap fun entry =>
    if entry.1 = key then (entry.2.asPosts?.getD []).map PartnerPostsController.postText else []

/-- The order of a loop changes only the order of the posts. -/
theorem ReadResult.posts_perm {order : IterationOrder Any (List (String × String))} {snapshot : Any}
    {key : String} : ((ReadResult.value order snapshot).posts key).Perm (snapshot.posts key) := by
  refine (List.Perm.flatMap_right _ (order.outer_perm _)).trans (List.Perm.flatMap_left _ ?_)
  intro entry _
  rw [rankPosts]
  split
  · exact (order.inner_perm _ _).map _
  · exact .refl _

namespace PartnerPostsController

variable {c c' : PartnerPostsController} {t s : Fin 7} {entry : String × Any}
  {order : IterationOrder Any (List (String × String))} {entries : List (String × Any)}

theorem recordAll_posts {postRank : String} {posts : List (String × List (String × String))} :
    (posts.foldl (fun c post => c.recordPost postRank (postText post)) c).posts t =
      c.posts t ++ if postRank = tierKey t then posts.map postText else [] := by
  induction posts generalizing c with
  | nil => simp
  | cons post posts ih =>
    rw [List.foldl_cons, ih, recordPost_posts]
    split <;> simp

theorem recordAll_untouched {postRank : String} {posts : List (String × List (String × String))} :
    Untouched c (posts.foldl (fun c post => c.recordPost postRank (postText post)) c) := by
  induction posts generalizing c with
  | nil => exact .refl
  | cons post posts ih => exact recordPost_untouched.trans ih

theorem recordAll_console {posts : List (String × List (String × String))} :
    (posts.foldl (fun c post => c.recordPost (tierKey s) (postText post)) c).console =
      c.console := by
  induction posts generalizing c with
  | nil => rfl
  | cons post posts ih => rw [List.foldl_cons, ih, recordPost_console rfl]

theorem recordRank_ok (h : recordRank order c entry = .ok c') :
    Untouched c c' ∧ ∀ t, c'.posts t = c.posts t ++ rankPosts order entry (tierKey t) := by
  unfold recordRank at h
  split at h
  · cases h
  · rename_i posts hposts
    cases h
    refine ⟨recordAll_untouched, fun t => ?_⟩
    rw [recordAll_posts, rankPosts, hposts]
    rfl

theorem recordRanks_ok (h : entries.foldlM (recordRank order) c = .ok c') :
    Untouched c c' ∧
      ∀ t, c'.posts t = c.posts t ++ entries.flatMap fun e => rankPosts order e (tierKey t) := by
  induction entries generalizing c with
  | nil =>
    cases h
    exact ⟨.refl, fun t => by simp⟩
  | cons e entries ih =>
    rw [List.foldlM_cons] at h
    obtain ⟨c₁, hc, h⟩ := Except.of_bind_eq_ok h
    obtain ⟨hu, hp⟩ := recordRank_ok hc
    obtain ⟨hu', hp'⟩ := ih h
    refine ⟨hu.trans hu', fun t => ?_⟩
    rw [hp', hp, List.flatMap_cons, List.append_assoc]

/-- The loops go through when every cast succeeds. -/
theorem recordRanks_total (h : ∀ e ∈ entries, ∃ posts, e.2.asPosts? = some posts) :
    ∃ c', entries.foldlM (recordRank order) c = .ok c' := by
  induction entries generalizing c with
  | nil => exact ⟨c, rfl⟩
  | cons e entries ih =>
    obtain ⟨posts, hposts⟩ := h e (.head _)
    rw [List.foldlM_cons, recordRank, hposts]
    exact ih fun e he => h e (.tail _ he)

/-- Nothing is printed for keys the reader knows. -/
theorem recordRanks_console (hkeys : ∀ e ∈ entries, ∃ t, e.1 = tierKey t)
    (h : entries.foldlM (recordRank order) c = .ok c') : c'.console = c.console := by
  induction entries generalizing c with
  | nil =>
    cases h
    rfl
  | cons e entries ih =>
    rw [List.foldlM_cons] at h
    obtain ⟨c₁, hc, h⟩ := Except.of_bind_eq_ok h
    obtain ⟨t, ht⟩ := hkeys e (.head _)
    rw [ih (fun e he => hkeys e (.tail _ he)) h]
    unfold recordRank at hc
    split at hc <;> cases hc
    rw [ht]
    exact recordAll_console

/-- The callback goes through when the value is a dictionary of dictionaries of strings. -/
theorem readCallback_dictionary {value : Any} {entries : List (String × Any)}
    (hvalue : value.asDictionary? = some entries)
    (h : ∀ e ∈ entries, ∃ posts, e.2.asPosts? = some posts) :
    ∃ c', c.readCallback (.value order value) = .ok c' := by
  obtain ⟨c', hc'⟩ : ∃ c', (order.outer entries).foldlM (recordRank order) c = .ok c' :=
    recordRanks_total fun e he => h e ((order.outer_perm entries).mem_iff.mp he)
  refine ⟨c'.reloadSections, ?_⟩
  simp only [readCallback, hvalue, hc']
  rfl

/-- The ways a callback can return: an error, a value that is no dictionary, or the posts of the
value recorded and every section reloaded. -/
theorem readCallback_cases {result : ReadResult} (h : c.readCallback result = .ok c') :
    (∃ message, result = .error message ∧
      c' = { c with console := c.console ++ [message] }) ∨
    (∃ order value, result = .value order value ∧ value.asDictionary? = none ∧ c' = c) ∨
    (∃ order value entries c₁, result = .value order value ∧ value.asDictionary? = some entries ∧
      (order.outer entries).foldlM (recordRank order) c = .ok c₁ ∧ c' = c₁.reloadSections) := by
  cases result with
  | error message =>
    cases h
    exact .inl ⟨message, rfl, rfl⟩
  | value order value =>
    refine .inr ?_
    simp only [readCallback] at h
    split at h
    · rename_i hv
      cases h
      exact .inl ⟨order, value, rfl, hv, rfl⟩
    · rename_i entries hv
      obtain ⟨c₁, hc, h⟩ := Except.of_bind_eq_ok h
      cases h
      exact .inr ⟨order, value, entries, c₁, rfl, hv, hc, rfl⟩

/-- A callback appends the posts it delivers to each list and keeps what was there. -/
theorem readCallback_posts {result : ReadResult} (h : c.readCallback result = .ok c') :
    c'.posts t = c.posts t ++ result.posts (tierKey t) := by
  rcases readCallback_cases h with ⟨message, rfl, rfl⟩ | ⟨order, value, rfl, hv, rfl⟩ |
    ⟨order, value, entries, c₁, rfl, hv, hc, rfl⟩
  · exact (List.append_nil _).symm
  · have hnil : order.outer [] = [] := List.perm_nil.mp (order.outer_perm [])
    simp [ReadResult.posts, hv, hnil]
  · rw [ReadResult.posts, hv]
    exact (recordRanks_ok hc).2 t

theorem readCallback_console {value : Any} {entries : List (String × Any)}
    (hvalue : value.asDictionary? = some entries) (hkeys : ∀ e ∈ entries, ∃ t, e.1 = tierKey t)
    (h : c.readCallback (.value order value) = .ok c') : c'.console = c.console := by
  rcases readCallback_cases h with ⟨message, hresult, -⟩ | ⟨_, _, -, -, rfl⟩ |
    ⟨order', value', entries', c₁, hresult, hvalue', hc, rfl⟩
  · cases hresult
  · rfl
  · cases hresult
    cases hvalue.symm.trans hvalue'
    have hconsole : c₁.console = c.console :=
      recordRanks_console (fun e he => hkeys e ((order.outer_perm entries).mem_iff.mp he)) hc
    exact hconsole

/-- A callback keeps the selection and the collapsed flags. -/
theorem readCallback_untouched {result : ReadResult} (h : c.readCallback result = .ok c') :
    c'.currentSelectedSystem = c.currentSelectedSystem ∧
      c'.currentSelectedGameType = c.currentSelectedGameType ∧ c'.isHidden = c.isHidden := by
  rcases readCallback_cases h with ⟨message, rfl, rfl⟩ | ⟨order, value, rfl, hv, rfl⟩ |
    ⟨order, value, entries, c₁, rfl, hv, hc, rfl⟩
  · exact ⟨rfl, rfl, rfl⟩
  · exact ⟨rfl, rfl, rfl⟩
  · obtain ⟨hu, -⟩ := recordRanks_ok hc
    exact ⟨hu.system, hu.gameType, hu.isHidden⟩

/-- A callback either leaves the table and the lists alone or reloads every section. -/
theorem readCallback_table {result : ReadResult} (h : c.readCallback result = .ok c') :
    (c'.postsTable = c.postsTable ∧ c'.rows = c.rows ∧ ∀ t, c'.posts t = c.posts t) ∨
      c'.postsTable.rowCounts = c'.rows := by
  rcases readCallback_cases h with ⟨message, rfl, rfl⟩ | ⟨order, value, rfl, hv, rfl⟩ |
    ⟨order, value, entries, c₁, rfl, hv, hc, rfl⟩
  · exact .inl ⟨rfl, rfl, fun _ => rfl⟩
  · exact .inl ⟨rfl, rfl, fun _ => rfl⟩
  · exact .inr rfl

/-! ## Expanding and collapsing -/

@[simp] theorem posts_toggle : (c.toggle s).posts t = c.posts t := by
  fin_cases t <;> rfl

theorem isHidden_toggle_of_ne (h : t ≠ s) : (c.toggle s).isHidden t = c.isHidden t :=
  Function.update_of_ne h ..

@[simp] theorem isHidden_toggle_self : (c.toggle s).isHidden s = !c.isHidden s :=
  Function.update_self ..

/-- The toggled section shows its rows if it was collapsed, the others keep theirs. -/
theorem rows_toggle : (c.toggle s).rows t =
    if t = s then (if c.isHidden s then (c.posts s).length else 0) else c.rows t := by
  split
  · rename_i h
    subst h
    rw [rows_eq, posts_toggle, isHidden_toggle_self]
    cases c.isHidden t <;> rfl
  · rename_i h
    rw [rows_eq, rows_eq, posts_toggle, isHidden_toggle_of_ne h]

/-- The index paths of the update are the rows of the tapped section. -/
def sectionRows (c : PartnerPostsController) (s : Fin 7) : List IndexPath :=
  (List.range (c.posts s).length).map fun i => { row := i, section_ := s }

theorem countP_sectionRows :
    ((c.sectionRows s).countP fun indexPath => indexPath.section_ = t.val) =
      if t = s then (c.posts s).length else 0 := by
  rw [sectionRows, List.countP_map]
  by_cases h : t = s
  · subst h
    simp [Function.comp_def]
  · have hne : ¬ s.val = t.val := fun hv => h (Fin.ext hv.symm)
    simp [Function.comp_def, hne, h]

theorem rowsIn_insertRows : (TableUpdate.insertRows (c.sectionRows s)).rowsIn t =
    if t = s then (c.posts s).length else 0 := countP_sectionRows

theorem rowsIn_deleteRows : (TableUpdate.deleteRows (c.sectionRows s)).rowsIn t =
    if t = s then (c.posts s).length else 0 := countP_sectionRows

/-- The update issued after a toggle: none for an empty tier, else all rows of the tapped section
are inserted when it is now expanded and deleted when it is now collapsed. -/
theorem expandUpdate_toggle :
    (c.toggle s).expandUpdate s =
      if c.posts s = [] then none
      else if c.isHidden s then some (.insertRows (c.sectionRows s))
      else some (.deleteRows (c.sectionRows s)) := by
  have hp : (c.toggle s).selectedPostArray s = c.posts s := posts_toggle
  unfold expandUpdate
  rw [hp, isHidden_toggle_self]
  by_cases h : c.posts s = []
  · simp [h]
  · cases hs : c.isHidden s <;> simp [h, sectionRows]

/-- The ways a tap can return: the flag of an empty tier flipped, or the flag flipped, a valid
update performed and the caret turned. -/
theorem expandPosts_cases (h : c.expandPosts s = .ok c') :
    (c.posts s = [] ∧ c' = c.toggle s) ∨
    (c.posts s ≠ [] ∧ ∃ u, (c.toggle s).expandUpdate s = some u ∧
      u.Valid c.postsTable (c.toggle s).rows ∧
      c' = ({ c.toggle s with postsTable := ⟨(c.toggle s).rows, c.postsTable.headers⟩ } :
        PartnerPostsController).setCaret s (if c.isHidden s then .angleUp else .angleDown)) := by
  simp only [expandPosts, expandUpdate_toggle] at h ⊢
  by_cases hnil : c.posts s = []
  · simp only [hnil, if_true] at h
    cases h
    exact .inl ⟨hnil, rfl⟩
  · refine .inr ⟨hnil, ?_⟩
    simp only [if_neg hnil] at h ⊢
    cases hs : c.isHidden s <;> simp only [hs, if_true, Bool.false_eq_true, if_false] at h ⊢
    all_goals
      unfold perform UITableView.perform at h
      split at h
      · rename_i hv
        cases h
        exact ⟨_, rfl, hv, rfl⟩
      · cases h

theorem perform_of_valid {u : TableUpdate} (h : u.Valid c.postsTable c.rows) :
    c.perform u = .ok { c with postsTable := { c.postsTable with rowCounts := c.rows } } := by
  rw [perform, UITableView.perform_of_valid h]
  rfl

/-- A tap whose update, if it issues one, is valid does not fault. -/
theorem expandPosts_of_valid
    (h : ∀ u, (c.toggle s).expandUpdate s = some u → u.Valid c.postsTable (c.toggle s).rows) :
    ∃ c', c.expandPosts s = .ok c' := by
  simp only [expandPosts]
  split
  · exact ⟨_, rfl⟩
  · rename_i hu
    rw [perform_of_valid (h _ hu)]
    exact ⟨_, rfl⟩
  · rename_i hu
    rw [perform_of_valid (h _ hu)]
    exact ⟨_, rfl⟩

end PartnerPostsController

/-! ## The selection -/

theorem DropDown.mem_systemOptions {system : String} :
    system ∈ systemDropDown.dropDownOptions ↔
      system = "PS4" ∨ system = "PC" ∨ system = "Xbox One" := by
  simp [dropDownOptions]

theorem DropDown.mem_gameTypeOptions {gameType : String} :
    gameType ∈ gameTypeDropDown.dropDownOptions ↔
      gameType = "Duel" ∨ gameType = "Doubles" ∨ gameType = "Standard" ∨
        gameType = "Solo Standard" := by
  simp [dropDownOptions]

namespace PartnerPostsController

/-- The selection is one that the drop-downs offer. -/
structure Offered (c : PartnerPostsController) : Prop where
  system : c.currentSelectedSystem ∈ DropDown.systemDropDown.dropDownOptions
  gameType : c.currentSelectedGameType ∈ DropDown.gameTypeDropDown.dropDownOptions

variable {c c' : PartnerPostsController}

theorem Offered.congr (h : c.Offered) (hs : c'.currentSelectedSystem = c.currentSelectedSystem)
    (hg : c'.currentSelectedGameType = c.currentSelectedGameType) : c'.Offered :=
  ⟨hs ▸ h.system, hg ▸ h.gameType⟩

theorem Offered.readSystem_mem (h : c.Offered) : c.readSystem ∈ ["ps4", "pc", "xboxOne"] := by
  unfold readSystem
  rcases DropDown.mem_systemOptions.mp h.system with hs | hs | hs <;> rw [hs] <;> decide

/-- An offered selection is read at a place of depth two. -/
theorem Offered.readPath_eq (h : c.Offered) : c.readPath = [c.readSystem, c.readGameType] := by
  have hgame := DropDown.mem_gameTypeOptions.mp h.gameType
  have hsystem := h.readSystem_mem
  simp only [List.mem_cons, List.not_mem_nil, or_false] at hsystem
  unfold readPath readGameType
  rcases hsystem with hs | hs | hs <;> rw [hs] <;>
    rcases hgame with hg | hg | hg | hg <;> rw [hg] <;> decide

end PartnerPostsController

/-! ## The screen -/

namespace PostsScreen

/-- What one event does to the screen. -/
inductive Effect (s : PostsScreen) : PostsEvent → PostsScreen → Prop
  /-- A read is issued, possibly with a new selection. -/
  | issue {c : PartnerPostsController} : e.issuesRead → c.postsTable = s.controller.postsTable →
      c.isHidden = s.controller.isHidden → (s.controller.Offered → c.Offered) →
      Effect s e (s.issue c.readDatabase)
  | callback : ticket ∈ s.outstanding → s.controller.readCallback result = .ok c' →
      Effect s (.readCallback ticket result)
        { s with controller := c', outstanding := s.outstanding.erase ticket }
  | tap : s.controller.expandPosts i = .ok c' → Effect s (.headerTap i) { s with controller := c' }
  | cell {i : Fin 7} : s.controller.cellForRowAt ⟨row, i⟩ = .ok text →
      Effect s (.cellForRow i row) s
  | reappear {i : Fin 7} : Effect s (.headerReappears i) { s with controller := { s.controller with
      postsTable := s.controller.postsTable.setHeader i
        (PartnerPostsController.viewForHeaderInSection i) } }

theorem effect_of_steps {s s' : PostsScreen} {e : PostsEvent} (h : postsMachine.Steps s e s') :
    Effect s e s' := by
  obtain ⟨hen, h⟩ := h
  cases e with
  | viewDidAppear =>
    cases h
    exact .issue rfl rfl rfl id
  | dropDownClicked button string =>
    cases h
    cases button with
    | systemDropDown => exact .issue rfl rfl rfl fun h => ⟨hen, h.gameType⟩
    | gameTypeDropDown => exact .issue rfl rfl rfl fun h => ⟨h.system, hen⟩
  | readCallback ticket result =>
    obtain ⟨c', hc, h⟩ := Except.of_bind_eq_ok h
    cases h
    exact .callback hen hc
  | headerTap i =>
    obtain ⟨c', hc, h⟩ := Except.of_bind_eq_ok h
    cases h
    exact .tap hc
  | cellForRow i row =>
    obtain ⟨text, hc, h⟩ := Except.of_bind_eq_ok h
    cases h
    exact .cell hc
  | headerReappears i =>
    cases h
    exact .reappear

variable {s s' : PostsScreen} {e : PostsEvent} {es : List PostsEvent}

theorem Effect.offered (h : Effect s e s') (hs : s.controller.Offered) : s'.controller.Offered := by
  cases h with
  | issue _ _ _ hoffered => exact (hoffered hs).congr rfl rfl
  | callback _ hc =>
    obtain ⟨hsystem, hgame, -⟩ := PartnerPostsController.readCallback_untouched hc
    exact hs.congr hsystem hgame
  | tap hc =>
    rcases PartnerPostsController.expandPosts_cases hc with ⟨-, rfl⟩ | ⟨-, u, -, -, rfl⟩ <;>
      exact hs.congr rfl rfl
  | cell => exact hs
  | reappear => exact hs.congr rfl rfl

theorem start_offered : start.controller.Offered := ⟨by decide, by decide⟩

theorem offered_of_run (hrun : postsMachine.Run start es s) : s.controller.Offered :=
  hrun.invariant start_offered fun _ _ _ hs hstep => (effect_of_steps hstep).offered hs

/-- Every read is issued for an offered selection. -/
theorem issued_offered_of_run (hrun : postsMachine.Run start es s) :
    ∀ path ∈ s.issued, ∃ c : PartnerPostsController, c.Offered ∧ path = c.readPath := by
  induction hrun with
  | nil =>
    intro path hpath
    cases hpath
  | snoc hrun hstep ih =>
    cases effect_of_steps hstep with
    | issue _ _ _ hoffered =>
      intro path hpath
      rcases List.mem_append.mp hpath with hpath | hpath
      · exact ih path hpath
      · cases List.mem_singleton.mp hpath
        exact ⟨_, hoffered (offered_of_run hrun), rfl⟩
    | callback | tap | cell | reappear => exact ih

end PostsScreen

end RLFinder
