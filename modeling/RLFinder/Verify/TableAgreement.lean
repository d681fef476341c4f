import RLFinder.Verify.PartnerPostsLemmas

/-!
# The table and its data source

The table remembers row counts; the data source recomputes them from the lists and the collapsed
flags. Only `readDatabase` changes the lists without telling the table, so the two agree throughout
a run exactly when no section shows a post at the moment a read is issued
(`agrees_throughout_iff`). What survives every run is weaker (`Settled`): the counts agree, or all
lists are empty. It is enough for the updates that `expandPosts` issues to be valid.
-/

namespace RLFinder
namespace PostsScreen

variable {s s' : PostsScreen} {e : PostsEvent} {es : List PostsEvent} {i : Fin 7}

/-- The remembered count of every section is what `numberOfRowsInSection` returns now. -/
def Agrees (s : PostsScreen) : Prop := s.controller.postsTable.rowCounts = s.controller.rows

/-- Every cell the table may ask for exists. -/
def CellsInRange (s : PostsScreen) : Prop :=
  ∀ i row, row < s.controller.postsTable.rowCounts i →
    ∃ text, s.controller.cellForRowAt ⟨row, i⟩ = .ok text

/-- Each section is collapsed or its tier has no posts. -/
def ShowsNothing (s : PostsScreen) : Prop :=
  ∀ i, s.controller.isHidden i = true ∨ s.controller.posts i = []

theorem showsNothing_iff : s.ShowsNothing ↔ ∀ i, s.controller.rows i = 0 := by
  refine forall_congr' fun i => ?_
  rw [PartnerPostsController.rows_eq]
  cases s.controller.isHidden i <;> simp

theorem Agrees.cellsInRange (h : s.Agrees) : s.CellsInRange := by
  intro i row hrow
  have hlt : row < (s.controller.posts i).length := by
    have hle := s.controller.rows_le_length_posts (t := i)
    rw [h] at hrow
    omega
  refine ⟨(s.controller.posts i)[row], ?_⟩
  have hget : (s.controller.selectedPostArray i)[row]? = some (s.controller.posts i)[row] :=
    List.getElem?_eq_getElem hlt
  rw [PartnerPostsController.cellForRowAt, hget]

theorem start_agrees : start.Agrees := by
  funext i
  rw [PartnerPostsController.rows_eq]
  rfl

/-! ## What one event does to the agreement -/

theorem rows_issue {c : PartnerPostsController} :
    (s.issue c.readDatabase).controller.rows i = 0 := by
  have hnil : (s.issue c.readDatabase).controller.posts i = [] :=
    PartnerPostsController.posts_clearPosts
  rw [PartnerPostsController.rows_eq, hnil]
  simp

/-- After a tap the counts agree again, unless the tier is empty and only its flag has changed. -/
theorem tap_rowCounts {c c' : PartnerPostsController} (h : c.expandPosts i = .ok c') :
    c'.postsTable.rowCounts = c'.rows ∨
      (c'.postsTable.rowCounts = c.postsTable.rowCounts ∧ c'.rows = c.rows) := by
  rcases PartnerPostsController.expandPosts_cases h with ⟨hnil, rfl⟩ | ⟨-, u, -, -, rfl⟩
  · refine .inr ⟨rfl, ?_⟩
    funext t
    rw [PartnerPostsController.rows_toggle]
    split
    · rename_i ht
      subst ht
      rw [PartnerPostsController.rows_eq, hnil]
      simp
    · rfl
  · exact .inl rfl

/-- Every event but the issue of a read keeps the agreement. -/
theorem Effect.agrees (h : Effect s e s') (hs : s.Agrees) (he : e.issuesRead = false) :
    s'.Agrees := by
  cases h with
  | issue hissue => simp [hissue] at he
  | callback _ hc =>
    rcases PartnerPostsController.readCallback_table hc with ⟨htable, hrows, -⟩ | hagree
    · exact (congrArg _ htable).trans (hs.trans hrows.symm)
    · exact hagree
  | tap hc =>
    rcases tap_rowCounts hc with hagree | ⟨hcounts, hrows⟩
    · exact hagree
    · exact hcounts.trans (hs.trans hrows.symm)
  | cell => exact hs
  | reappear => exact hs

/-- An issue of a read empties the data source and leaves the remembered counts alone. -/
theorem Effect.agrees_issue_iff (h : Effect s e s') (hs : s.Agrees) (he : e.issuesRead = true) :
    s'.Agrees ↔ s.ShowsNothing := by
  cases h with
  | @issue _ c _ htable =>
    have hcounts : (s.issue c.readDatabase).controller.postsTable.rowCounts =
        s.controller.rows := (congrArg UITableView.rowCounts htable).trans hs
    rw [Agrees, hcounts, showsNothing_iff, funext_iff]
    exact forall_congr' fun i => by rw [rows_issue]
  | callback | tap | cell | reappear => simp [PostsEvent.issuesRead] at he

/-! ## Agreement over whole runs -/

/-- The table and its data source agree, and every cell the table may ask for exists, throughout a
run if and only if no section shows a post whenever a read is issued. -/
theorem agrees_throughout_iff (hrun : postsMachine.Run start es s) :
    postsMachine.Throughout start es (fun s => s.Agrees ∧ s.CellsInRange) ↔
      postsMachine.StepsMeet start es fun s e => e.issuesRead = true → s.ShowsNothing := by
  refine hrun.throughout_iff_stepsMeet ⟨start_agrees, start_agrees.cellsInRange⟩ ?_ ?_
  · intro s e s' ⟨hs, _⟩ hguard hstep
    have heffect := effect_of_steps hstep
    have hs' : s'.Agrees := by
      cases he : e.issuesRead with
      | false => exact heffect.agrees hs he
      | true => exact (heffect.agrees_issue_iff hs he).mpr (hguard he)
    exact ⟨hs', hs'.cellsInRange⟩
  · intro s e s' ⟨hs, _⟩ hguard hstep ⟨hs', _⟩
    obtain ⟨he, hshows⟩ := Classical.not_imp.mp hguard
    exact hshows (((effect_of_steps hstep).agrees_issue_iff hs he).mp hs')

/-- One bronze post is read, its section is expanded, and the screen appears again. -/
def reappearing : List PostsEvent :=
  [.viewDidAppear, .readCallback 0 bronzeRead, .headerTap 0, .viewDidAppear]

theorem agrees_throughout_iff_reappearing :
    postsMachine.Throughout start reappearing (fun s => s.Agrees ∧ s.CellsInRange) ↔
      postsMachine.StepsMeet start reappearing fun s e => e.issuesRead = true → s.ShowsNothing :=
  agrees_throughout_iff (.of_replay rfl)

/-- The read issued on reappearing clears the list of the expanded section: the table still
remembers its row, the data source has none, and asking for the cell traps. -/
theorem disagrees_after_reappearing :
    ∃ s, postsMachine.Run start reappearing s ∧
      s.controller.postsTable.rowCounts 0 = 1 ∧ s.controller.rows 0 = 0 ∧
      postsMachine.enabled s (.cellForRow 0 0) ∧
      postsMachine.step s (.cellForRow 0 0) = .error .indexOutOfRange :=
  ⟨_, .of_replay rfl, rfl, rfl, Nat.zero_lt_one, rfl⟩

/-! ## The updates of a tap -/

/-- The lists are all empty, or the remembered counts are right. -/
def Settled (s : PostsScreen) : Prop := (∀ i, s.controller.posts i = []) ∨ s.Agrees

theorem Effect.settled (h : Effect s e s') (hs : s.Settled) : s'.Settled := by
  cases h with
  | issue => exact .inl fun _ => PartnerPostsController.posts_clearPosts
  | callback _ hc =>
    rcases PartnerPostsController.readCallback_table hc with ⟨htable, hrows, hposts⟩ | hagree
    · refine hs.imp (fun hnil i => (hposts i).trans (hnil i)) fun hagree => ?_
      exact (congrArg _ htable).trans (hagree.trans hrows.symm)
    · exact .inr hagree
  | @tap i c' hc =>
    rcases hs with hnil | hagree
    · rcases PartnerPostsController.expandPosts_cases hc with ⟨-, rfl⟩ | ⟨-, u, hu, -, -⟩
      · exact .inl fun t => PartnerPostsController.posts_toggle.trans (hnil t)
      · rw [PartnerPostsController.expandUpdate_toggle, if_pos (hnil i)] at hu
        cases hu
    · refine .inr ?_
      rcases tap_rowCounts hc with hagree' | ⟨hcounts, hrows⟩
      · exact hagree'
      · exact hcounts.trans (hagree.trans hrows.symm)
  | cell => exact hs
  | reappear => exact hs

theorem settled_of_run (hrun : postsMachine.Run start es s) : s.Settled :=
  hrun.invariant (.inr start_agrees) fun _ _ _ hs hstep => (effect_of_steps hstep).settled hs

/-- In a settled state the update of a tap adds up in all seven sections: the tapped one gains or
loses all its rows, the others keep theirs. -/
theorem Settled.valid (hs : s.Settled) {u : TableUpdate}
    (hu : (s.controller.toggle i).expandUpdate i = some u) :
    u.Valid s.controller.postsTable (s.controller.toggle i).rows := by
  rw [PartnerPostsController.expandUpdate_toggle] at hu
  split at hu
  · cases hu
  rename_i hne
  have hagree : s.Agrees := hs.resolve_left fun hnil => hne (hnil i)
  split at hu
  · rename_i hhidden
    cases hu
    intro t
    rw [hagree, PartnerPostsController.rowsIn_insertRows, PartnerPostsController.rows_toggle]
    split
    · rename_i ht
      subst ht
      rw [PartnerPostsController.rows_eq]
      simp [hhidden]
    · rw [Nat.add_zero]
  · rename_i hshown
    cases hu
    intro t
    rw [hagree, PartnerPostsController.rowsIn_deleteRows, PartnerPostsController.rows_toggle]
    split
    · rename_i ht
      subst ht
      rw [PartnerPostsController.rows_eq]
      simp [hshown]
    · rw [Nat.add_zero]

/-- In every reachable state a tap on any section goes through: it flips the flag of an empty section
and otherwise performs its update and turns the caret. That update is valid for all seven sections,
and its index paths are the rows of the tapped section, each once. -/
theorem expandPosts_update_valid (hrun : postsMachine.Run start es s) (i : Fin 7) :
    (∃ c', s.controller.expandPosts i = .ok c' ∧
      (s.controller.posts i = [] ∧ c' = s.controller.toggle i ∨
        ∃ u c₁, (s.controller.toggle i).expandUpdate i = some u ∧
          (s.controller.toggle i).perform u = .ok c₁ ∧
          c' = c₁.setCaret i (if s.controller.isHidden i then .angleUp else .angleDown))) ∧
    ∀ u, (s.controller.toggle i).expandUpdate i = some u →
      u.Valid s.controller.postsTable (s.controller.toggle i).rows ∧
      u.indexPaths = (List.range (s.controller.posts i).length).map (⟨·, i⟩) := by
  have hsettled := settled_of_run hrun
  constructor
  · obtain ⟨c', hok⟩ := PartnerPostsController.expandPosts_of_valid (s := i)
      fun u hu => hsettled.valid hu
    refine ⟨c', hok, ?_⟩
    rcases PartnerPostsController.expandPosts_cases hok with ⟨hnil, heq⟩ | ⟨-, u, hu, hvalid, heq⟩
    · exact .inl ⟨hnil, heq⟩
    · exact .inr ⟨u, _, hu, PartnerPostsController.perform_of_valid hvalid, heq⟩
  · intro u hu
    refine ⟨hsettled.valid hu, ?_⟩
    rw [PartnerPostsController.expandUpdate_toggle] at hu
    split at hu
    · cases hu
    · split at hu <;> cases hu <;> rfl

/-- One post is read and the bronze section expanded: the tap inserts its row. -/
theorem expandPosts_update_valid_bronze :
    ∃ s, postsMachine.Run start [.viewDidAppear, .readCallback 0 bronzeRead] s ∧
      (∃ c', s.controller.expandPosts 0 = .ok c') ∧
      (s.controller.toggle 0).expandUpdate 0 = some (.insertRows [⟨0, 0⟩]) ∧
      (TableUpdate.insertRows [⟨0, 0⟩]).Valid s.controller.postsTable
        (s.controller.toggle 0).rows :=
  have hrun := Machine.Run.of_replay rfl
  have ⟨⟨c', hok, _⟩, hvalid⟩ := expandPosts_update_valid hrun 0
  ⟨_, hrun, ⟨c', hok⟩, rfl, (hvalid _ rfl).1⟩

end PostsScreen
end RLFinder
