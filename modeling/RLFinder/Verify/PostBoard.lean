import RLFinder.Theory.Trace
import RLFinder.Verify.BoardTree

/-!
# The post board

What the writer posts and the reader lists. The writer stores a post under the key of its segment,
the reader looks under the key of its selection, and the two agree for every system, tier and game
type but one: posts of the segment Singles are stored under `solo`, and Duel is read under `duel`
(`chosenGameType_eq_readGameType_iff`). So a read finds exactly the posts made for its selection
unless the selection is Duel and there are such posts (`read_eq_posted_iff`).
-/

namespace RLFinder

/-! ## The board as its users see it -/

/-- The game type of a segment, under the name the board's drop-down has for it. -/
def segmentGameType (segment : Fin 4) : String :=
  if gameTypeTitles.get segment = "Singles" then "Duel" else gameTypeTitles.get segment

/-- The bodies posted for a system, a game type and a tier, oldest first. -/
def postedFor (calls : List (NewPostController × String)) (system gameType : String)
    (tier : Fin 7) : List String :=
  (calls.filter fun call => call.1.currentSelectedSystem = system ∧
    segmentGameType call.1.gameTypeSegment = gameType ∧ call.1.rankSegment = tier).map
    fun call => String.ofList call.1.postBody.text

/-- The posts stored under the keys of a system, a game type and a tier, oldest first. -/
def storedAt (calls : List (NewPostController × String)) (system gameType : String)
    (tier : Fin 7) : List StoredPost :=
  (calls.filter fun call => call.1.postSystem = system ∧
    call.1.chosenGameType = gameType ∧ call.1.rankSegment = tier).map
    fun call => (call.2, call.1.fields)

variable {calls : List (NewPostController × String)} {call : NewPostController × String}
  {db : Database} {system gameType : String} {tier : Fin 7} {c : PartnerPostsController}

/-! ## What is stored -/

theorem storedAt_concat : storedAt (calls ++ [call]) system gameType =
    if call.1.postSystem = system ∧ call.1.chosenGameType = gameType then
      Function.update (storedAt calls system gameType) call.1.rankSegment
        (storedAt calls system gameType call.1.rankSegment ++ [(call.2, call.1.fields)])
    else storedAt calls system gameType := by
  funext tier
  rw [storedAt, List.map_filter_concat]
  simp only [decide_eq_true_eq]
  by_cases hboard : call.1.postSystem = system ∧ call.1.chosenGameType = gameType
  · rw [if_pos hboard]
    by_cases htier : call.1.rankSegment = tier
    · subst htier
      rw [if_pos ⟨hboard.1, hboard.2, rfl⟩, Function.update_self]
      rfl
    · rw [if_neg fun h => htier h.2.2, Function.update_of_ne (Ne.symm htier), List.append_nil]
      rfl
  · rw [if_neg hboard, if_neg fun h => hboard ⟨h.1, h.2.1⟩, List.append_nil]
    rfl

/-- Every board holds what the calls have stored under its keys. -/
theorem holds_of_run (hrun : postingMachine.Run .empty calls db) :
    Holds (db.get [system, gameType]) (storedAt calls system gameType) := by
  induction hrun with
  | nil =>
    rw [Store.get_empty]
    exact holds_none
  | @snoc calls db call db' _ hstep ih =>
    obtain ⟨⟨hsystem, hauto⟩, hok⟩ := hstep
    have hkey : IsAutoId db call.1.place call.2 := by
      have h := hauto _ NewPostController.postPost_eq
      rwa [NewPostController.dropLast_postWrite] at h
    have hdb : db' = db.setValue (call.1.postWrite call.2) := by
      simp only [postingMachine, NewPostController.postPost_eq] at hok
      exact (Except.ok.inj hok).symm
    rw [hdb, storedAt_concat]
    exact ih.postWrite hsystem hkey

theorem system_of_mem (hrun : postingMachine.Run .empty calls db) :
    ∀ call ∈ calls, call.1.currentSelectedSystem ∈ DropDown.systemDropDown.dropDownOptions := by
  induction hrun with
  | nil =>
    intro call hcall
    cases hcall
  | snoc _ hstep ih =>
    intro call hcall
    rcases List.mem_append.mp hcall with hcall | hcall
    · exact ih call hcall
    · cases List.mem_singleton.mp hcall
      exact hstep.1.1

/-! ## Where the reader looks -/

/-- The two copies of the system switch agree. -/
theorem postSystem_eq_readSystem_iff {p : NewPostController}
    (hp : p.currentSelectedSystem ∈ DropDown.systemDropDown.dropDownOptions) (hc : c.Offered) :
    p.postSystem = c.readSystem ↔ p.currentSelectedSystem = c.currentSelectedSystem := by
  have hs := DropDown.mem_systemOptions.mp hc.system
  unfold NewPostController.postSystem PartnerPostsController.readSystem
  rcases DropDown.mem_systemOptions.mp hp with hp | hp | hp <;> rcases hs with hs | hs | hs <;>
    rw [hp, hs] <;> decide

/-- The writer's table and the reader's rule agree on every game type but Duel. -/
theorem chosenGameType_eq_readGameType_iff {p : NewPostController} (hc : c.Offered) :
    p.chosenGameType = c.readGameType ↔ c.currentSelectedGameType ≠ "Duel" ∧
      segmentGameType p.gameTypeSegment = c.currentSelectedGameType := by
  unfold NewPostController.chosenGameType PartnerPostsController.readGameType
  generalize p.gameTypeSegment = segment
  rcases DropDown.mem_gameTypeOptions.mp hc.gameType with hg | hg | hg | hg <;> rw [hg] <;>
    revert segment <;> decide

theorem segmentGameType_eq_duel {segment : Fin 4} :
    segmentGameType segment = "Duel" ↔ gameTypeTitles.get segment = "Singles" := by
  revert segment
  decide

theorem postText_fields {p : NewPostController} {key : String} :
    PartnerPostsController.postText (key, p.fields) = String.ofList p.postBody.text := by
  simp [PartnerPostsController.postText, NewPostController.fields, NewPostController.postFields,
    List.lookup_cons]

/-- The bodies stored where the reader looks are those posted for its selection, or none at all. -/
theorem storedAt_read (hc : c.Offered)
    (hcalls : ∀ call ∈ calls,
      call.1.currentSelectedSystem ∈ DropDown.systemDropDown.dropDownOptions) :
    (storedAt calls c.readSystem c.readGameType tier).map PartnerPostsController.postText =
      if c.currentSelectedGameType = "Duel" then []
      else postedFor calls c.currentSelectedSystem c.currentSelectedGameType tier := by
  have hmatch : ∀ call ∈ calls,
      (call.1.postSystem = c.readSystem ∧ call.1.chosenGameType = c.readGameType ∧
        call.1.rankSegment = tier ↔
      c.currentSelectedGameType ≠ "Duel" ∧
        call.1.currentSelectedSystem = c.currentSelectedSystem ∧
        segmentGameType call.1.gameTypeSegment = c.currentSelectedGameType ∧
        call.1.rankSegment = tier) := by
    intro call hcall
    rw [postSystem_eq_readSystem_iff (hcalls call hcall) hc, chosenGameType_eq_readGameType_iff hc]
    tauto
  rw [storedAt, List.map_map]
  split
  · rename_i hduel
    have hnone : (calls.filter fun call => call.1.postSystem = c.readSystem ∧
        call.1.chosenGameType = c.readGameType ∧ call.1.rankSegment = tier) = [] := by
      refine List.filter_eq_nil_iff.mpr fun call hcall h => ?_
      exact ((hmatch call hcall).mp (of_decide_eq_true h)).1 hduel
    rw [hnone, List.map_nil]
  · rename_i hduel
    rw [postedFor, List.filter_congr fun call hcall => decide_eq_decide.mpr
      ((hmatch call hcall).trans (and_iff_right hduel))]
    exact List.map_congr_left fun _ _ => postText_fields

/-! ## Reading what was posted -/

/-- What one read of the database for the selection of a board leaves in its lists. -/
def readBoard (c : PartnerPostsController) (db : Database)
    (order : IterationOrder Any (List (String × String))) : Except Fault PartnerPostsController :=
  let (c, path) := c.readDatabase
  c.readCallback (.value order (snapshotValue (db.get path)))

/-- A read goes through and leaves in each list the bodies stored where it looks. -/
theorem readBoard_ok (hrun : postingMachine.Run .empty calls db) (hc : c.Offered)
    (order : IterationOrder Any (List (String × String))) :
    ∃ c', readBoard c db order = .ok c' ∧ ∀ tier, (c'.posts tier).Perm
      (if c.currentSelectedGameType = "Duel" then []
        else postedFor calls c.currentSelectedSystem c.currentSelectedGameType tier) := by
  have hholds : Holds (db.get [c.readSystem, c.readGameType])
      (storedAt calls c.readSystem c.readGameType) := holds_of_run hrun
  have hreads := hholds.readsAs (.get db.wellFormed)
  obtain ⟨c', hc', -, hposts⟩ := hreads.readCallback (c := c.clearPosts)
  refine ⟨c', ?_, fun tier => ?_⟩
  · simp only [readBoard, PartnerPostsController.readDatabase, hc.readPath_eq]
    exact hc'
  · have hperm := hposts tier
    rw [PartnerPostsController.posts_clearPosts, List.nil_append,
      storedAt_read hc (system_of_mem hrun)] at hperm
    exact hperm

/-- For every history of posts and every selection the drop-downs offer, one read goes through and
leaves in each of the seven lists exactly the bodies posted for that system, game type and tier, if
and only if the selection is not Duel or no post was made for its system under Singles. -/
theorem read_eq_posted_iff (hrun : postingMachine.Run .empty calls db) (hc : c.Offered)
    (order : IterationOrder Any (List (String × String))) :
    (∃ c', readBoard c db order = .ok c' ∧ ∀ tier, (c'.posts tier).Perm
      (postedFor calls c.currentSelectedSystem c.currentSelectedGameType tier)) ↔
    (c.currentSelectedGameType = "Duel" → ∀ call ∈ calls,
      call.1.currentSelectedSystem = c.currentSelectedSystem →
        gameTypeTitles.get call.1.gameTypeSegment ≠ "Singles") := by
  obtain ⟨c₁, hc₁, hposts⟩ := readBoard_ok hrun hc order
  constructor
  · rintro ⟨c', hc', hequal⟩ hduel call hcall hsystem hsingles
    cases hc₁.symm.trans hc'
    -- the read has found nothing, so nothing was posted for this selection
    have hnil : postedFor calls c.currentSelectedSystem c.currentSelectedGameType
        call.1.rankSegment = [] := by
      have hempty := hposts call.1.rankSegment
      rw [if_pos hduel] at hempty
      exact List.perm_nil.mp ((hequal _).symm.trans hempty)
    rw [postedFor, List.map_eq_nil_iff, List.filter_eq_nil_iff] at hnil
    refine hnil call hcall (decide_eq_true ⟨hsystem, ?_, rfl⟩)
    rw [hduel]
    exact segmentGameType_eq_duel.mpr hsingles
  · intro h
    refine ⟨c₁, hc₁, fun tier => ?_⟩
    have hperm := hposts tier
    split at hperm
    · rename_i hduel
      have hnil : postedFor calls c.currentSelectedSystem c.currentSelectedGameType tier = [] := by
        rw [postedFor, List.map_eq_nil_iff, List.filter_eq_nil_iff]
        intro call hcall hmatch
        obtain ⟨hsystem, hgame, -⟩ := of_decide_eq_true hmatch
        exact h hduel call hcall hsystem (segmentGameType_eq_duel.mp (hgame.trans hduel))
      rw [hnil]
      exact hperm
    · exact hperm

/-- A PS4 post for the bronze tier. -/
def bronzePost (gameTypeSegment : Fin 4) : NewPostController where
  currentSelectedSystem := "PS4"
  gameTypeSegment
  postBody := ⟨['L', 'F'], .white, ⟨2, 0⟩⟩

theorem run_bronzePost (segment : Fin 4) :
    postingMachine.Run .empty [(bronzePost segment, "-K1")]
      (Database.setValue .empty ((bronzePost segment).postWrite "-K1")) := by
  refine .single ⟨⟨.head _, fun write hwrite => ?_⟩, rfl⟩
  cases hwrite
  exact ⟨Option.isNone_iff_eq_none.mpr Store.get_empty, (by decide : "-K1" ≠ ""),
    (by decide : (arrayIndex? "-K1").isNone)⟩

theorem read_eq_posted_iff_doubles :
    ∃ c', readBoard { PartnerPostsController.loaded with currentSelectedGameType := "Doubles" }
        (Database.setValue .empty ((bronzePost 1).postWrite "-K1")) .listed = .ok c' ∧
      ∀ tier, (c'.posts tier).Perm (postedFor [(bronzePost 1, "-K1")] "PS4" "Doubles" tier) :=
  (read_eq_posted_iff (run_bronzePost 1) ⟨by decide, by decide⟩ .listed).mpr
    fun h => absurd h (by decide)

/-- A post made under Singles is not found under Duel. -/
theorem singles_not_read :
    postingMachine.Run .empty [(bronzePost 0, "-K1")]
      (Database.setValue .empty ((bronzePost 0).postWrite "-K1")) ∧
    postedFor [(bronzePost 0, "-K1")] "PS4" "Duel" 0 = ["LF"] ∧
    ∃ c', readBoard .loaded (Database.setValue .empty ((bronzePost 0).postWrite "-K1")) .listed =
      .ok c' ∧ c'.posts 0 = [] :=
  ⟨run_bronzePost 0, by decide, _, rfl, rfl⟩

end RLFinder
