import RLFinder.Theory.Simulation
import RLFinder.Verify.Progress

/-!
# What is stored

The clients of a database only add to the boards: at the depth of a post the database holds exactly
what has been written in the run, each post at a place of its own and as it was written
(`stored_iff_written`), and every record names the game type and the rank it is filed under
(`record_of_stored`).
-/

namespace RLFinder
open KeyTree (Outside outside_of_ne outside_cons_of_ne)

/-- Where a post of an offered system may be stored. -/
def IsPostPlace (p : Path) : Prop :=
  ∃ system ∈ ["ps4", "pc", "xboxOne"], ∃ gameType rank id, p = [system, gameType, rank, id]

theorem outside_of_isPostPlace {p q : Path} (hp : IsPostPlace p) (hq : IsPostPlace q)
    (h : q ≠ p) : Outside p q := by
  obtain ⟨_, -, _, _, _, rfl⟩ := hp
  obtain ⟨_, -, _, _, _, rfl⟩ := hq
  exact outside_of_ne rfl h.symm

theorem outside_users {uid : String} {q : Path} (hq : IsPostPlace q) :
    Outside (usersWrite uid).path q := by
  obtain ⟨system, hsystem, _, _, _, rfl⟩ := hq
  refine outside_cons_of_ne ?_
  rintro rfl
  revert hsystem
  decide

/-- A record that an editor for an offered system writes. -/
def IsRecord (write : Write) : Prop :=
  ∃ (c : NewPostController) (key : String),
    c.currentSelectedSystem ∈ DropDown.systemDropDown.dropDownOptions ∧ key ≠ "" ∧
      (arrayIndex? key).isNone ∧ write = c.postWrite key

theorem path_postWrite {c : NewPostController} {key : String}
    (hsystem : c.currentSelectedSystem ∈ DropDown.systemDropDown.dropDownOptions) :
    (c.postWrite key).path =
      [c.postSystem, c.chosenGameType, tierKey c.rankSegment, key] := by
  rw [NewPostController.postWrite, NewPostController.place_eq hsystem]
  rfl

theorem IsRecord.isPostPlace {write : Write} (h : IsRecord write) : IsPostPlace write.path := by
  obtain ⟨c, key, hsystem, -, -, rfl⟩ := h
  exact ⟨_, NewPostController.postSystem_mem hsystem, _, _, _, path_postWrite hsystem⟩

namespace World

variable {ι : Type} {w w' : World ι} {i : ι} {e : AppEvent} {es : List (ι × AppEvent)}
  {defaults : ι → Option Coder}

/-- The posts that an event of a client writes. -/
def postsWritten (w : World ι) (e : ι × AppEvent) : List Write :=
  match e.2 with
  | .buttonPushed key => (w.clients e.1).postWrites key
  | _ => []

/-- The entries of the journal that a list of writes makes. -/
def entries (writes : List Write) : List (Path × Tree) :=
  writes.map fun write => (write.path, write.value)

variable [DecidableEq ι]

/-- The posts written in a run, oldest first. -/
def written (w : World ι) (es : List (ι × AppEvent)) : List Write :=
  (worldMachine ι).observations postsWritten w es

/-- What one event writes is journalled, and nothing else changes at the places of posts. -/
theorem journal_of_steps {writes : List Write} (hsound : w.Sound)
    (h : w.database.Journal IsPostPlace (entries writes))
    (hrecords : ∀ write ∈ writes, IsRecord write)
    (hstep : (worldMachine ι).Steps w (i, e) w') :
    w'.database.Journal IsPostPlace (entries (writes ++ w.postsWritten (i, e))) ∧
      ∀ write ∈ writes ++ w.postsWritten (i, e), IsRecord write := by
  obtain ⟨a, sent, heffect, rfl⟩ := effect_of_steps hstep
  cases heffect with
  | signIn user =>
    simp only [postsWritten, List.append_nil]
    exact ⟨h.set_outside .leaf fun q hq => outside_users hq, hrecords⟩
  | @buttonPushed below screen key hstack =>
    have hauto := isAutoId_of_enabled hstep.1 hstack
    have hrecord : IsRecord (screen.controller.postWrite key) :=
      ⟨_, key, hsound.system hstack, hauto.nonempty, hauto.notIndex, rfl⟩
    simp only [postsWritten, postWrites_eq hstack]
    refine ⟨?_, fun write hwrite => ?_⟩
    · rw [entries, List.map_append]
      exact h.set_fresh (NewPostController.fields_wellFormed _) hrecord.isPostPlace
        (Option.isNone_iff_eq_none.mp hauto.fresh) fun q hq hne =>
          outside_of_isPostPlace hrecord.isPostPlace hq hne
    · rcases List.mem_append.mp hwrite with hwrite | hwrite
      · exact hrecords write hwrite
      · cases List.mem_singleton.mp hwrite
        exact hrecord
  | _ =>
    simp only [postsWritten, List.append_nil]
    exact ⟨h, hrecords⟩

theorem journal_of_run (hrun : (worldMachine ι).Run (start defaults) es w) :
    w.database.Journal IsPostPlace (entries (written (start defaults) es)) ∧
      ∀ write ∈ written (start defaults) es, IsRecord write := by
  induction hrun with
  | nil => exact ⟨.empty, fun write hwrite => by cases hwrite⟩
  | snoc hrun hstep ih =>
    rw [written, Machine.observations_snoc hrun]
    exact journal_of_steps (sound_of_run hrun) ih.1 ih.2 hstep

/-- In every state the clients can reach, the database holds at the places of posts exactly what
has been written in the run, as it was written, and no two writes went to the same place: no post is
lost, changed, duplicated or overwritten. -/
theorem stored_iff_written (hrun : (worldMachine ι).Run (start defaults) es w) :
    (∀ p, IsPostPlace p → ∀ v, w.database.get p = some v ↔
      ∃ write ∈ written (start defaults) es, write.path = p ∧ write.value = v) ∧
    ((written (start defaults) es).map Write.path).Nodup := by
  obtain ⟨hjournal, -⟩ := journal_of_run hrun
  constructor
  · intro p hp v
    rw [hjournal.get p hp v]
    simp [entries]
  · have hnodup := hjournal.nodup
    rwa [entries, List.map_map] at hnodup

/-- The record that the first client has written for Doubles. -/
def doublesRecord : Tree := stringDictionary
  (NewPostController.postFields "doubles" (String.ofList NewPostController.placeholder))

theorem stored_iff_written_doubles :
    ∃ w, (worldMachine (Fin 2)).Run (start fun _ => none) doublesPosted w ∧
      w.database.get ["ps4", "doubles", "bronzePosts", "-K1"] = some doublesRecord := by
  obtain ⟨w, hrun, -⟩ := run_doublesPosted
  have hplace : IsPostPlace ["ps4", "doubles", "bronzePosts", "-K1"] :=
    ⟨_, .head _, _, _, _, rfl⟩
  exact ⟨w, hrun, ((stored_iff_written hrun).1 _ hplace _).mpr ⟨_, .head _, rfl, rfl⟩⟩

/-- Every record names the game type it is filed under, beside a body and the fixed username, and
nothing else; it is filed under a segment's game type, a section's rank, and a key that is neither
empty nor an array index. -/
theorem record_of_stored (hrun : (worldMachine ι).Run (start defaults) es w)
    {system gameType rank id : String} (hsystem : system ∈ ["ps4", "pc", "xboxOne"]) {v : Tree}
    (hstored : w.database.get [system, gameType, rank, id] = some v) :
    (∃ body, v = stringDictionary (NewPostController.postFields gameType body)) ∧
      (∃ segment, gameType = gameTypes.get segment) ∧ (∃ tier, rank = tierKey tier) ∧
      id ≠ "" ∧ arrayIndex? id = none := by
  obtain ⟨hjournal, hrecords⟩ := journal_of_run hrun
  have hmem := (hjournal.get _ ⟨_, hsystem, _, _, _, rfl⟩ v).mp hstored
  obtain ⟨write, hwrite, heq⟩ := List.mem_map.mp hmem
  obtain ⟨c, key, hsystem', hnonempty, hindex, rfl⟩ := hrecords write hwrite
  rw [path_postWrite hsystem'] at heq
  cases heq
  exact ⟨⟨_, rfl⟩, ⟨_, rfl⟩, ⟨_, rfl⟩, hnonempty, Option.isNone_iff_eq_none.mp hindex⟩

theorem record_of_stored_doubles :
    ∃ body, doublesRecord = stringDictionary (NewPostController.postFields "doubles" body) := by
  obtain ⟨w, hrun, -⟩ := run_doublesPosted
  have hstored : w.database.get ["ps4", "doubles", "bronzePosts", "-K1"] = some doublesRecord :=
    ((journal_of_run hrun).1.get _ ⟨_, .head _, _, _, _, rfl⟩ _).mpr (.head _)
  exact (record_of_stored hrun (.head _) hstored).1

end World
end RLFinder
