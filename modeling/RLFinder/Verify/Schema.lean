import RLFinder.Verify.AppLemmas
import RLFinder.Verify.BoardReads
import RLFinder.Verify.BoardTree

/-!
# The database schema

Any number of clients post and sign in on one database. Their screens stay composed of reachable
ones (`App.Composed`), so every post goes to depth four of an offered system, every board keeps
holding posts (`Boards`), and no callback of a read runs into its forced cast.
-/

namespace RLFinder

/-- Every board of an offered system holds posts and nothing else. -/
def Boards (db : Database) : Prop :=
  ∀ system ∈ ["ps4", "pc", "xboxOne"], ∀ gameType, ∃ posts, Holds (db.get [system, gameType]) posts

/-- Absent, or a dictionary from rank keys to dictionaries from ids to dictionaries of strings. -/
def ReadableBoard (snapshot : Any) : Prop :=
  snapshot = .null ∨ ∃ entries, snapshot = .dictionary entries ∧
    ∀ e ∈ entries, (∃ r, e.1 = tierKey r) ∧ ∃ posts, e.2.asPosts? = some posts

theorem ReadsAs.readableBoard {posts : Fin 7 → List StoredPost} {snapshot : Any}
    (h : ReadsAs posts snapshot) : ReadableBoard snapshot := by
  cases h with
  | null => exact .inl rfl
  | dictionary _ hentries _ =>
    refine .inr ⟨_, rfl, fun e he => ?_⟩
    obtain ⟨r, hkey, hposts⟩ := hentries e he
    exact ⟨⟨r, hkey⟩, _, hposts⟩

theorem boards_empty : Boards .empty := by
  intro system _ gameType
  rw [Store.get_empty]
  exact ⟨_, holds_none⟩

theorem Boards.usersWrite {db : Database} {uid : String} (h : Boards db) :
    Boards (db.setValue (usersWrite uid)) := by
  intro system hsystem gameType
  have hne : system ≠ "users" := by
    rintro rfl
    revert hsystem
    decide
  rw [get_setValue_usersWrite hne]
  exact h system hsystem gameType

theorem Boards.postWrite {db : Database} {c : NewPostController} {key : String} (h : Boards db)
    (hsystem : c.currentSelectedSystem ∈ DropDown.systemDropDown.dropDownOptions)
    (hkey : IsAutoId db c.place key) : Boards (db.setValue (c.postWrite key)) := by
  intro system hmem gameType
  obtain ⟨posts, hposts⟩ := h system hmem gameType
  exact ⟨_, hposts.postWrite hsystem hkey⟩

/-- What the database delivers for an offered selection. -/
theorem Boards.readsAs {db : Database} {c : PartnerPostsController} (h : Boards db)
    (hc : c.Offered) : ∃ posts, ReadsAs posts (snapshotValue (db.get c.readPath)) := by
  obtain ⟨posts, hposts⟩ := h c.readSystem hc.readSystem_mem c.readGameType
  rw [hc.readPath_eq]
  exact ⟨posts, hposts.readsAs (.get db.wellFormed)⟩

namespace World

variable {ι : Type} {w w' : World ι} {i : ι} {e : AppEvent} {es : List (ι × AppEvent)}
  {defaults : ι → Option Coder}

/-- Clients composed of reachable screens share a database of boards. -/
structure Sound (w : World ι) : Prop where
  clients : ∀ i, (w.clients i).Composed
  boards : Boards w.database

theorem sound_start : (start defaults).Sound where
  clients _ := App.composed_launched
  boards := boards_empty

/-- The system of a post editor on the stack of a client. -/
theorem Sound.system (h : w.Sound) {s : NewPostScreen} {below : List ViewController}
    (hstack : (w.clients i).stack = .newPost s :: below) :
    s.controller.currentSelectedSystem ∈ DropDown.systemDropDown.dropDownOptions := by
  obtain ⟨system, es, hsystem, hrun⟩ := (h.clients i).editors s (hstack ▸ .head _)
  rw [NewPostScreen.currentSelectedSystem_of_run hrun]
  exact hsystem

/-- Where a client writes its post. -/
theorem postWrites_eq {s : NewPostScreen} {below : List ViewController} {key : String}
    (hstack : (w.clients i).stack = .newPost s :: below) :
    (w.clients i).postWrites key = [s.controller.postWrite key] := by
  rw [App.postWrites, hstack]
  simp only [NewPostController.postPost_eq, Option.toList_some]

theorem isAutoId_of_enabled {s : NewPostScreen} {below : List ViewController} {key : String}
    (hen : w.Enabled (i, .buttonPushed key))
    (hstack : (w.clients i).stack = .newPost s :: below) :
    IsAutoId w.database s.controller.place key := by
  have hauto := hen.2 (s.controller.postWrite key) (postWrites_eq hstack ▸ .head _)
  rwa [NewPostController.dropLast_postWrite] at hauto

variable [DecidableEq ι]

theorem Sound.steps (h : w.Sound) (hstep : (worldMachine ι).Steps w (i, e) w') : w'.Sound := by
  obtain ⟨a, writes, heffect, rfl⟩ := effect_of_steps hstep
  constructor
  · intro j
    by_cases hj : j = i
    · subst hj
      simp only [Function.update_self]
      exact (h.clients j).effect heffect
    · simp only [Function.update_of_ne hj]
      exact h.clients j
  · cases heffect with
    | signIn user => exact h.boards.usersWrite
    | buttonPushed hstack =>
      exact h.boards.postWrite (h.system hstack) (isAutoId_of_enabled hstep.1 hstack)
    | _ => exact h.boards

theorem sound_of_run (hrun : (worldMachine ι).Run (start defaults) es w) : w.Sound :=
  hrun.invariant sound_start fun _ _ _ hs hstep => hs.steps hstep

/-- In every state the clients can reach, a post is written at a new place of depth four with no
empty key; what the database delivers for any selection the drop-downs offer is absent or a
dictionary the reader's forced cast accepts, with rank keys the reader knows; and the value callback
of any read in flight goes through and prints nothing. -/
theorem schema_of_run (hrun : (worldMachine ι).Run (start defaults) es w) :
    (∀ i key, w.Enabled (i, .buttonPushed key) → ∀ write ∈ (w.clients i).postWrites key,
      ∃ system gameType rank, write.path = [system, gameType, rank, key] ∧
        (∀ k ∈ write.path, k ≠ "") ∧ w.database.get write.path = none) ∧
    (∀ c : PartnerPostsController, c.Offered →
      ReadableBoard (snapshotValue (w.database.get c.readPath)) ∧
      ∀ order, ∃ c', c.readCallback (.value order (snapshotValue (w.database.get c.readPath))) =
        .ok c' ∧ c'.console = c.console) ∧
    ∀ i ticket order value, w.Enabled (i, .board (.readCallback ticket (.value order value))) →
      ∃ c', (w.clients i).board.controller.readCallback (.value order value) = .ok c' ∧
        c'.console = (w.clients i).board.controller.console := by
  have hsound := sound_of_run hrun
  refine ⟨?_, ?_, ?_⟩
  · intro i key hen write hwrite
    obtain ⟨s, below, hstack⟩ := hen.1
    have hsystem := hsound.system hstack
    have hauto := isAutoId_of_enabled hen hstack
    rw [postWrites_eq hstack] at hwrite
    cases List.mem_singleton.mp hwrite
    have hpath : (s.controller.postWrite key).path =
        [s.controller.postSystem, s.controller.chosenGameType,
          tierKey s.controller.rankSegment, key] := by
      rw [NewPostController.postWrite, NewPostController.place_eq hsystem]
      rfl
    refine ⟨_, _, _, hpath, fun k hk => ?_, Option.isNone_iff_eq_none.mp hauto.fresh⟩
    rcases List.mem_append.mp hk with hk | hk
    · exact NewPostController.ne_empty_of_mem_place hsystem k hk
    · cases List.mem_singleton.mp hk
      exact hauto.nonempty
  · intro c hc
    obtain ⟨posts, hreads⟩ := hsound.boards.readsAs hc
    refine ⟨hreads.readableBoard, fun order => ?_⟩
    obtain ⟨c', hc', hconsole, -⟩ := hreads.readCallback
    exact ⟨c', hc', hconsole⟩
  · intro i ticket order value hen
    obtain ⟨es', hboard⟩ := (hsound.clients i).board
    have hlt := (PostsScreen.ledger_of_run hboard).lt_of_outstanding hen.1.1
    have hissued := List.getElem?_eq_getElem hlt
    obtain ⟨c, hc, hpath⟩ := PostsScreen.issued_offered_of_run hboard _ (List.getElem_mem hlt)
    have hvalue : value = snapshotValue (w.database.get c.readPath) := by
      rw [← hpath]
      exact hen.2 _ hissued
    obtain ⟨posts, hreads⟩ := hsound.boards.readsAs hc
    obtain ⟨c', hc', hconsole, -⟩ := hreads.readCallback
    exact ⟨c', hvalue ▸ hc', hconsole⟩

/-- One of two clients posts and the other signs in. -/
theorem schema_of_run_two : ∃ w, (worldMachine (Fin 2)).Run (start fun _ => none)
    [(0, .toCreatePost), (0, .buttonPushed "-K1"), (1, .didSignIn (some ⟨"u2", none⟩) none)] w ∧
    ∀ c : PartnerPostsController, c.Offered →
      ReadableBoard (snapshotValue (w.database.get c.readPath)) := by
  have hopen : (worldMachine (Fin 2)).Run (start fun _ => none) [(0, .toCreatePost)] _ :=
    .single ⟨⟨rfl, trivial⟩, rfl⟩
  have hpost := hopen.snoc (e := (0, AppEvent.buttonPushed "-K1"))
    ⟨⟨⟨_, _, rfl⟩, fun write hwrite => by
      cases List.mem_singleton.mp hwrite
      exact ⟨rfl, by decide, rfl⟩⟩, rfl⟩
  have hrun := hpost.snoc (e := (1, AppEvent.didSignIn (some ⟨"u2", none⟩) none))
    ⟨⟨trivial, trivial⟩, rfl⟩
  exact ⟨_, hrun, fun c hc => ((schema_of_run hrun).2.1 c hc).1⟩

end World
end RLFinder
