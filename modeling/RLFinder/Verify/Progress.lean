import RLFinder.Verify.Schema
import RLFinder.Verify.Editor
import RLFinder.Verify.TableAgreement

/-!
# What can always happen next

In a reachable state of the clients one event can end a process: a table asks for a cell it
remembers while the lists have been cleared for a new read (`faults_iff`). Everything else goes
through, the forced casts of a callback included: a client can always go back to its board
(`exists_backs`), and a board that appears can be answered (`exists_answer`).
-/

namespace RLFinder

namespace PostsScreen

variable {s : PostsScreen} {i : Fin 7} {row : Nat}

theorem cellForRowAt_of_nil (h : s.controller.posts i = []) :
    s.controller.cellForRowAt ⟨row, i⟩ = .error .indexOutOfRange := by
  have h : s.controller.selectedPostArray i = [] := h
  rw [PartnerPostsController.cellForRowAt, h]
  rfl

/-- The cells a settled table remembers are there, unless the lists are all empty. -/
theorem Settled.cellForRowAt_error_iff (hs : s.Settled)
    (hrow : row < s.controller.postsTable.rowCounts i) {f : Fault} :
    s.controller.cellForRowAt ⟨row, i⟩ = .error f ↔
      f = .indexOutOfRange ∧ ∀ t, s.controller.posts t = [] := by
  rcases hs with hnil | hagree
  · rw [cellForRowAt_of_nil (hnil i)]
    exact ⟨fun h => ⟨(Except.error.inj h).symm, hnil⟩, fun h => by rw [h.1]⟩
  · obtain ⟨text, hok⟩ := hagree.cellsInRange i row hrow
    rw [hok]
    refine iff_of_false nofun fun ⟨_, hnil⟩ => ?_
    rw [cellForRowAt_of_nil (hnil i)] at hok
    cases hok

end PostsScreen

namespace World

variable {ι : Type} {w : World ι} {i : ι} {e : AppEvent} {es : List (ι × AppEvent)}
  {defaults : ι → Option Coder}

/-! ## No other fault -/

/-- The forced casts of a callback succeed. -/
theorem Sound.readCallback (h : w.Sound) {ticket : Nat} {result : ReadResult}
    (hen : w.Enabled (i, .board (.readCallback ticket result))) :
    ∃ c', (w.clients i).board.controller.readCallback result = .ok c' := by
  cases result with
  | error message => exact ⟨_, rfl⟩
  | value order value =>
    obtain ⟨es, hboard⟩ := (h.clients i).board
    have hlt := (PostsScreen.ledger_of_run hboard).lt_of_outstanding hen.1.1
    obtain ⟨c, hc, hpath⟩ := PostsScreen.issued_offered_of_run hboard _ (List.getElem_mem hlt)
    obtain ⟨posts, hreads⟩ := h.boards.readsAs hc
    rw [← hpath, ← hen.2 _ (List.getElem?_eq_getElem hlt)] at hreads
    obtain ⟨c', hc', -, -⟩ := hreads.readCallback
    exact ⟨c', hc'⟩

/-- An event of a board goes through unless it asks for a cell. -/
theorem Sound.board_handle (h : w.Sound) {event : PostsEvent} (hen : w.Enabled (i, .board event))
    (hcell : ∀ s row, event ≠ .cellForRow s row) :
    ∃ board, (w.clients i).board.handle event = .ok board := by
  cases event with
  | viewDidAppear | dropDownClicked | headerReappears => exact ⟨_, rfl⟩
  | readCallback ticket result =>
    obtain ⟨c', hc'⟩ := h.readCallback hen
    refine ⟨{ (w.clients i).board with
      controller := c', outstanding := (w.clients i).board.outstanding.erase ticket }, ?_⟩
    simp only [PostsScreen.handle, hc']
    rfl
  | headerTap s =>
    obtain ⟨es, hboard⟩ := (h.clients i).board
    obtain ⟨c', hc'⟩ := PartnerPostsController.expandPosts_of_valid fun _ hu =>
      (PostsScreen.settled_of_run hboard).valid (i := s) hu
    refine ⟨{ (w.clients i).board with controller := c' }, ?_⟩
    simp only [PostsScreen.handle, hc']
    rfl
  | cellForRow s row => exact absurd rfl (hcell s row)

theorem Sound.app_handle (h : w.Sound) (hen : w.Enabled (i, e))
    (hcell : ∀ s row, e ≠ .board (.cellForRow s row)) :
    ∃ r, (w.clients i).handle e = .ok r := by
  cases e with
  | board event =>
    obtain ⟨board, hboard⟩ := h.board_handle hen fun s row heq => hcell s row (heq ▸ rfl)
    refine ⟨({ w.clients i with board }, []), ?_⟩
    simp only [App.handle, hboard]
    rfl
  | newPost event =>
    obtain ⟨s, below, hstack, hevent⟩ := hen.1
    obtain ⟨system, es, -, hrun⟩ := (h.clients i).editors s (hstack ▸ .head _)
    obtain ⟨s', hok, -⟩ := (NewPostScreen.showsTyped_of_run hrun).handle hevent
    refine ⟨({ w.clients i with stack := .newPost s' :: below }, []), ?_⟩
    simp only [App.handle, hstack, hok]
    rfl
  | didSignIn user error =>
    cases error with
    | none => cases user <;> exact ⟨_, rfl⟩
    | some error => cases user <;> exact ⟨_, rfl⟩
  | launch | toCreatePost | toSettings | logOut | back | dismiss | buttonPushed => exact ⟨_, rfl⟩

variable [DecidableEq ι]

/-- A client's event faults where the client does. -/
theorem step_error_iff {f : Fault} :
    (worldMachine ι).step w (i, e) = .error f ↔ (w.clients i).handle e = .error f :=
  Except.bind_pure_eq_error_iff

theorem steps_of_handle (hen : w.Enabled (i, e)) {r : App × List Write}
    (h : (w.clients i).handle e = .ok r) :
    (worldMachine ι).Steps w (i, e)
      ⟨Function.update w.clients i r.1, w.database.apply r.2⟩ := by
  refine ⟨hen, ?_⟩
  simp only [worldMachine, handle, h]
  rfl

/-! ## Going back and reading -/

/-- A client can always go back to its board. -/
theorem exists_backs (w : World ι) (i : ι) : ∃ es,
    (worldMachine ι).Run w es
      ⟨Function.update w.clients i { w.clients i with stack := [] }, w.database⟩ ∧
    ∀ e ∈ es, e = (i, .back) := by
  let f (stack : List ViewController) : World ι :=
    ⟨Function.update w.clients i { w.clients i with stack }, w.database⟩
  have hback (vc : ViewController) (stack : List ViewController) :
      (worldMachine ι).Steps (f (vc :: stack)) (i, .back) (f stack) := by
    refine ⟨⟨?_, trivial⟩, ?_⟩
    · simp only [f, Function.update_self]
      exact List.cons_ne_nil _ _
    · simp only [f, worldMachine, handle, App.handle, Function.update_self, List.tail_cons]
      simp only [bind, Except.bind, Function.update_idem]
      rfl
  have hrun := Machine.run_replicate_of_pop hback (w.clients i).stack
  simp only [f, Function.update_eq_self] at hrun
  exact ⟨_, hrun, fun e he => List.eq_of_mem_replicate he⟩

/-- The state after the board of a client has appeared. -/
def reappeared (w : World ι) (i : ι) : World ι :=
  let a := w.clients i
  ⟨Function.update w.clients i
    { a with board := a.board.issue a.board.controller.readDatabase }, w.database⟩

/-- A board that appears can be answered. -/
theorem exists_answer (hrun : (worldMachine ι).Run (start defaults) es w)
    (hstack : (w.clients i).stack = []) :
    (worldMachine ι).Steps w (i, .board .viewDidAppear) (w.reappeared i) ∧
    ∃ value a, a.stack = [] ∧ (worldMachine ι).Steps (w.reappeared i)
      (i, .board (.readCallback (w.clients i).board.issued.length (.value .listed value)))
      ⟨Function.update w.clients i a, w.database⟩ := by
  have hread : (worldMachine ι).Steps w (i, .board .viewDidAppear) (w.reappeared i) :=
    ⟨⟨⟨trivial, fun _ => hstack⟩, trivial⟩, rfl⟩
  refine ⟨hread, ?_⟩
  have hissued : ((w.reappeared i).clients i).board.issued[(w.clients i).board.issued.length]? =
      some (w.clients i).board.controller.readPath := by
    simp only [reappeared, Function.update_self, PostsScreen.issue, List.getElem?_concat_length]
    rfl
  have hen : (w.reappeared i).Enabled (i, .board (.readCallback (w.clients i).board.issued.length
      (.value .listed
        (snapshotValue (w.database.get (w.clients i).board.controller.readPath))))) := by
    refine ⟨⟨?_, fun hissues => (by cases hissues)⟩, fun path hpath => ?_⟩
    · simp only [reappeared, Function.update_self]
      exact List.mem_append_right _ (.head _)
    · rw [hissued] at hpath
      cases hpath
      rfl
  obtain ⟨board, hboard⟩ := (sound_of_run (hrun.snoc hread)).board_handle hen
    fun s row hcell => by cases hcell
  have hhandle : ((w.reappeared i).clients i).handle (.board (.readCallback
      (w.clients i).board.issued.length (.value .listed
        (snapshotValue (w.database.get (w.clients i).board.controller.readPath))))) =
      .ok ({ (w.reappeared i).clients i with board }, []) := by
    simp only [App.handle, hboard]
    rfl
  have hanswer := steps_of_handle hen hhandle
  simp only [reappeared, Function.update_self, Function.update_idem] at hanswer
  exact ⟨_, { w.clients i with board }, hstack, hanswer⟩

/-- The first client writes a post for Doubles, and the second selects Doubles. -/
def doublesPosted : List (Fin 2 × AppEvent) :=
  [(0, .toCreatePost), (0, .newPost (.chooseGameType 1)), (0, .buttonPushed "-K1"),
    (1, .board (.dropDownClicked .gameTypeDropDown "Doubles"))]

theorem run_doublesPosted :
    ∃ w, (worldMachine (Fin 2)).Run (start fun _ => none) doublesPosted w ∧
      (w.clients 1).stack = [] ∧
      (w.clients 1).board.controller.currentSelectedSystem = "PS4" ∧
      (w.clients 1).board.controller.currentSelectedGameType = "Doubles" := by
  have hopen : (worldMachine (Fin 2)).Run (start fun _ => none) [(0, .toCreatePost)] _ :=
    .single ⟨⟨rfl, trivial⟩, rfl⟩
  have hchoose := hopen.snoc (e := (0, AppEvent.newPost (.chooseGameType 1)))
    ⟨⟨⟨_, _, rfl, trivial⟩, trivial⟩, rfl⟩
  have hpost := hchoose.snoc (e := (0, AppEvent.buttonPushed "-K1"))
    ⟨⟨⟨_, _, rfl⟩, fun write hwrite => by
      cases List.mem_singleton.mp hwrite
      exact ⟨rfl, by decide, rfl⟩⟩, rfl⟩
  have hselect := hpost.snoc
    (e := (1, AppEvent.board (.dropDownClicked .gameTypeDropDown "Doubles")))
    ⟨⟨⟨.tail _ (.head _), fun _ => rfl⟩, trivial⟩, rfl⟩
  exact ⟨_, hselect, rfl, rfl, rfl⟩

/-! ## Faults -/

omit [DecidableEq ι] in
theorem Sound.handle_error_iff (h : w.Sound) (hen : w.Enabled (i, e)) {f : Fault} :
    (w.clients i).handle e = .error f ↔ f = .indexOutOfRange ∧
      (∃ s row, e = .board (.cellForRow s row)) ∧
      ∀ tier, (w.clients i).board.controller.posts tier = [] := by
  by_cases hcell : ∃ s row, e = .board (.cellForRow s row)
  · obtain ⟨s, row, rfl⟩ := hcell
    obtain ⟨es', hboard⟩ := (h.clients i).board
    have hsettled := PostsScreen.settled_of_run hboard
    have hiff := hsettled.cellForRowAt_error_iff hen.1.1 (f := f)
    have hhandle : (w.clients i).handle (.board (.cellForRow s row)) = .error f ↔
        (w.clients i).board.controller.cellForRowAt ⟨row, s⟩ = .error f :=
      Except.bind_pure_eq_error_iff.trans Except.bind_pure_eq_error_iff
    rw [hhandle, hiff]
    exact and_congr_right fun _ => ⟨fun hnil => ⟨⟨s, row, rfl⟩, hnil⟩, fun h => h.2⟩
  · obtain ⟨r, hok⟩ := h.app_handle hen fun s row heq => hcell ⟨s, row, heq⟩
    rw [hok]
    exact iff_of_false nofun fun h => hcell h.2.1

/-- In every state the clients can reach, an event that may come next ends the process if and only
if a table asks for a cell while all its lists are empty; the fault is then an index out of range.
No forced cast, forced unwrapping, edit or table update ever faults. -/
theorem faults_iff (hrun : (worldMachine ι).Run (start defaults) es w) (hen : w.Enabled (i, e))
    {f : Fault} :
    (worldMachine ι).step w (i, e) = .error f ↔ f = .indexOutOfRange ∧
      (∃ s row, e = .board (.cellForRow s row)) ∧
      ∀ tier, (w.clients i).board.controller.posts tier = [] :=
  step_error_iff.trans ((sound_of_run hrun).handle_error_iff hen)

/-- The callback of a read that finds the post goes through. -/
theorem faults_iff_answer : ∃ w es ticket value,
    (worldMachine (Fin 2)).Run (start fun _ => none) (doublesPosted ++ es) w ∧
      w.Enabled (1, .board (.readCallback ticket (.value .listed value))) ∧
      ∀ f, (worldMachine (Fin 2)).step w
        (1, .board (.readCallback ticket (.value .listed value))) ≠ .error f := by
  obtain ⟨w, hrun, hstack, -⟩ := run_doublesPosted
  obtain ⟨hread, value, a, -, hanswer⟩ := exists_answer hrun hstack
  refine ⟨_, _, _, _, hrun.snoc hread, hanswer.1, fun f hf => ?_⟩
  obtain ⟨-, ⟨s, row, hcell⟩, -⟩ := (faults_iff (hrun.snoc hread) hanswer.1).mp hf
  cases hcell

end World
end RLFinder
