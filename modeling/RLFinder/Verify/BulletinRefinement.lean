import RLFinder.Theory.Bulletin
import RLFinder.Theory.Simulation
import RLFinder.Verify.PostBoard
import RLFinder.Verify.Progress

/-!
# The clients and the bulletin board

Clients that share a tree of keys implement a bulletin board of posts in their authors' words
(`simulates_bulletin`): posting publishes, a read is a request for the selection of the drop-downs,
its callback the answer, and a relaunch starts a reader anew. Sign-ins, navigation, typing and taps
are not seen on the board. Whole runs of the clients are runs of the board (`refines_bulletin`), so
what holds of readers in general holds of every client.
-/

namespace RLFinder
open Bulletin (Reader ReaderEvent)

/-- What a post is filed under, and the text that was sent. -/
structure Post where
  system : String
  gameType : String
  tier : Fin 7
  body : String

/-- What the drop-downs of a board are set to. -/
structure Selection where
  system : String
  gameType : String

/-- What a post contributes to a section of a board. Nothing is found under Duel, whose posts are
stored under another key. -/
def Selection.share (selection : Selection) (tier : Fin 7) (post : Post) : Multiset String :=
  if selection.gameType ≠ "Duel" ∧ post.system = selection.system ∧
    post.gameType = selection.gameType ∧ post.tier = tier then {post.body} else 0

/-- The bodies of the posts that a section lists, oldest first. -/
def Selection.listed (selection : Selection) (posts : List Post) (tier : Fin 7) : List String :=
  if selection.gameType = "Duel" then []
  else (posts.filter fun post => post.system = selection.system ∧
    post.gameType = selection.gameType ∧ post.tier = tier).map Post.body

def NewPostController.post (c : NewPostController) : Post where
  system := c.currentSelectedSystem
  gameType := segmentGameType c.gameTypeSegment
  tier := c.rankSegment
  body := String.ofList c.postBody.text

namespace PartnerPostsController

def selection (c : PartnerPostsController) : Selection where
  system := c.currentSelectedSystem
  gameType := c.currentSelectedGameType

/-- The controller whose drop-down has been set, as `reloadTable` reads for it. -/
def select (c : PartnerPostsController) (string : String) : DropDown → PartnerPostsController
  | .systemDropDown => { c with currentSelectedSystem := string }
  | .gameTypeDropDown => { c with currentSelectedGameType := string }

theorem reloadTable_eq {c : PartnerPostsController} {string : String} {button : DropDown} :
    c.reloadTable string button = (c.select string button).readDatabase := by
  cases button <;> rfl

end PartnerPostsController

/-! ## What the board is told -/

/-- What an event of a board asks or answers. -/
def PostsEvent.readerEvent? (c : PartnerPostsController) :
    PostsEvent → Option (ReaderEvent Selection)
  | .viewDidAppear => some (.refresh c.selection)
  | .dropDownClicked button string => some (.refresh (c.select string button).selection)
  | .readCallback ticket (.value _ _) => some (.deliver ticket)
  | .readCallback ticket (.error _) => some (.fail ticket)
  | .headerTap _ | .cellForRow _ _ | .headerReappears _ => none

/-- What an event of a client tells the bulletin board. -/
def World.announcements {ι : Type} (w : World ι) (e : ι × AppEvent) :
    List (Bulletin.Event ι Post Selection) :=
  match e.2 with
  | .launch => [.reader e.1 .restart]
  | .board event =>
    (event.readerEvent? (w.clients e.1).board.controller).toList.map (.reader e.1)
  | .buttonPushed _ =>
    match (w.clients e.1).stack with
    | .newPost s :: _ => [.publish s.controller.post]
    | _ => []
  | _ => []

/-! ## Posts under keys and posts in words -/

section Share
variable {calls : List (NewPostController × String)} {c : PartnerPostsController} {t : Fin 7}
  {db : Database} {selection : Selection} {posts : List Post} {post : Post} {body : String}

/-- The contributions of all posts are what a section lists. -/
theorem bind_share : (posts : Multiset Post).bind (selection.share t) =
    (selection.listed posts t : Multiset String) := by
  unfold Selection.listed
  induction posts with
  | nil => split <;> rfl
  | cons post posts ih =>
    rw [← Multiset.cons_coe, Multiset.cons_bind, ih, Selection.share]
    by_cases hduel : selection.gameType = "Duel"
    · simp [hduel]
    · simp only [hduel, if_false, ne_eq, not_false_eq_true, true_and, List.filter_cons,
        decide_eq_true_eq]
      split
      · rw [List.map_cons, Multiset.singleton_add, Multiset.cons_coe]
      · rw [zero_add]

theorem listed_calls : selection.listed (calls.map (·.1.post)) t =
    if selection.gameType = "Duel" then []
    else postedFor calls selection.system selection.gameType t := by
  rw [Selection.listed, postedFor, List.filter_map, List.map_map]
  rfl

/-- A snapshot taken where a board reads holds what the posts stored there contribute. -/
theorem posts_snapshot (hcalls : ∀ call ∈ calls,
      call.1.currentSelectedSystem ∈ DropDown.systemDropDown.dropDownOptions)
    (hholds : Holds (db.get [c.readSystem, c.readGameType])
      (storedAt calls c.readSystem c.readGameType)) (hc : c.Offered) :
    ((snapshotValue (db.get c.readPath)).posts (tierKey t) : Multiset String) =
      (calls.map (·.1.post) : Multiset Post).bind (c.selection.share t) := by
  have hreads := hholds.readsAs (.get db.wellFormed)
  rw [bind_share, listed_calls, hc.readPath_eq, hreads.posts_eq, storedAt_read hc hcalls]
  rfl

end Share

/-! ## One reader -/

/-- A request was sent to the place of its selection. -/
def SentFor (path : Path) (selection : Selection) : Prop :=
  ∃ c : PartnerPostsController, c.Offered ∧ path = c.readPath ∧ selection = c.selection

/-- The screen of a board is a reader. -/
structure PostsScreen.Reads (s : PostsScreen) (r : Reader Selection (Fin 7) String) : Prop where
  shown : ∀ t, r.shown t = (s.controller.posts t : Multiset String)
  issued : List.Forall₂ SentFor s.issued r.issued
  outstanding : r.outstanding = s.outstanding

namespace PostsScreen

variable {s s' : PostsScreen} {r : Reader Selection (Fin 7) String} {e : PostsEvent}
  {published : Multiset Post}

/-- The value of a callback is a snapshot of the posts published by then. -/
def DeliversPublished (s : PostsScreen) (published : Multiset Post) : PostsEvent → Prop
  | .readCallback ticket (.value _ value) => ∀ path ∈ s.issued[ticket]?,
      ∀ c : PartnerPostsController, c.Offered → path = c.readPath →
      ∀ t, (value.posts (tierKey t) : Multiset String) = published.bind (c.selection.share t)
  | _ => True

theorem Effect.selection (h : Effect s e s') (he : e.issuesRead = false) :
    s'.controller.selection = s.controller.selection := by
  cases h with
  | issue hissue => simp [hissue] at he
  | callback _ hc =>
    obtain ⟨hsystem, hgame, -⟩ := PartnerPostsController.readCallback_untouched hc
    simp only [PartnerPostsController.selection, hsystem, hgame]
  | tap hc =>
    rcases PartnerPostsController.expandPosts_cases hc with ⟨-, rfl⟩ | ⟨-, u, -, -, rfl⟩ <;> rfl
  | cell => rfl
  | reappear => rfl

theorem start_reads : start.Reads {} where
  shown t := by fin_cases t <;> rfl
  issued := .nil
  outstanding := rfl

theorem Reads.issue (h : s.Reads r) {c : PartnerPostsController} (hc : c.Offered) :
    (s.issue c.readDatabase).Reads (r.handle Selection.share published (.refresh c.selection)) where
  shown t := by
    have hnil : (s.issue c.readDatabase).controller.posts t = [] :=
      PartnerPostsController.posts_clearPosts
    rw [hnil]
    rfl
  issued := List.rel_append h.issued (.cons ⟨c, hc, rfl, rfl⟩ .nil)
  outstanding := by
    simp only [Reader.handle, PostsScreen.issue, h.outstanding, h.issued.length_eq]

/-- A callback is the answer to its request. -/
theorem Reads.deliver (h : s.Reads r) {ticket : Nat}
    {order : IterationOrder Any (List (String × String))} {value : Any}
    {c' : PartnerPostsController} (hc : s.controller.readCallback (.value order value) = .ok c')
    (hlt : ticket < s.issued.length)
    (hvalue : s.DeliversPublished published (.readCallback ticket (.value order value))) :
    Reads { s with controller := c', outstanding := s.outstanding.erase ticket }
      (r.handle Selection.share published (.deliver ticket)) where
  shown t := by
    have hget := List.getElem?_eq_getElem hlt
    have hlt' : ticket < r.issued.length := h.issued.length_eq ▸ hlt
    obtain ⟨c, hoffered, hpath, hselection⟩ := h.issued.get hlt hlt'
    have hposts : ((ReadResult.value order value).posts (tierKey t) : Multiset String) =
        published.bind (c.selection.share t) := by
      rw [Multiset.coe_eq_coe.mpr ReadResult.posts_perm]
      exact hvalue _ hget c hoffered hpath t
    have hselection' : r.issued[ticket] = c.selection := hselection
    simp only [Reader.handle, List.getElem?_eq_getElem hlt', h.shown t, hselection',
      PartnerPostsController.readCallback_posts hc, ← Multiset.coe_add, hposts]
  issued := h.issued
  outstanding := by simp only [Reader.handle, h.outstanding]

/-- What one event of a screen does to its reader. -/
theorem Reads.steps (h : s.Reads r) (hoffered : s.controller.Offered)
    (hlt : ∀ ticket ∈ s.outstanding, ticket < s.issued.length) (hstep : postsMachine.Steps s e s')
    (hvalue : s.DeliversPublished published e) :
    (∀ re ∈ e.readerEvent? s.controller, r.Enabled re ∧
      s'.Reads (r.handle Selection.share published re)) ∧
    (e.readerEvent? s.controller = none → s'.Reads r) := by
  obtain ⟨hen, hok⟩ := hstep
  cases e with
  | viewDidAppear =>
    cases hok
    refine ⟨fun re hre => ?_, fun hnone => by cases hnone⟩
    cases hre
    exact ⟨trivial, h.issue hoffered⟩
  | dropDownClicked button string =>
    cases hok
    refine ⟨fun re hre => ?_, fun hnone => by cases hnone⟩
    cases hre
    refine ⟨trivial, ?_⟩
    rw [PartnerPostsController.reloadTable_eq]
    refine h.issue ?_
    cases button with
    | systemDropDown => exact ⟨hen, hoffered.gameType⟩
    | gameTypeDropDown => exact ⟨hoffered.system, hen⟩
  | readCallback ticket result =>
    obtain ⟨c', hc, hok⟩ := Except.of_bind_eq_ok hok
    cases hok
    have hmem : ticket ∈ r.outstanding := h.outstanding ▸ hen
    cases result with
    | value order value =>
      refine ⟨fun re hre => ?_, fun hnone => by cases hnone⟩
      cases hre
      exact ⟨hmem, h.deliver hc (hlt ticket hen) hvalue⟩
    | error message =>
      refine ⟨fun re hre => ?_, fun hnone => by cases hnone⟩
      cases hre
      cases hc
      exact ⟨hmem, h.shown, h.issued, by simp only [Reader.handle, h.outstanding]⟩
  | headerTap i =>
    obtain ⟨c', hc, hok⟩ := Except.of_bind_eq_ok hok
    cases hok
    refine ⟨fun re hre => (by cases hre), fun _ => ⟨fun t => ?_, h.issued, h.outstanding⟩⟩
    rw [h.shown t, posts_expandPosts hc]
  | cellForRow i row =>
    obtain ⟨text, -, hok⟩ := Except.of_bind_eq_ok hok
    cases hok
    exact ⟨fun re hre => (by cases hre), fun _ => h⟩
  | headerReappears i =>
    cases hok
    exact ⟨fun re hre => (by cases hre), fun _ => ⟨h.shown, h.issued, h.outstanding⟩⟩

end PostsScreen

/-! ## The world -/

namespace World

variable {ι : Type} {w w' : World ι} {i : ι} {e : AppEvent} {es : List (ι × AppEvent)}
  {defaults : ι → Option Coder} {b : Bulletin.State ι Post Selection (Fin 7) String}

/-- Every board of the database holds what the calls have stored, and the calls are what has been
published. -/
structure Stores (db : Database) (published : Multiset Post)
    (calls : List (NewPostController × String)) : Prop where
  published : published = (calls.map (·.1.post) : Multiset Post)
  offered : ∀ call ∈ calls,
    call.1.currentSelectedSystem ∈ DropDown.systemDropDown.dropDownOptions
  holds : ∀ system ∈ ["ps4", "pc", "xboxOne"], ∀ gameType,
    Holds (db.get [system, gameType]) (storedAt calls system gameType)

theorem stores_empty : Stores .empty 0 [] where
  published := rfl
  offered _ h := by cases h
  holds system _ gameType := by
    rw [Store.get_empty]
    exact holds_none

theorem Stores.usersWrite {db : Database} {published : Multiset Post}
    {calls : List (NewPostController × String)} {uid : String} (h : Stores db published calls) :
    Stores (db.setValue (usersWrite uid)) published calls where
  published := h.published
  offered := h.offered
  holds system hsystem gameType := by
    have hne : system ≠ "users" := by
      rintro rfl
      revert hsystem
      decide
    rw [get_setValue_usersWrite hne]
    exact h.holds system hsystem gameType

theorem Stores.postWrite {db : Database} {published : Multiset Post}
    {calls : List (NewPostController × String)} {c : NewPostController} {key : String}
    (h : Stores db published calls)
    (hsystem : c.currentSelectedSystem ∈ DropDown.systemDropDown.dropDownOptions)
    (hkey : IsAutoId db c.place key) :
    Stores (db.setValue (c.postWrite key)) (published + {c.post}) (calls ++ [(c, key)]) where
  published := by
    rw [h.published, List.map_append, ← Multiset.coe_add]
    rfl
  offered call hcall := by
    rcases List.mem_append.mp hcall with hcall | hcall
    · exact h.offered call hcall
    · cases List.mem_singleton.mp hcall
      exact hsystem
  holds system hmem gameType := by
    rw [storedAt_concat]
    exact (h.holds system hmem gameType).postWrite hsystem hkey

/-- The world implements the bulletin board. -/
structure Implements (w : World ι) (b : Bulletin.State ι Post Selection (Fin 7) String) : Prop where
  sound : w.Sound
  stores : ∃ calls, Stores w.database b.published calls
  reads : ∀ i, (w.clients i).board.Reads (b.readers i)

theorem start_implements : (start defaults).Implements {} where
  sound := sound_start
  stores := ⟨[], stores_empty⟩
  reads _ := PostsScreen.start_reads

/-- The value of an enabled callback is a snapshot of what has been published. -/
theorem Implements.deliversPublished (h : w.Implements b) {event : PostsEvent}
    (hen : w.Enabled (i, .board event)) :
    (w.clients i).board.DeliversPublished b.published event := by
  obtain ⟨calls, hstores⟩ := h.stores
  cases event with
  | readCallback ticket result =>
    cases result with
    | value order value =>
      intro path hpath c hc heq t
      rw [hen.2 path hpath, heq, hstores.published]
      exact posts_snapshot hstores.offered
        (hstores.holds c.readSystem hc.readSystem_mem c.readGameType) hc
    | error => trivial
  | viewDidAppear | dropDownClicked | headerTap | cellForRow | headerReappears => trivial

variable [DecidableEq ι]

/-- One client changes what its board shows or not at all, and the database stays as it is. -/
theorem Implements.update (h : w.Implements b) {a : App} {r : Reader Selection (Fin 7) String}
    (hsound : (⟨Function.update w.clients i a, w.database⟩ : World ι).Sound)
    (hreads : a.board.Reads r) :
    Implements ⟨Function.update w.clients i a, w.database⟩
      { b with readers := Function.update b.readers i r } where
  sound := hsound
  stores := h.stores
  reads j := by
    by_cases hj : j = i
    · subst hj
      simpa only [Function.update_self] using hreads
    · simpa only [Function.update_of_ne hj] using h.reads j

/-- A client that changes neither its board nor the database is not seen on the bulletin board. -/
theorem Implements.of_board_eq (h : w.Implements b) {a : App} {db : Database}
    (hsound : (⟨Function.update w.clients i a, db⟩ : World ι).Sound)
    (hboard : a.board = (w.clients i).board) {published : Multiset Post}
    (hstores : ∃ calls, Stores db published calls) :
    Implements ⟨Function.update w.clients i a, db⟩ { b with published } where
  sound := hsound
  stores := hstores
  reads j := by
    by_cases hj : j = i
    · subst hj
      simpa only [Function.update_self, hboard] using h.reads j
    · simpa only [Function.update_of_ne hj] using h.reads j

/-- The bulletin board answers every event of a client by what the event announces. -/
theorem simulates_bulletin : (worldMachine ι).Simulation
    (Bulletin.machine Selection.share ι Fault) announcements Implements := by
  rintro w b ⟨i, e⟩ w' h hstep
  have hsound := h.sound.steps hstep
  obtain ⟨a, writes, heffect, rfl⟩ := effect_of_steps hstep
  cases heffect with
  | launch =>
    exact ⟨_, .single ⟨trivial, rfl⟩, h.update hsound PostsScreen.start_reads⟩
  | @board event screen hboard =>
    obtain ⟨es, hrun⟩ := (h.sound.clients i).board
    have hevent := (h.reads i).steps (PostsScreen.offered_of_run hrun)
      (fun ticket hmem => (PostsScreen.ledger_of_run hrun).lt_of_outstanding hmem) hboard
      (h.deliversPublished hstep.1)
    simp only [announcements]
    cases hre : event.readerEvent? (w.clients i).board.controller with
    | none =>
      have hreads := h.update hsound (hevent.2 hre)
      rw [Function.update_eq_self] at hreads
      exact ⟨_, .nil, hreads⟩
    | some re =>
      obtain ⟨hen, hreads⟩ := hevent.1 re hre
      exact ⟨_, .single ⟨hen, rfl⟩, h.update hsound hreads⟩
  | newPost _ _ | toCreatePost _ | toSettings _ | toAuth _ | noSignIn | logOut _ | noLogOut | back
    | dismiss => exact ⟨b, .nil, h.of_board_eq hsound rfl h.stores⟩
  | signIn user =>
    obtain ⟨calls, hstores⟩ := h.stores
    exact ⟨b, .nil, h.of_board_eq hsound rfl ⟨calls, hstores.usersWrite⟩⟩
  | @buttonPushed below screen key hstack =>
    obtain ⟨calls, hstores⟩ := h.stores
    have hstores' := hstores.postWrite (h.sound.system hstack) (isAutoId_of_enabled hstep.1 hstack)
    simp only [announcements, hstack]
    exact ⟨_, .single ⟨trivial, rfl⟩, h.of_board_eq hsound rfl ⟨_, hstores'⟩⟩

/-! ## Whole runs -/

/-- What the clients tell the bulletin board in a run. -/
def announced (w : World ι) (es : List (ι × AppEvent)) : List (Bulletin.Event ι Post Selection) :=
  (worldMachine ι).observations announcements w es

/-- What has been posted in a run, oldest first. -/
def posted (w : World ι) (es : List (ι × AppEvent)) : List Post :=
  (announced w es).filterMap Bulletin.Event.post?

theorem posted_append {w₀ : World ι} {es' : List (ι × AppEvent)}
    (hrun : (worldMachine ι).Run w₀ es w) :
    posted w₀ (es ++ es') = posted w₀ es ++ posted w es' := by
  rw [posted, announced, Machine.observations_append hrun, List.filterMap_append]
  rfl

omit [DecidableEq ι] in
theorem filterMap_announcements (h : ∀ key, e ≠ .buttonPushed key) :
    (w.announcements (i, e)).filterMap Bulletin.Event.post? = [] := by
  cases e with
  | board event =>
    simp only [announcements]
    cases event.readerEvent? (w.clients i).board.controller <;> rfl
  | buttonPushed key => exact absurd rfl (h key)
  | launch | newPost | toCreatePost | toSettings | didSignIn | logOut | back | dismiss => rfl

/-- Only taps on the Post button post. -/
theorem posted_eq_nil {w₀ : World ι} (hrun : (worldMachine ι).Run w₀ es w)
    (h : ∀ e ∈ es, ∀ key, e.2 ≠ .buttonPushed key) : posted w₀ es = [] := by
  induction hrun with
  | nil => rfl
  | @snoc es w₁ e w₂ hrun _ ih =>
    rw [posted, announced, Machine.observations_snoc hrun, List.filterMap_append,
      filterMap_announcements (h e (List.mem_append_right _ (.head _))), List.append_nil]
    exact ih fun e he => h e (List.mem_append_left _ he)

/-- The bulletin board that a run of the clients implements. -/
theorem implements_of_run (hrun : (worldMachine ι).Run (start defaults) es w) :
    ∃ b, (Bulletin.machine Selection.share ι Fault).Run {} (announced (start defaults) es) b ∧
      w.Implements b ∧ b.published = (posted (start defaults) es : List Post) := by
  obtain ⟨b, hb, himplements⟩ := simulates_bulletin.run start_implements hrun
  exact ⟨b, hb, himplements, (Bulletin.published_eq_of_run hb).trans (zero_add _)⟩

/-- Every run of the clients is a run of the bulletin board, and ends with each board showing, tier
by tier, what its reader shows, and waiting for the same answers. -/
theorem refines_bulletin (hrun : (worldMachine ι).Run (start defaults) es w) :
    ∃ b, (Bulletin.machine Selection.share ι Fault).Run {} (announced (start defaults) es) b ∧
      ∀ i, (w.clients i).board.Reads (b.readers i) := by
  obtain ⟨b, hb, himplements, -⟩ := implements_of_run hrun
  exact ⟨b, hb, himplements.reads⟩

theorem refines_bulletin_doubles :
    ∃ w b, (worldMachine (Fin 2)).Run (start fun _ => none) doublesPosted w ∧
      (Bulletin.machine Selection.share (Fin 2) Fault).Run {}
        (announced (start fun _ => none) doublesPosted) b ∧
      ∀ i, (w.clients i).board.Reads (b.readers i) := by
  obtain ⟨w, hrun, -⟩ := run_doublesPosted
  obtain ⟨b, hb, hreads⟩ := refines_bulletin hrun
  exact ⟨w, b, hrun, hb, hreads⟩

end World
end RLFinder
