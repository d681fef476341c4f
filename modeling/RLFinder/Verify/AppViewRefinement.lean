import RLFinder.AppView
import RLFinder.Verify.BoardViewLemmas
import RLFinder.Verify.NewPostViewRefinement
import RLFinder.Verify.Shown

/-!
# The controls choose

The app with its controls implements the app that simply chooses (`AppView.Implements.answers`), and
clients with controls that share a database implement clients that simply choose
(`simulates_world`). So what holds of the clients holds of what is touched on their devices
(`implements_world`).
-/

namespace RLFinder

/-! ## One app -/

/-- An app answers by at most one event, which sends these writes. -/
inductive App.Answers (a : App) : List AppEvent → App → List Write → Prop
  | none : Answers a [] a []
  | single : a.Enabled e → a.handle e = .ok (a', writes) → Answers a [e] a' writes

/-- The app that simply chooses has no post details. -/
inductive ScreenView.Implements (d : Device) : List ScreenView → List ViewController → Prop
  | nil : ScreenView.Implements d [] []
  | newPost : v.Implements d.rankChooser d.gameTypeChooser s →
    ScreenView.Implements d below below' →
    ScreenView.Implements d (.newPost v :: below) (.newPost s :: below')
  | settings : ScreenView.Implements d below below' →
    ScreenView.Implements d (.settings :: below) (.settings :: below')
  | postDetails : ScreenView.Implements d below below' →
    ScreenView.Implements d (.postDetails :: below) below'

/-- A tap on a chooser whose point is on no segment. -/
def AppViewEvent.Misses (d : Device) : AppViewEvent → Prop
  | newPost e => e.Misses d.rankChooser d.gameTypeChooser
  | _ => False

/-- A read is issued when the board appears and when a row of a drop-down is tapped. -/
def BoardViewEvent.issuesRead : BoardViewEvent → Bool
  | posts e => e.issuesRead
  | didSelectRow .. => true
  | touchesBegan _ | scrollViewWillBeginDragging | scrollViewDidScroll _ => false

theorem BoardViewEvent.onTop_of_issuesRead {e : BoardViewEvent} (h : e.issuesRead = true) :
    e.onTop = true := by
  cases e with
  | posts e =>
    cases e with
    | viewDidAppear | dropDownClicked => rfl
    | readCallback | headerTap | cellForRow | headerReappears => cases h
  | didSelectRow => rfl
  | touchesBegan | scrollViewWillBeginDragging | scrollViewDidScroll => cases h

namespace BoardView

variable {e : BoardViewEvent}

theorem length_choices : (choices e).length ≤ 1 := by
  cases e with
  | posts | touchesBegan | scrollViewWillBeginDragging | scrollViewDidScroll => simp [choices]
  | didSelectRow => simp [choices, Option.length_toList_le]

/-- What reads for the board reads here. -/
theorem issuesRead_of_mem_choices {x : PostsEvent} (hx : x ∈ choices e) :
    x.issuesRead = e.issuesRead := by
  cases e with
  | posts =>
    cases List.mem_singleton.mp hx
    rfl
  | didSelectRow =>
    obtain ⟨string, -, rfl⟩ := List.mem_map.mp hx
    rfl
  | touchesBegan | scrollViewWillBeginDragging | scrollViewDidScroll => cases hx

theorem eq_posts_of_mem_choices {x : PostsEvent} (hx : x ∈ choices e)
    (h : ∀ button string, x ≠ .dropDownClicked button string) : e = .posts x := by
  cases e with
  | posts =>
    cases List.mem_singleton.mp hx
    rfl
  | didSelectRow =>
    obtain ⟨string, -, rfl⟩ := List.mem_map.mp hx
    exact absurd rfl (h _ _)
  | touchesBegan | scrollViewWillBeginDragging | scrollViewDidScroll => cases hx

end BoardView

theorem NewPostView.length_choices {rankLayout : Layout 7} {gameTypeLayout : Layout 4}
    {v : NewPostView} {e : NewPostViewEvent} :
    (choices rankLayout gameTypeLayout v e).length ≤ 1 := by
  cases e with
  | text => simp [choices]
  | rankChooser | gameTypeChooser => simp [choices, Option.length_toList_le]

namespace AppView

variable {d : Device} {v v' : AppView} {a : App} {e : AppViewEvent} {writes : List Write}

/-- What an event is for the app that simply chooses. -/
def choices (d : Device) (v : AppView) : AppViewEvent → List AppEvent
  | .launch => [.launch]
  | .board e => (BoardView.choices e).map .board
  | .newPost e =>
    match v.stack with
    | .newPost s :: _ => (s.choices d.rankChooser d.gameTypeChooser e).map .newPost
    | _ => []
  | .toCreatePost => [.toCreatePost]
  | .toSettings => [.toSettings]
  | .toPostDetails .. => []
  | .didSignIn user error => [.didSignIn user error]
  | .logOut signOut => [.logOut signOut]
  | .back =>
    match v.stack with
    | .postDetails :: _ => []
    | _ => [.back]
  | .dismiss => [.dismiss]
  | .buttonPushed key => [.buttonPushed key]

/-- What an event can be for the app that simply chooses. -/
inductive ChoiceOf : AppViewEvent → AppEvent → Prop
  | launch : ChoiceOf .launch .launch
  | board : y ∈ BoardView.choices b → ChoiceOf (.board b) (.board y)
  | newPost : ChoiceOf (.newPost p) (.newPost y)
  | toCreatePost : ChoiceOf .toCreatePost .toCreatePost
  | toSettings : ChoiceOf .toSettings .toSettings
  | didSignIn : ChoiceOf (.didSignIn user error) (.didSignIn user error)
  | logOut : ChoiceOf (.logOut signOut) (.logOut signOut)
  | back : ChoiceOf .back .back
  | dismiss : ChoiceOf .dismiss .dismiss
  | buttonPushed : ChoiceOf (.buttonPushed key) (.buttonPushed key)

theorem choiceOf_of_mem {x : AppEvent} (hx : x ∈ v.choices d e) : ChoiceOf e x := by
  cases e with
  | board e =>
    obtain ⟨y, hy, rfl⟩ := List.mem_map.mp hx
    exact .board hy
  | newPost e =>
    simp only [choices] at hx
    split at hx
    · obtain ⟨y, -, rfl⟩ := List.mem_map.mp hx
      exact .newPost
    · cases hx
  | toPostDetails => cases hx
  | back =>
    simp only [choices] at hx
    split at hx
    · cases hx
    · cases List.mem_singleton.mp hx
      exact .back
  | launch | toCreatePost | toSettings | didSignIn | logOut | dismiss | buttonPushed =>
    cases List.mem_singleton.mp hx
    constructor

/-- The board is on top and takes the touches. -/
structure AtHome (a : AppView) : Prop where
  stack : a.stack = []
  presented : a.presented = none

/-- The controls are sound, and the other app is the same but for them. -/
structure Implements (d : Device) (v : AppView) (a : App) : Prop where
  session : a.session = v.session
  board : a.board = v.board.posts
  controls : v.board.Sound d.board
  stack : ScreenView.Implements d v.stack a.stack
  presented : a.presented = v.presented

theorem implements_launched {defaults : Option Coder} :
    (launched d defaults).Implements d (.launched defaults) where
  session := rfl
  board := rfl
  controls := BoardView.sound_viewDidLoad
  stack := .nil
  presented := rfl

theorem Implements.stack_eq_nil (h : v.Implements d a) (hstack : v.stack = []) :
    a.stack = [] := by
  have hscreens := h.stack
  rw [hstack] at hscreens
  generalize a.stack = stack at hscreens ⊢
  cases hscreens
  rfl

theorem Implements.newPost (h : v.Implements d a) {s : NewPostView} {below : List ScreenView}
    (hstack : v.stack = .newPost s :: below) : ∃ s' below',
    a.stack = .newPost s' :: below' ∧ s.Implements d.rankChooser d.gameTypeChooser s' ∧
      ScreenView.Implements d below below' := by
  have hscreens := h.stack
  rw [hstack] at hscreens
  generalize a.stack = stack at hscreens
  cases hscreens with
  | newPost hs hbelow => exact ⟨_, _, rfl, hs, hbelow⟩

theorem Implements.newPost_error_iff (h : v.Implements d a) (hcomposed : a.Composed)
    {s : NewPostView} {below : List ScreenView} {event : NewPostViewEvent}
    (hstack : v.stack = .newPost s :: below)
    (hen : s.Enabled d.rankChooser d.gameTypeChooser event) {f : Fault ⊕ ControlFault} :
    s.handle d.rankChooser d.gameTypeChooser event = .error f ↔
      f = .inr .assertionFailure ∧ event.Misses d.rankChooser d.gameTypeChooser := by
  obtain ⟨s', below', hstack', hs, -⟩ := h.newPost hstack
  obtain ⟨system, es, -, hrun⟩ := hcomposed.editors s' (hstack' ▸ .head _)
  exact hs.error_iff (NewPostScreen.showsTyped_of_run hrun) hen

theorem Implements.settings (h : v.Implements d a) {below : List ScreenView}
    (hstack : v.stack = .settings :: below) : ∃ below',
    a.stack = .settings :: below' ∧ ScreenView.Implements d below below' := by
  have hscreens := h.stack
  rw [hstack] at hscreens
  generalize a.stack = stack at hscreens
  cases hscreens with
  | settings hbelow => exact ⟨_, rfl, hbelow⟩

/-- Going back from the post details leaves the other app where it is. -/
theorem Implements.back (h : v.Implements d a) (hne : v.stack ≠ []) :
    ∃ a', a.Answers (v.choices d .back) a' [] ∧
      AppView.Implements d { v with stack := v.stack.tail } a' := by
  have hscreens := h.stack
  have hpop {vc : ViewController} {below' : List ViewController} (hstack : a.stack = vc :: below')
      (hbelow : ScreenView.Implements d v.stack.tail below') :
      ∃ a', a.Answers [.back] a' [] ∧
        AppView.Implements d { v with stack := v.stack.tail } a' := by
    have hne' : a.stack ≠ [] := by
      rw [hstack]
      exact List.cons_ne_nil _ _
    refine ⟨_, .single hne' rfl, h.session, h.board, h.controls, ?_, h.presented⟩
    rw [hstack]
    exact hbelow
  simp only [choices]
  generalize v.stack = stack at *
  generalize hstack' : a.stack = stack' at hscreens
  cases hscreens with
  | nil => exact absurd rfl hne
  | newPost _ hbelow => exact hpop hstack' hbelow
  | settings hbelow => exact hpop hstack' hbelow
  | postDetails hbelow =>
    exact ⟨a, .none, h.session, h.board, h.controls, hstack' ▸ hbelow, h.presented⟩

theorem Implements.postWrites (h : v.Implements d a) {s : NewPostView} {below : List ScreenView}
    (hstack : v.stack = .newPost s :: below) (key : String) :
    v.postWrites key = .ok (a.postWrites key) := by
  obtain ⟨s', below', hstack', hs, -⟩ := h.newPost hstack
  simp only [AppView.postWrites, App.postWrites, hstack, hstack', hs.postPost key]
  rfl

/-- The choosers of a pushed screen are sound. -/
theorem Implements.pushed (h : v.Implements d a) {vc : NewPostView}
    (hload : NewPostView.loaded d.rankChooser d.gameTypeChooser
      v.board.posts.controller.currentSelectedSystem ⟨0, 0⟩ = .ok vc) :
    ScreenView.Implements d (.newPost vc :: v.stack)
      (.newPost (.start a.board.controller.currentSelectedSystem ⟨0, 0⟩) :: a.stack) := by
  rw [h.board]
  exact .newPost (NewPostView.implements_of_loaded hload) h.stack

theorem Implements.toCreatePost (h : v.Implements d a) (hok : v.toCreatePost d = .ok v') :
    v'.Implements d a.toCreatePost := by
  unfold App.toCreatePost
  rw [h.session]
  by_cases hset : v.session.currentUser = none
  · simp only [AppView.toCreatePost, hset, if_true] at hok ⊢
    obtain ⟨vc, hload, hok⟩ := Except.of_bind_eq_ok hok
    cases hok
    exact ⟨h.session, h.board, h.controls, h.pushed hload, rfl⟩
  · simp only [AppView.toCreatePost, hset, if_false] at hok ⊢
    obtain ⟨vc, hload, hok⟩ := Except.of_bind_eq_ok hok
    cases hok
    exact ⟨h.session, h.board, h.controls, h.pushed hload, h.presented⟩

theorem Implements.answers_board {e : BoardViewEvent} (h : v.Implements d a)
    (hen : v.Offers d (.board e)) (hok : v.handle d (.board e) = .ok (v', writes)) :
    ∃ a', a.Answers (v.choices d (.board e)) a' writes ∧ v'.Implements d a' := by
  obtain ⟨board, hboard, hok⟩ := Except.of_bind_eq_ok hok
  cases hok
  obtain ⟨hcontrols, hrun⟩ :=
    h.controls.steps (e := e) ⟨hen.1, Except.of_mapError_eq_ok hboard⟩
  rcases hrun.of_length_le_one BoardView.length_choices with ⟨hnil, hposts⟩ | ⟨x, hx, hstep⟩
  · simp only [choices, hnil, List.map_nil]
    exact ⟨a, .none, h.session, h.board.trans hposts.symm, hcontrols, h.stack, h.presented⟩
  · simp only [choices, hx, List.map_cons, List.map_nil]
    rw [← h.board] at hstep
    have hissues : x.issuesRead = e.issuesRead :=
      BoardView.issuesRead_of_mem_choices (hx ▸ List.mem_singleton_self x)
    have honTop : x.issuesRead = true → a.stack = [] := fun h' =>
      h.stack_eq_nil (hen.2 (BoardViewEvent.onTop_of_issuesRead (hissues.symm.trans h')))
    have hhandle : a.board.handle x = .ok board.posts := hstep.2
    refine ⟨{ a with board := board.posts }, .single ⟨hstep.1, honTop⟩ ?_,
      h.session, rfl, hcontrols, h.stack, h.presented⟩
    simp only [App.handle, hhandle]
    rfl

theorem Implements.answers_newPost {e : NewPostViewEvent} (h : v.Implements d a)
    (hen : v.Offers d (.newPost e)) (hok : v.handle d (.newPost e) = .ok (v', writes)) :
    ∃ a', a.Answers (v.choices d (.newPost e)) a' writes ∧ v'.Implements d a' := by
  obtain ⟨s, below, hstack, hen⟩ := hen
  obtain ⟨s₁, below', hstack', hs, hbelow⟩ := h.newPost hstack
  simp only [handle, hstack] at hok
  obtain ⟨s', hs', hok⟩ := Except.of_bind_eq_ok hok
  cases hok
  obtain ⟨s₂, hrun, hs₂⟩ := NewPostView.simulates_newPost _ _ _ _ hs ⟨hen, hs'⟩
  simp only [choices, hstack]
  rcases hrun.of_length_le_one NewPostView.length_choices with ⟨hnil, heq⟩ | ⟨x, hx, hstep⟩
  · simp only [hnil, List.map_nil]
    refine ⟨a, .none, h.session, h.board, h.controls, ?_, h.presented⟩
    rw [hstack', ← heq]
    exact .newPost hs₂ hbelow
  · simp only [hx, List.map_cons, List.map_nil]
    have hhandle : s₁.handle x = .ok s₂ := hstep.2
    refine ⟨{ a with stack := .newPost s₂ :: below' }, .single ⟨s₁, below', hstack', hstep.1⟩ ?_,
      h.session, h.board, h.controls, .newPost hs₂ hbelow, h.presented⟩
    simp only [App.handle, hstack', hhandle]
    rfl

/-- The app that simply chooses answers every event by what the event is for it. -/
theorem Implements.answers (h : v.Implements d a) (hen : v.Offers d e)
    (hok : v.handle d e = .ok (v', writes)) :
    ∃ a', a.Answers (v.choices d e) a' writes ∧ v'.Implements d a' := by
  cases e with
  | launch =>
    cases hok
    refine ⟨_, .single trivial rfl, ?_⟩
    rw [h.session]
    exact implements_launched
  | board e => exact h.answers_board hen hok
  | newPost e => exact h.answers_newPost hen hok
  | toCreatePost =>
    obtain ⟨v₁, hcreate, hok⟩ := Except.of_bind_eq_ok hok
    cases hok
    refine ⟨_, .single (h.stack_eq_nil hen.1) rfl, ?_⟩
    exact h.toCreatePost (Except.of_mapError_eq_ok hcreate)
  | toSettings =>
    cases hok
    refine ⟨_, .single (h.stack_eq_nil hen) rfl, ?_⟩
    unfold AppView.toSettings App.toSettings
    rw [h.session]
    split
    · exact ⟨h.session, h.board, h.controls, h.stack, rfl⟩
    · exact ⟨h.session, h.board, h.controls, .settings h.stack, h.presented⟩
  | toPostDetails =>
    cases hok
    exact ⟨a, .none, h.session, h.board, h.controls, .postDetails h.stack, h.presented⟩
  | didSignIn user error =>
    obtain ⟨⟨session, writes'⟩, hsignIn, hok⟩ := Except.of_bind_eq_ok hok
    cases hok
    have hsignIn := Except.of_mapError_eq_ok hsignIn
    refine ⟨{ a with session }, .single trivial ?_, rfl, h.board, h.controls, h.stack, h.presented⟩
    simp only [App.handle, h.session, hsignIn]
    rfl
  | logOut signOut =>
    cases hok
    obtain ⟨below, hstack⟩ := hen
    obtain ⟨below', hstack', hbelow⟩ := h.settings hstack
    refine ⟨_, .single ⟨below', hstack'⟩ rfl, ?_⟩
    rw [h.session]
    refine ⟨rfl, h.board, h.controls, ?_, h.presented⟩
    split
    · rw [hstack, hstack']
      exact hbelow
    · exact h.stack
  | back =>
    cases hok
    exact h.back hen
  | dismiss =>
    cases hok
    exact ⟨_, .single trivial rfl, h.session, h.board, h.controls, h.stack, rfl⟩
  | buttonPushed key =>
    obtain ⟨s, below, hstack⟩ := hen
    obtain ⟨s', below', hstack', -, -⟩ := h.newPost hstack
    obtain ⟨writes', hwrites, hok⟩ := Except.of_bind_eq_ok hok
    cases hok
    have hwrites := Except.of_mapError_eq_ok hwrites
    rw [h.postWrites hstack] at hwrites
    cases hwrites
    exact ⟨a, .single ⟨s', below', hstack'⟩ rfl, h⟩

/-- A user that is not logged in is told so, over the post screen. -/
theorem handle_toCreatePost {s : NewPostView}
    (hload : NewPostView.loaded d.rankChooser d.gameTypeChooser
      v.board.posts.controller.currentSelectedSystem ⟨0, 0⟩ = .ok s) :
    ∃ presented, v.handle d .toCreatePost =
      .ok ({ v with presented, stack := .newPost s :: v.stack }, []) := by
  by_cases hset : v.session.currentUser = none
  · refine ⟨some (.alert "Please Log In" "You need to log in in order to post"), ?_⟩
    simp only [AppView.handle, AppView.toCreatePost, hset, if_true, AppView.present, hload]
    rfl
  · refine ⟨v.presented, ?_⟩
    simp only [AppView.handle, AppView.toCreatePost, hset, if_false, hload]
    rfl

/-- An event that is offered faults exactly if it is one of the board itself that faults there, or a
tap on no segment. -/
theorem Implements.error_iff (h : v.Implements d a) (hcomposed : a.Composed) (hen : v.Offers d e)
    {f : Fault ⊕ ControlFault} : v.handle d e = .error f ↔
      (∃ event f', e = .board (.posts event) ∧ f = .inl f' ∧
        a.handle (.board event) = .error f') ∨ f = .inr .assertionFailure ∧ e.Misses d := by
  constructor
  · intro hfault
    cases e with
    | board e =>
      obtain ⟨f', hboard, rfl⟩ :=
        Except.mapError_eq_error_iff.mp (Except.bind_pure_eq_error_iff.mp hfault)
      obtain ⟨event, rfl, hevent⟩ := BoardView.eq_posts_of_error hen.1 hboard
      rw [← h.board] at hevent
      exact .inl ⟨event, f', rfl, rfl, Except.bind_pure_eq_error_iff.mpr hevent⟩
    | newPost e =>
      obtain ⟨s, below, hstack, hen⟩ := hen
      simp only [handle, hstack] at hfault
      exact .inr ((h.newPost_error_iff hcomposed hstack hen).mp
        (Except.bind_pure_eq_error_iff.mp hfault))
    | toCreatePost =>
      obtain ⟨vc, hload⟩ := NewPostView.loaded_ok d.rankChooser d.gameTypeChooser
        v.board.posts.controller.currentSelectedSystem ⟨0, 0⟩
      obtain ⟨presented, hok⟩ := handle_toCreatePost (d := d) hload
      cases hok.symm.trans hfault
    | didSignIn user error =>
      cases error with
      | none => cases user <;> cases hfault
      | some error => cases user <;> cases hfault
    | buttonPushed key =>
      obtain ⟨s, below, hstack⟩ := hen
      simp only [handle, h.postWrites hstack key] at hfault
      cases hfault
    | launch | toSettings | toPostDetails | logOut | back | dismiss => cases hfault
  · rintro (⟨event, f', rfl, rfl, hevent⟩ | ⟨rfl, hmiss⟩)
    · have hposts : a.board.handle event = .error f' := Except.bind_pure_eq_error_iff.mp hevent
      rw [h.board] at hposts
      exact Except.bind_pure_eq_error_iff.mpr (Except.mapError_eq_error_iff.mpr
        ⟨f', Except.bind_pure_eq_error_iff.mpr hposts, rfl⟩)
    · cases e with
      | newPost e =>
        obtain ⟨s, below, hstack, hen⟩ := hen
        simp only [handle, hstack]
        exact Except.bind_pure_eq_error_iff.mpr
          ((h.newPost_error_iff hcomposed hstack hen).mpr ⟨rfl, hmiss⟩)
      | launch | board | toCreatePost | toSettings | toPostDetails | didSignIn | logOut | back
        | dismiss | buttonPushed => cases hmiss

end AppView

/-! ## Clients -/

namespace WorldView

variable {ι : Type} {d : Device} {v v' : WorldView ι} {w : World ι} {i : ι} {e : AppViewEvent}
  {es : List (ι × AppViewEvent)} {defaults : ι → Option Coder}

/-- What an event of a client is for the clients that simply choose. -/
def choices (d : Device) (v : WorldView ι) (e : ι × AppViewEvent) : List (ι × AppEvent) :=
  ((v.clients e.1).choices d e.2).map (e.1, ·)

structure Implements (d : Device) (v : WorldView ι) (w : World ι) : Prop where
  clients : ∀ i, (v.clients i).Implements d (w.clients i)
  database : w.database = v.database

theorem start_implements : (start d defaults).Implements d (.start defaults) where
  clients _ := AppView.implements_launched
  database := rfl

/-- What may come next may come next for the clients that simply choose. -/
theorem Implements.enabled (h : v.Implements d w) (hen : v.Enabled d (i, e)) {x : AppEvent}
    (hx : x ∈ (v.clients i).choices d e) (hen' : (w.clients i).Enabled x) : w.Enabled (i, x) := by
  refine ⟨hen', ?_⟩
  cases AppView.choiceOf_of_mem hx with
  | @board b event hevent =>
    cases event with
    | readCallback ticket result =>
      cases result with
      | error message => trivial
      | value order value =>
        have heq := BoardView.eq_posts_of_mem_choices hevent fun button string heq => by cases heq
        subst heq
        intro path hpath
        rw [(h.clients i).board] at hpath
        rw [h.database]
        exact hen.2 path hpath
    | viewDidAppear | dropDownClicked | headerTap | cellForRow | headerReappears => trivial
  | buttonPushed =>
    obtain ⟨s, below, hstack⟩ := hen.1.1
    intro write hwrite
    rw [h.database]
    exact hen.2 _ ((h.clients i).postWrites hstack _) write hwrite
  | launch | newPost | toCreatePost | toSettings | didSignIn | logOut | back | dismiss => trivial

/-- The two faults: a table asks for a cell while all its lists are empty, and a tap on a chooser is
on no segment. -/
theorem Implements.error_iff (h : v.Implements d w) (hsound : w.Sound) (hen : v.Enabled d (i, e))
    {f : Fault ⊕ ControlFault} : (v.clients i).handle d e = .error f ↔
      (f = .inl .indexOutOfRange ∧ (∃ s row, e = .board (.posts (.cellForRow s row))) ∧
        ∀ tier, (v.clients i).board.posts.controller.posts tier = []) ∨
      f = .inr .assertionFailure ∧ e.Misses d := by
  rw [(h.clients i).error_iff (hsound.clients i) hen.1.1]
  refine or_congr_left ?_
  -- what faults there may come next there
  have hen' (event : PostsEvent) (heq : e = .board (.posts event)) :
      w.Enabled (i, .board event) := by
    subst heq
    refine h.enabled hen (.head _) ⟨(h.clients i).board ▸ hen.1.1.1.2, fun hissues => ?_⟩
    exact (h.clients i).stack_eq_nil (hen.1.1.2 (BoardViewEvent.onTop_of_issuesRead hissues))
  have hlists : (w.clients i).board = (v.clients i).board.posts := (h.clients i).board
  constructor
  · rintro ⟨event, f', rfl, rfl, hevent⟩
    obtain ⟨rfl, ⟨s, row, hcell⟩, hnil⟩ := (hsound.handle_error_iff (hen' event rfl)).mp hevent
    cases hcell
    rw [hlists] at hnil
    exact ⟨rfl, ⟨s, row, rfl⟩, hnil⟩
  · rintro ⟨rfl, ⟨s, row, rfl⟩, hnil⟩
    rw [← hlists] at hnil
    exact ⟨_, _, rfl, rfl,
      (hsound.handle_error_iff (hen' _ rfl)).mpr ⟨rfl, ⟨s, row, rfl⟩, hnil⟩⟩

variable [DecidableEq ι]

theorem Implements.update (h : v.Implements d w) {a : AppView} {b : App} (hab : a.Implements d b)
    (writes : List Write) :
    Implements d ⟨Function.update v.clients i a, v.database.apply writes⟩
      ⟨Function.update w.clients i b, w.database.apply writes⟩ where
  clients j := by
    by_cases hj : j = i
    · subst hj
      simpa only [Function.update_self] using hab
    · simpa only [Function.update_of_ne hj] using h.clients j
  database := by rw [h.database]

theorem steps_of_handle (hen : v.Enabled d (i, e)) {r : AppView × List Write}
    (h : (v.clients i).handle d e = .ok r) :
    (worldViewMachine d ι).Steps v (i, e)
      ⟨Function.update v.clients i r.1, v.database.apply r.2⟩ := by
  refine ⟨hen, ?_⟩
  simp only [worldViewMachine, handle, h]
  rfl

theorem simulates_world : (worldViewMachine d ι).Simulation (worldMachine ι) (choices d)
    (Implements d) := by
  rintro v w ⟨i, e⟩ v' h ⟨hen, hok⟩
  obtain ⟨⟨a, writes⟩, hhandle, hok⟩ := Except.of_bind_eq_ok hok
  cases hok
  obtain ⟨b, hanswers, hab⟩ := (h.clients i).answers hen.1.1 hhandle
  have hupdate := h.update (i := i) hab writes
  have henabled (x : AppEvent) (hx : x ∈ (v.clients i).choices d e)
      (hen' : (w.clients i).Enabled x) : w.Enabled (i, x) := h.enabled hen hx hen'
  simp only [choices]
  revert hanswers henabled
  generalize (v.clients i).choices d e = xs
  intro hanswers henabled
  cases hanswers with
  | none =>
    rw [Function.update_eq_self] at hupdate
    exact ⟨w, .nil, hupdate⟩
  | single hen' hhandle' =>
    exact ⟨_, .single (World.steps_of_handle (henabled _ (.head _) hen') hhandle'), hupdate⟩

theorem Implements.exists_steps (h : v.Implements d w) (hsound : w.Sound)
    (hen : v.Enabled d (i, e)) (hcell : ∀ s row, e ≠ .board (.posts (.cellForRow s row)))
    (hmiss : ¬ e.Misses d) : ∃ v', (worldViewMachine d ι).Steps v (i, e) v' := by
  cases hhandle : (v.clients i).handle d e with
  | ok r => exact ⟨_, steps_of_handle hen hhandle⟩
  | error f =>
    rcases (h.error_iff hsound hen).mp hhandle with ⟨-, ⟨s, row, heq⟩, -⟩ | ⟨-, hmiss'⟩
    · exact absurd heq (hcell s row)
    · exact absurd hmiss' hmiss

/-! ## A run on two devices -/

/-- The clients, one of them in another state. -/
def setClient (v : WorldView ι) (i : ι) (a : AppView) : WorldView ι where
  clients := Function.update v.clients i a
  database := v.database

@[simp] theorem clients_setClient {a : AppView} : (v.setClient i a).clients i = a :=
  Function.update_self ..

@[simp] theorem setClient_setClient {a b : AppView} :
    (v.setClient i a).setClient i b = v.setClient i b :=
  congrArg (WorldView.mk · v.database) (Function.update_idem ..)

@[simp] theorem setClient_clients : v.setClient i (v.clients i) = v :=
  congrArg (WorldView.mk · v.database) (Function.update_eq_self ..)

theorem steps_setClient {a b : AppView} (hen : (v.setClient i a).Enabled d (i, e))
    (h : a.handle d e = .ok (b, [])) :
    (worldViewMachine d ι).Steps (v.setClient i a) (i, e) (v.setClient i b) := by
  have hstep := steps_of_handle hen (r := (b, [])) (by rw [clients_setClient]; exact h)
  have hstep : (worldViewMachine d ι).Steps (v.setClient i a) (i, e)
      ((v.setClient i a).setClient i b) := hstep
  rwa [setClient_setClient] at hstep

/-- A run of the post screen on top of a client is a run of the clients. -/
theorem run_newPost {below : List ScreenView} {s s' : NewPostView} {events : List NewPostViewEvent}
    (hstack : (v.clients i).stack = .newPost s :: below)
    (hpresented : (v.clients i).presented = none)
    (hrun : (newPostViewMachine d.rankChooser d.gameTypeChooser).Run s events s') :
    (worldViewMachine d ι).Run v (events.flatMap fun e => [(i, .newPost e)])
      (v.setClient i { v.clients i with stack := .newPost s' :: below }) := by
  have hproject : (worldViewMachine d ι).Run
      (v.setClient i { v.clients i with stack := .newPost s :: below })
      (events.flatMap fun e => [(i, .newPost e)])
      (v.setClient i { v.clients i with stack := .newPost s' :: below }) := by
    refine hrun.project
      (f := fun s => v.setClient i { v.clients i with stack := .newPost s :: below })
      fun s e s' ⟨hen, hok⟩ => .single (steps_setClient ⟨⟨?_, fun _ => ?_⟩, trivial⟩ ?_)
    · rw [clients_setClient]
      exact ⟨s, below, rfl, hen⟩
    · rw [clients_setClient]
      exact hpresented
    · have hok : s.handle d.rankChooser d.gameTypeChooser e = .ok s' := hok
      simp only [AppView.handle, hok]
      rfl
  rwa [← hstack, setClient_clients] at hproject

def phone : Device where
  board := BoardView.phone
  rankChooser := NewPostView.sevenSegments
  gameTypeChooser := SegmentedScreen.fourSegments

/-- The first client opens the post screen, is told to log in, taps the third rank and the third
game type and posts; the second opens the list of game types. -/
def goldPosted : List (Bool × AppViewEvent) :=
  [(false, .toCreatePost), (false, .dismiss)] ++
    (NewPostView.thirdTaps.flatMap fun e => [(false, .newPost e)]) ++
    [(false, .buttonPushed "-K1")] ++ [(true, .board (.touchesBegan .gameTypeDropDown))]

theorem run_goldPosted : ∃ v,
    (worldViewMachine phone Bool).Run (start phone fun _ => none) goldPosted v ∧
      (v.clients true).AtHome ∧ (v.clients true).board =
        (BoardView.viewDidLoad BoardView.phone).touchesBegan BoardView.phone .gameTypeDropDown := by
  obtain ⟨s, s', hload, hrun⟩ := NewPostView.exists_thirdTaps
  obtain ⟨t, -, ht⟩ :=
    NewPostView.simulates_newPost.run (NewPostView.implements_of_loaded hload) hrun
  let v : WorldView Bool := start phone fun _ => none
  let a : AppView := .launched phone none
  let told : AppView := a.present
    (.alert "Please Log In" "You need to log in in order to post")
  have hcreate : a.toCreatePost phone = .ok { told with stack := [.newPost s] } := by
    show (NewPostView.loaded NewPostView.sevenSegments SegmentedScreen.fourSegments "PS4" ⟨0, 0⟩ >>=
      fun vc => pure (told.push (.newPost vc))) = _
    rw [hload]
    rfl
  have hvisible : (667 : CGFloat) - 120 < 667 := by norm_num
  have hhandle : a.handle phone .toCreatePost = .ok ({ told with stack := [.newPost s] }, []) := by
    rw [AppView.handle, hcreate]
    rfl
  have hopen : (worldViewMachine phone Bool).Steps v (false, .toCreatePost)
      (v.setClient false { told with stack := [.newPost s] }) :=
    steps_of_handle (d := phone) (v := v) (i := false) (e := .toCreatePost)
      ⟨⟨⟨rfl, hvisible⟩, fun _ => rfl⟩, trivial⟩ hhandle
  have hdismiss : (worldViewMachine phone Bool).Steps
      (v.setClient false { told with stack := [.newPost s] }) (false, .dismiss)
      (v.setClient false { a with stack := [.newPost s] }) := by
    refine steps_setClient ⟨⟨?_, by rintro ⟨⟩⟩, trivial⟩ rfl
    rw [clients_setClient]
    exact Option.some_ne_none _
  have hchosen := (Machine.Run.cons hopen (.single hdismiss)).append
    (run_newPost (i := false) rfl rfl hrun)
  have hwrites : AppView.postWrites { a with stack := [.newPost s'] } "-K1" =
      .ok [t.controller.postWrite "-K1"] := by
    simp only [AppView.postWrites, ht.postPost, NewPostController.postPost_eq]
    rfl
  have hhandle' : AppView.handle phone { a with stack := [.newPost s'] } (.buttonPushed "-K1") =
      .ok ({ a with stack := [.newPost s'] }, [t.controller.postWrite "-K1"]) := by
    rw [AppView.handle, hwrites]
    rfl
  have hauto (p : Path) : IsAutoId .empty p "-K1" :=
    ⟨by rw [Store.get_empty]; rfl, by decide, rfl⟩
  have hpost := hchosen.snoc (steps_of_handle (i := false) (e := .buttonPushed "-K1")
    ⟨⟨⟨s', [], rfl⟩, fun _ => rfl⟩, fun writes _ write _ => hauto _⟩ hhandle')
  have htouch := hpost.snoc (e := (true, AppViewEvent.board (.touchesBegan .gameTypeDropDown)))
    ⟨⟨⟨⟨trivial, fun _ => rfl⟩, fun _ => rfl⟩, trivial⟩, rfl⟩
  exact ⟨_, htouch, ⟨rfl, rfl⟩, rfl⟩

/-! ## Whole runs -/

end WorldView
end RLFinder
