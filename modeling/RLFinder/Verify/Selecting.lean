import RLFinder.Verify.AppViewRefinement

/-!
# What is touched and what is shown

A board that is read lists what has been posted, selected by the titles of its drop-downs and filed
by what the choosers had for their current segments (`listed_of_titles`). From every state the
clients can reach, any options can be chosen and shown by the drop-downs of one device
(`selectable`).
-/

namespace RLFinder

/-- What would be posted: the current segments of the choosers, wherever their selectors lie, and the
text shown, which is the placeholder until something is typed. -/
def NewPostView.post (v : NewPostView) : Post where
  system := v.editor.controller.currentSelectedSystem
  gameType := segmentGameType (segmentOf 4 v.gameTypeChooser.control.currentSegment)
  tier := segmentOf 7 v.rankChooser.control.currentSegment
  body := String.ofList v.editor.controller.postBody.text

/-- The options that the drop-downs show. -/
def BoardView.titles (v : BoardView) : Selection where
  system := v.systemDropDown.title
  gameType := v.gameTypeDropDown.title

/-- A selection with one of the options chosen anew. -/
def Selection.choose (selection : Selection) (string : String) : DropDown → Selection
  | .systemDropDown => { selection with system := string }
  | .gameTypeDropDown => { selection with gameType := string }

namespace BoardView

variable {l : BoardLayout} {v : BoardView} {b : DropDown} {string : String}

theorem titles_touchesBegan : (v.touchesBegan l b).titles = v.titles := by
  simp only [touchesBegan]
  split <;> cases b <;> rfl

theorem titles_dropDownClicked :
    (v.dropDownClicked b string).titles = v.titles.choose string b := by
  cases b <;> rfl

end BoardView

/-- The touches of the drop-downs, and what else it takes to fill the lists. -/
def BoardViewEvent.chooses : BoardViewEvent → Bool
  | touchesBegan _ | didSelectRow .. | posts .viewDidAppear | posts (.readCallback ..) => true
  | posts _ | scrollViewWillBeginDragging | scrollViewDidScroll _ => false

namespace WorldView

variable {ι : Type} {d : Device} {v v' : WorldView ι} {w : World ι} {i : ι} {e : AppViewEvent}
  {es : List (ι × AppViewEvent)} {defaults : ι → Option Coder}

/-- The events that leave the lists of a client's board alone: no launch, no read, and no answer but
an error. -/
def Undisturbing : AppViewEvent → Prop
  | .launch => False
  | .board event => event.issuesRead = false ∧ ∀ ticket order value,
      event ≠ .posts (.readCallback ticket (.value order value))
  | _ => True

/-- What an event posts. -/
def posts (v : WorldView ι) (e : ι × AppViewEvent) : List Post :=
  match e.2 with
  | .buttonPushed _ =>
    match (v.clients e.1).stack with
    | .newPost s :: _ => [s.post]
    | _ => []
  | _ => []

theorem posts_eq_nil {e : ι × AppViewEvent} (h : ∀ key, e.2 ≠ .buttonPushed key) :
    v.posts e = [] := by
  obtain ⟨i, e⟩ := e
  cases e with
  | buttonPushed key => exact absurd rfl (h key)
  | _ => rfl

theorem undisturbing_of_mem_choices {x : AppEvent} (h : Undisturbing e)
    (hx : x ∈ (v.clients i).choices d e) : World.Undisturbing x := by
  cases AppView.choiceOf_of_mem hx with
  | board hevent =>
    refine ⟨(BoardView.issuesRead_of_mem_choices hevent).trans h.1, ?_⟩
    rintro ticket order value rfl
    exact h.2 ticket order value
      (BoardView.eq_posts_of_mem_choices hevent fun button string heq => by cases heq)
  | launch => exact h
  | newPost | toCreatePost | toSettings | didSignIn | logOut | back | dismiss | buttonPushed =>
    trivial

/-- A user goes back to the board and chooses from its drop-downs, and nothing else happens. -/
def OnlyChooses (i : ι) (es : List (ι × AppViewEvent)) : Prop :=
  ∀ e ∈ es, e = (i, .dismiss) ∨ e = (i, .back) ∨
    ∃ event : BoardViewEvent, e = (i, .board event) ∧ event.chooses = true

theorem OnlyChooses.append {es' : List (ι × AppViewEvent)} (h : OnlyChooses i es)
    (h' : OnlyChooses i es') : OnlyChooses i (es ++ es') := List.forall_mem_append.mpr ⟨h, h'⟩

theorem OnlyChooses.single {event : BoardViewEvent} (h : event.chooses = true) :
    OnlyChooses i [(i, .board event)] :=
  List.forall_mem_singleton.mpr (.inr (.inr ⟨event, rfl, h⟩))

/-- The events that neither post nor change the session. -/
def prepares : AppViewEvent → Bool
  | .launch | .didSignIn .. | .logOut _ | .buttonPushed _ => false
  | .board _ | .newPost _ | .toCreatePost | .toSettings | .toPostDetails .. | .back
    | .dismiss => true

/-- The app is used on one device, where nobody posts, signs in or out or starts it anew. -/
def OnlyPrepares (i : ι) (es : List (ι × AppViewEvent)) : Prop :=
  ∀ e ∈ es, e.1 = i ∧ prepares e.2 = true

theorem OnlyPrepares.append {es' : List (ι × AppViewEvent)} (h : OnlyPrepares i es)
    (h' : OnlyPrepares i es') : OnlyPrepares i (es ++ es') := List.forall_mem_append.mpr ⟨h, h'⟩

theorem OnlyPrepares.single (h : prepares e = true) : OnlyPrepares i [(i, e)] :=
  List.forall_mem_singleton.mpr ⟨rfl, h⟩

theorem OnlyChooses.onlyPrepares (h : OnlyChooses i es) : OnlyPrepares i es := by
  intro e he
  rcases h e he with rfl | rfl | ⟨event, rfl, -⟩ <;> exact ⟨rfl, rfl⟩

theorem handle_of_prepares {a a' : AppView} {writes : List Write} (he : prepares e = true)
    (hok : a.handle d e = .ok (a', writes)) : writes = [] ∧ a'.session = a.session := by
  cases e with
  | board event =>
    obtain ⟨board, -, hok⟩ := Except.of_bind_eq_ok hok
    cases hok
    exact ⟨rfl, rfl⟩
  | newPost event =>
    simp only [AppView.handle] at hok
    split at hok
    · obtain ⟨s, -, hok⟩ := Except.of_bind_eq_ok hok
      cases hok
      exact ⟨rfl, rfl⟩
    · cases hok
      exact ⟨rfl, rfl⟩
  | toCreatePost =>
    obtain ⟨a₁, hcreate, hok⟩ := Except.of_bind_eq_ok hok
    cases hok
    obtain ⟨vc, -, hcreate⟩ := Except.of_bind_eq_ok (Except.of_mapError_eq_ok hcreate)
    cases hcreate
    refine ⟨rfl, ?_⟩
    show (if _ then _ else _ : AppView).session = _
    split <;> rfl
  | toSettings =>
    cases hok
    refine ⟨rfl, ?_⟩
    unfold AppView.toSettings
    split <;> rfl
  | toPostDetails | back | dismiss =>
    cases hok
    exact ⟨rfl, rfl⟩
  | launch | didSignIn | logOut | buttonPushed => cases he

/-- An event that reads is a read for the clients that simply choose. -/
theorem exists_read {event : BoardViewEvent} (hen : v.Enabled d (i, .board event))
    (hissues : event.issuesRead = true) :
    ∃ x, choices d v (i, .board event) = [(i, .board x)] ∧ x.issuesRead = true := by
  cases event with
  | posts x => exact ⟨x, rfl, hissues⟩
  | didSelectRow button row =>
    refine ⟨.dropDownClicked button (button.dropDownOptions.get ⟨row, hen.1.1.1.2⟩), ?_, rfl⟩
    have hget := getElem?_pos button.dropDownOptions row hen.1.1.1.2
    simp only [choices, AppView.choices, BoardView.choices, hget]
    rfl
  | touchesBegan | scrollViewWillBeginDragging | scrollViewDidScroll => cases hissues

variable [DecidableEq ι]

/-- What has been posted in a run, oldest first. -/
def posted (d : Device) (v : WorldView ι) (es : List (ι × AppViewEvent)) : List Post :=
  (worldViewMachine d ι).observations posts v es

theorem Implements.posted_choices (h : v.Implements d w)
    (hstep : (worldViewMachine d ι).Steps v (i, e) v') :
    World.posted w (choices d v (i, e)) = v.posts (i, e) := by
  obtain ⟨w', hw, -⟩ := simulates_world _ _ _ _ h hstep
  by_cases hpush : ∃ key, e = .buttonPushed key
  · obtain ⟨key, rfl⟩ := hpush
    obtain ⟨s, below, hstack⟩ := hstep.1.1.1
    obtain ⟨s', below', hstack', hs, -⟩ := (h.clients i).newPost hstack
    have hannounced : World.announced w (choices d v (i, .buttonPushed key)) =
        [.publish s'.controller.post] := by
      refine Machine.observations_singleton.trans ?_
      simp only [World.announcements, hstack']
    rw [World.posted, hannounced, hs.screen]
    simp only [posts, hstack]
    rfl
  · rw [posts_eq_nil fun key hkey => hpush ⟨key, hkey⟩]
    refine World.posted_eq_nil hw fun x hx key hkey => hpush ?_
    obtain ⟨y, hy, rfl⟩ := List.mem_map.mp hx
    have hkey : y = .buttonPushed key := hkey
    rw [hkey] at hy
    cases AppView.choiceOf_of_mem hy with
    | buttonPushed => exact ⟨key, rfl⟩

theorem Implements.posted_of_run {v₀ : WorldView ι} {w₀ : World ι} (h : v₀.Implements d w₀)
    (hrun : (worldViewMachine d ι).Run v₀ es v) :
    World.posted w₀ ((worldViewMachine d ι).observations (choices d) v₀ es) = posted d v₀ es := by
  induction hrun with
  | nil => rfl
  | @snoc es v e v' hrun hstep ih =>
    obtain ⟨w, hw, hv⟩ := simulates_world.run h hrun
    rw [posted, Machine.observations_snoc hrun, Machine.observations_snoc hrun,
      World.posted_append hw, ih, hv.posted_choices hstep]
    rfl

theorem undisturbing_of_run {v₀ : WorldView ι} (hrun : (worldViewMachine d ι).Run v₀ es v)
    (hquiet : ∀ e ∈ es, e.1 = i → Undisturbing e.2) :
    ∀ x ∈ (worldViewMachine d ι).observations (choices d) v₀ es,
      x.1 = i → World.Undisturbing x.2 := by
  induction hrun with
  | nil =>
    intro x hx
    cases hx
  | @snoc es v e v' hrun _ ih =>
    intro x hx hi
    rw [Machine.observations_snoc hrun] at hx
    rcases List.mem_append.mp hx with hx | hx
    · exact ih (fun e he => hquiet e (List.mem_append_left _ he)) x hx hi
    · obtain ⟨y, hy, rfl⟩ := List.mem_map.mp hx
      exact undisturbing_of_mem_choices (hquiet e (List.mem_append_right _ (.head _)) hi) hy

/-- Events that leave the lists of a board alone leave its titles alone. -/
theorem titles_of_run {v₀ : WorldView ι} {w₀ : World ι} (h : v₀.Implements d w₀)
    (hrun : (worldViewMachine d ι).Run v₀ es v)
    (hquiet : ∀ e ∈ es, e.1 = i → Undisturbing e.2) :
    (v.clients i).board.titles = (v₀.clients i).board.titles := by
  obtain ⟨w, hw, hv⟩ := simulates_world.run h hrun
  have hselection := World.selection_of_run hw (undisturbing_of_run hrun hquiet)
  rw [(hv.clients i).board, (h.clients i).board] at hselection
  exact (hv.clients i).controls.selection.symm.trans
    (hselection.trans (h.clients i).controls.selection)

section Read
variable {v₁ v₂ v₃ v₄ : WorldView ι} {event : BoardViewEvent}
  {order : IterationOrder Any (List (String × String))} {value : Any}

theorem listed_of_answered {es₁ es₂ : List (ι × AppViewEvent)}
    (hrun : (worldViewMachine d ι).Run (start d defaults) es₁ v₁)
    (hread : (worldViewMachine d ι).Steps v₁ (i, .board event) v₂)
    (hissues : event.issuesRead = true)
    (hmeanwhile : (worldViewMachine d ι).Run v₂ es₂ v₃)
    (hquiet : ∀ e ∈ es₂, e.1 = i → Undisturbing e.2)
    (hanswer : (worldViewMachine d ι).Steps v₃ (i, .board (.posts (.readCallback
      (v₁.clients i).board.posts.issued.length (.value order value)))) v₄) (tier : Fin 7) :
    ((v₄.clients i).board.posts.controller.posts tier).Perm
      ((v₂.clients i).board.titles.listed
        (posted d (start d defaults) (es₁ ++ (i, .board event) :: es₂)) tier) := by
  obtain ⟨w₁, hw₁, h₁⟩ := simulates_world.run start_implements hrun
  obtain ⟨w₂, hw₂, h₂⟩ := simulates_world _ _ _ _ h₁ hread
  obtain ⟨w₃, hw₃, h₃⟩ := simulates_world.run h₂ hmeanwhile
  obtain ⟨w₄, hw₄, h₄⟩ := simulates_world _ _ _ _ h₃ hanswer
  obtain ⟨x, hx, hxissues⟩ := exists_read hread.1 hissues
  have hposted := start_implements.posted_of_run (hrun.append (.cons hread hmeanwhile))
  rw [Machine.observations_append hrun, Machine.observations_cons hread, hx] at hposted
  rw [hx] at hw₂
  have hanswer' : (worldMachine ι).Steps w₃ (i, .board (.readCallback
      (v₁.clients i).board.posts.issued.length (.value order value))) w₄ :=
    Machine.Run.single_inv hw₄
  rw [← (h₁.clients i).board] at hanswer'
  have hlisted := World.listed_of_answered hw₁ hw₂.single_inv hxissues hw₃
    (undisturbing_of_run hmeanwhile hquiet) hanswer' tier
  rw [(h₂.clients i).board, (h₂.clients i).controls.selection, (h₄.clients i).board] at hlisted
  rw [← hposted]
  exact hlisted

/-- A board appears, or one of its options is tapped, and the read is answered with nothing else
arriving for the board in between, whatever is touched elsewhere and on the other devices: each
section then lists exactly the posts sent off so far from a post screen for the system in the one
title, while the game type in the other and the rank of the section were the current segments of its
choosers, each by the text that its screen showed. -/
theorem listed_of_titles {es₁ es₂ : List (ι × AppViewEvent)}
    (hrun : (worldViewMachine d ι).Run (start d defaults) es₁ v₁)
    (hread : (worldViewMachine d ι).Steps v₁ (i, .board event) v₂)
    (hissues : event.issuesRead = true)
    (hmeanwhile : (worldViewMachine d ι).Run v₂ es₂ v₃)
    (hquiet : ∀ e ∈ es₂, e.1 = i → Undisturbing e.2)
    (hanswer : (worldViewMachine d ι).Steps v₃ (i, .board (.posts (.readCallback
      (v₁.clients i).board.posts.issued.length (.value order value)))) v₄) (tier : Fin 7) :
    ((v₄.clients i).board.posts.controller.posts tier).Perm
      ((v₃.clients i).board.titles.listed
        (posted d (start d defaults) (es₁ ++ (i, .board event) :: es₂)) tier) := by
  obtain ⟨w, -, h⟩ := simulates_world.run start_implements (hrun.snoc hread)
  rw [titles_of_run h hmeanwhile hquiet]
  exact listed_of_answered hrun hread hissues hmeanwhile hquiet hanswer tier

end Read

/-! ## Touches of one device -/

/-- The event of a board changes its board. -/
theorem board_of_steps {event : BoardViewEvent}
    (hstep : (worldViewMachine d ι).Steps v (i, .board event) v') :
    ∃ board, (v.clients i).board.handle d.board event = .ok board ∧
      v' = v.setClient i { v.clients i with board } := by
  obtain ⟨r, hhandle, hok⟩ := Except.of_bind_eq_ok hstep.2
  cases hok
  obtain ⟨board, hboard, hok⟩ := Except.of_bind_eq_ok hhandle
  cases hok
  exact ⟨board, Except.of_mapError_eq_ok hboard, rfl⟩

theorem steps_of_board {event : BoardViewEvent} {board : BoardView}
    (hen : v.Enabled d (i, .board event))
    (h : (v.clients i).board.handle d.board event = .ok board) :
    (worldViewMachine d ι).Steps v (i, .board event)
      (v.setClient i { v.clients i with board }) := by
  have hhandle : (v.clients i).handle d (.board event) =
      .ok ({ v.clients i with board }, []) := by
    rw [AppView.handle, h]
    rfl
  exact steps_of_handle hen hhandle

/-- At home every touch of the board goes to the board. -/
theorem steps_of_home {event : BoardViewEvent} {board : BoardView} (h : (v.clients i).AtHome)
    (hen : (v.clients i).board.Enabled event)
    (hanswer : ∀ ticket result, event ≠ .posts (.readCallback ticket result))
    (hok : (v.clients i).board.handle d.board event = .ok board) :
    (worldViewMachine d ι).Steps v (i, .board event)
      (v.setClient i { v.clients i with board }) := by
  refine steps_of_board ⟨⟨⟨hen, fun _ => h.stack⟩, fun _ => h.presented⟩, ?_⟩ hok
  cases event with
  | posts e =>
    cases e with
    | readCallback ticket result => exact absurd rfl (hanswer ticket result)
    | viewDidAppear | dropDownClicked | headerTap | cellForRow | headerReappears => trivial
  | touchesBegan | didSelectRow | scrollViewWillBeginDragging | scrollViewDidScroll => trivial

theorem issue_of_read {event : BoardViewEvent}
    (hread : (worldViewMachine d ι).Steps v (i, .board event) v')
    (hissues : event.issuesRead = true) :
    ∃ r, (v'.clients i).board.posts = (v.clients i).board.posts.issue r := by
  obtain ⟨board, hboard, rfl⟩ := board_of_steps hread
  rw [clients_setClient]
  cases event with
  | posts x =>
    obtain ⟨posts, hposts, hboard⟩ := Except.of_bind_eq_ok hboard
    cases hboard
    cases x with
    | viewDidAppear =>
      cases hposts
      exact ⟨_, rfl⟩
    | dropDownClicked button string => exact absurd rfl (hread.1.1.1.1.1 button string)
    | readCallback | headerTap | cellForRow | headerReappears => cases hissues
  | didSelectRow button row =>
    have hrow : row < button.dropDownOptions.length := hread.1.1.1.1.2
    have hboard : (v.clients i).board.didSelectRow button row = .ok board := hboard
    rw [BoardView.didSelectRow_eq hrow] at hboard
    cases hboard
    exact ⟨_, BoardView.posts_dropDownClicked⟩
  | touchesBegan | scrollViewWillBeginDragging | scrollViewDidScroll => cases hissues

/-- A read that has been issued can be answered. -/
theorem exists_answer {event : BoardViewEvent}
    (hrun : (worldViewMachine d ι).Run (start d defaults) es v)
    (hread : (worldViewMachine d ι).Steps v (i, .board event) v')
    (hissues : event.issuesRead = true) :
    ∃ value v'', (worldViewMachine d ι).Steps v' (i, .board (.posts (.readCallback
      (v.clients i).board.posts.issued.length (.value .listed value)))) v'' := by
  obtain ⟨r, hposts⟩ := issue_of_read hread hissues
  have hen : v'.Enabled d (i, .board (.posts (.readCallback
      (v.clients i).board.posts.issued.length
      (.value .listed (snapshotValue (v'.database.get r.2)))))) := by
    refine ⟨⟨⟨⟨fun button string heq => (by cases heq), ?_⟩, fun htop => (by cases htop)⟩,
      fun htop => (by cases htop)⟩, ?_⟩
    · show _ ∈ (v'.clients i).board.posts.outstanding
      rw [hposts]
      exact List.mem_append_right _ (.head _)
    · show ∀ path ∈ (v'.clients i).board.posts.issued[_]?, _
      rw [hposts, PostsScreen.issue, List.getElem?_concat_length]
      intro path hpath
      cases hpath
      rfl
  obtain ⟨w, hw, h⟩ := simulates_world.run start_implements (hrun.snoc hread)
  obtain ⟨v'', hanswer⟩ := h.exists_steps (World.sound_of_run hw) hen
    (fun s row heq => by cases heq) id
  exact ⟨_, v'', hanswer⟩

/-- The second client taps the third game type and is answered. -/
theorem listed_of_titles_gold : ∃ v es,
    (worldViewMachine phone Bool).Run (start phone fun _ => none) (goldPosted ++ es) v ∧
    ∀ tier, ((v.clients true).board.posts.controller.posts tier).Perm
      (Selection.listed ⟨"PS4", "Standard"⟩ (posted phone (start phone fun _ => none)
        (goldPosted ++ [(true, .board (.didSelectRow .gameTypeDropDown 2))])) tier) := by
  obtain ⟨v, hrun, hhome, hboard⟩ := run_goldPosted
  have hopen : 0 < ((v.clients true).board.button .gameTypeDropDown).height := by
    rw [hboard]
    exact BoardView.contentHeight_pos BoardView.phone .gameTypeDropDown
  have hread : (worldViewMachine phone Bool).Steps v
      (true, .board (.didSelectRow .gameTypeDropDown 2)) _ :=
    steps_of_home hhome ⟨hopen, by decide⟩ (by simp) (BoardView.didSelectRow_eq (by decide))
  obtain ⟨value, v', hanswer⟩ := exists_answer hrun hread rfl
  have hrun' := (hrun.snoc hread).snoc hanswer
  rw [List.append_assoc] at hrun'
  refine ⟨v', _, hrun', fun tier => ?_⟩
  have hlisted := listed_of_titles hrun hread rfl .nil (fun _ h => by cases h) hanswer tier
  rw [clients_setClient, hboard] at hlisted
  exact hlisted

/-! ## Any selection can be shown -/

theorem sound_of_run (hrun : (worldViewMachine d ι).Run (start d defaults) es v) (i : ι) :
    (v.clients i).board.Sound d.board := by
  obtain ⟨w, -, h⟩ := simulates_world.run start_implements hrun
  exact (h.clients i).controls

/-- What is presented can be dismissed. -/
theorem exists_dismissed (v : WorldView ι) (i : ι) : ∃ es, OnlyChooses i es ∧
    (worldViewMachine d ι).Run v es
      (v.setClient i { v.clients i with presented := none }) := by
  by_cases hpresented : (v.clients i).presented = none
  · have heq : { v.clients i with presented := none } = v.clients i :=
      congrArg (AppView.mk _ _ _ ·) hpresented.symm
    rw [heq, setClient_clients]
    exact ⟨[], List.forall_mem_nil _, .nil⟩
  · have hdismiss : (worldViewMachine d ι).Steps v (i, .dismiss)
        (v.setClient i { v.clients i with presented := none }) :=
      ⟨⟨⟨hpresented, fun htouch => by cases htouch⟩, trivial⟩, rfl⟩
    exact ⟨_, List.forall_mem_singleton.mpr (.inl rfl), .single hdismiss⟩

/-- A client can always go back to its board, which then appears again. -/
theorem exists_home (v : WorldView ι) (i : ι) : ∃ es v', OnlyChooses i es ∧
    (worldViewMachine d ι).Run v es v' ∧ (v'.clients i).AtHome := by
  by_cases hhome : (v.clients i).AtHome
  · exact ⟨[], v, List.forall_mem_nil _, .nil, hhome⟩
  let a : AppView := { v.clients i with presented := none }
  obtain ⟨es, hes, hdismissed⟩ := exists_dismissed (d := d) v i
  have hback (vc : ScreenView) (stack : List ScreenView) : (worldViewMachine d ι).Steps
      (v.setClient i { a with stack := vc :: stack }) (i, .back)
      (v.setClient i { a with stack }) := by
    refine steps_setClient ⟨⟨?_, fun _ => ?_⟩, trivial⟩ rfl
    · rw [clients_setClient]
      exact List.cons_ne_nil _ _
    · rw [clients_setClient]
  have hbacks := Machine.run_replicate_of_pop
    (f := fun stack => v.setClient i { a with stack }) hback a.stack
  have hhome : ((v.setClient i { a with stack := [] }).clients i).AtHome := by
    rw [clients_setClient]
    exact ⟨rfl, rfl⟩
  have hagain : (worldViewMachine d ι).Steps (v.setClient i { a with stack := [] })
      (i, .board (.posts .viewDidAppear)) _ :=
    steps_of_home hhome ⟨by simp, trivial⟩ (by simp) rfl
  refine ⟨_, _, (hes.append ?_).append (.single rfl), (hdismissed.append hbacks).snoc hagain, ?_⟩
  · exact fun e he => .inr (.inl (List.eq_of_mem_replicate he))
  · rw [clients_setClient]
    exact ⟨hhome.stack, hhome.presented⟩

section Choose
variable {b : DropDown}

/-- The list of a drop-down is open, or can be opened. -/
theorem exists_open (hsound : (v.clients i).board.Sound d.board) (hhome : (v.clients i).AtHome) :
    ∃ es board, OnlyChooses i es ∧
      (worldViewMachine d ι).Run v es (v.setClient i { v.clients i with board }) ∧
      0 < (board.button b).height ∧ board.titles = (v.clients i).board.titles := by
  by_cases hopen : ((v.clients i).board.button b).isOpen = true
  · refine ⟨[], (v.clients i).board, List.forall_mem_nil _, ?_, ?_, rfl⟩
    · rw [setClient_clients]
      exact .nil
    · rw [hsound.height, if_pos hopen]
      exact BoardView.contentHeight_pos d.board b
  · have htouch : (worldViewMachine d ι).Steps v (i, .board (.touchesBegan b)) _ :=
      steps_of_home hhome trivial (by simp) rfl
    refine ⟨_, _, .single rfl, .single htouch, ?_, BoardView.titles_touchesBegan⟩
    simp only [BoardView.touchesBegan, hopen, Bool.false_eq_true, if_false,
      BoardView.button_setButton, if_true]
    exact BoardView.contentHeight_pos d.board b

/-- Any option can be chosen. -/
theorem exists_choose (hrun : (worldViewMachine d ι).Run (start d defaults) es v)
    (hhome : (v.clients i).AtHome) {string : String} (hstring : string ∈ b.dropDownOptions) :
    ∃ es' row v₁ v₂, OnlyChooses i es' ∧ (worldViewMachine d ι).Run v es' v₁ ∧
      (worldViewMachine d ι).Steps v₁ (i, .board (.didSelectRow b row)) v₂ ∧
      (v₂.clients i).AtHome ∧
      (v₂.clients i).board.titles = (v.clients i).board.titles.choose string b := by
  obtain ⟨row, hrow, rfl⟩ := List.getElem_of_mem hstring
  obtain ⟨es', board, hes', hopen, hheight, htitles⟩ :=
    exists_open (b := b) (sound_of_run hrun i) hhome
  have hhome' : ((v.setClient i { v.clients i with board }).clients i).AtHome := by
    rw [clients_setClient]
    exact ⟨hhome.stack, hhome.presented⟩
  have hread : (worldViewMachine d ι).Steps (v.setClient i { v.clients i with board })
      (i, .board (.didSelectRow b row)) _ :=
    steps_of_home hhome' (by rw [clients_setClient]; exact ⟨hheight, hrow⟩) (by simp)
      (BoardView.didSelectRow_eq hrow)
  refine ⟨es', row, _, _, hes', hopen, hread, ?_, ?_⟩
  · rw [clients_setClient]
    exact ⟨hhome'.stack, hhome'.presented⟩
  · simp only [clients_setClient, BoardView.titles_dropDownClicked, htitles]

end Choose

/-- Preparations change their client only, and not its session. -/
theorem OnlyPrepares.frame {v₀ : WorldView ι} (hrun : (worldViewMachine d ι).Run v₀ es v)
    (h : OnlyPrepares i es) :
    ∃ a, v = v₀.setClient i a ∧ a.session = (v₀.clients i).session := by
  induction hrun with
  | nil => exact ⟨v₀.clients i, setClient_clients.symm, rfl⟩
  | @snoc es v e v' _ hstep ih =>
    rw [OnlyPrepares, List.forall_mem_append] at h
    obtain ⟨a, rfl, hsession⟩ := ih h.1
    obtain ⟨i', e⟩ := e
    obtain ⟨rfl, he⟩ := h.2 (i', e) (.head _)
    obtain ⟨⟨a', writes⟩, hhandle, hok⟩ := Except.of_bind_eq_ok hstep.2
    cases hok
    obtain ⟨rfl, hsession'⟩ := handle_of_prepares he hhandle
    rw [clients_setClient] at hsession'
    exact ⟨a', setClient_setClient, hsession'.trans hsession⟩

theorem OnlyPrepares.posted {v₀ : WorldView ι} (hrun : (worldViewMachine d ι).Run v₀ es v)
    (h : OnlyPrepares i es) : posted d v₀ es = [] := by
  induction hrun with
  | nil => rfl
  | @snoc es v e v' hrun _ ih =>
    rw [OnlyPrepares, List.forall_mem_append] at h
    have hposts : v.posts e = [] := posts_eq_nil fun key hkey => by
      have hprepares := (h.2 e (.head _)).2
      rw [hkey] at hprepares
      cases hprepares
    rw [WorldView.posted, Machine.observations_snoc hrun, hposts, List.append_nil]
    exact ih h.1

/-- From every state the clients can reach, any options can be chosen on a device and are then
shown. -/
theorem exists_shown (hrun : (worldViewMachine d ι).Run (start d defaults) es v) (i : ι)
    {system gameType : String} (hsystem : system ∈ DropDown.systemDropDown.dropDownOptions)
    (hgameType : gameType ∈ DropDown.gameTypeDropDown.dropDownOptions) :
    ∃ es' v', OnlyChooses i es' ∧ (worldViewMachine d ι).Run v es' v' ∧ (v'.clients i).AtHome ∧
      (v'.clients i).board.titles = ⟨system, gameType⟩ ∧
      ∀ tier, ((v'.clients i).board.posts.controller.posts tier).Perm
        (Selection.listed ⟨system, gameType⟩ (posted d (start d defaults) es) tier) := by
  obtain ⟨es₀, v₀, hes₀, hrun₀, hhome₀⟩ := exists_home (d := d) v i
  obtain ⟨es₁, row₁, v₁, v₂, hes₁, hrun₁, hread₁, hhome₂, htitles₂⟩ :=
    exists_choose (hrun.append hrun₀) hhome₀ hsystem
  have hbefore := (hrun₀.append hrun₁).snoc hread₁
  obtain ⟨es₂, row₂, v₃, v₄, hes₂, hrun₂, hread₂, hhome₄, htitles₄⟩ :=
    exists_choose (hrun.append hbefore) hhome₂ hgameType
  have htouches := hbefore.append hrun₂
  have hes : OnlyChooses i
      (es₀ ++ es₁ ++ [(i, .board (.didSelectRow .systemDropDown row₁))] ++ es₂) :=
    ((hes₀.append hes₁).append (.single rfl)).append hes₂
  rw [htitles₂] at htitles₄
  -- the last read is answered, whatever else is in flight
  obtain ⟨value, v₅, hanswer⟩ := exists_answer (hrun.append htouches) hread₂ rfl
  have hlisted := listed_of_answered (hrun.append htouches) hread₂ rfl .nil
    (fun _ h => by cases h) hanswer
  have hnothing := (hes.append (.single rfl)).onlyPrepares.posted (htouches.snoc hread₂)
  rw [posted] at hnothing
  rw [posted, List.append_assoc, Machine.observations_append hrun, hnothing, List.append_nil,
    htitles₄] at hlisted
  refine ⟨_, v₅, (hes.append (.single rfl)).append (.single rfl), (htouches.snoc hread₂).snoc hanswer, ?_, ?_,
    hlisted⟩
  · obtain ⟨board, -, rfl⟩ := board_of_steps hanswer
    rw [clients_setClient]
    exact ⟨hhome₄.stack, hhome₄.presented⟩
  · obtain ⟨board, hboard, rfl⟩ := board_of_steps hanswer
    obtain ⟨posts, -, hboard⟩ := Except.of_bind_eq_ok hboard
    cases hboard
    rw [clients_setClient]
    exact htitles₄

/-- From every state the clients can reach, whatever is open, presented and in flight, the user of a
device can choose any of the options, by going back to the board and touching its drop-downs: the
titles are then these options, each section lists exactly what has been posted for them, and the
database and the other clients are as they were. -/
theorem selectable (hrun : (worldViewMachine d ι).Run (start d defaults) es v) (i : ι)
    {system gameType : String} (hsystem : system ∈ DropDown.systemDropDown.dropDownOptions)
    (hgameType : gameType ∈ DropDown.gameTypeDropDown.dropDownOptions) :
    ∃ es' a, OnlyChooses i es' ∧ (worldViewMachine d ι).Run v es' (v.setClient i a) ∧
      a.stack = [] ∧ a.presented = none ∧ a.board.titles = ⟨system, gameType⟩ ∧
      ∀ tier, (a.board.posts.controller.posts tier).Perm
        (Selection.listed ⟨system, gameType⟩ (posted d (start d defaults) es) tier) := by
  obtain ⟨es', v', hes', hrun', hhome, htitles, hlisted⟩ := exists_shown hrun i hsystem hgameType
  obtain ⟨a, rfl, -⟩ := hes'.onlyPrepares.frame hrun'
  rw [clients_setClient] at hhome htitles hlisted
  exact ⟨es', a, hes', hrun', hhome.stack, hhome.presented, htitles, hlisted⟩

theorem selectable_gold : ∃ (v : WorldView Bool) (es : List (Bool × AppViewEvent)) (a : AppView),
    (worldViewMachine phone Bool).Run (start phone fun _ => none) (goldPosted ++ es)
      (v.setClient true a) ∧
    ∀ tier, (a.board.posts.controller.posts tier).Perm
      (Selection.listed ⟨"PS4", "Standard"⟩
        (posted phone (start phone fun _ => none) goldPosted) tier) := by
  obtain ⟨v, hrun, -⟩ := run_goldPosted
  have hsystem : "PS4" ∈ DropDown.systemDropDown.dropDownOptions := by decide
  have hgameType : "Standard" ∈ DropDown.gameTypeDropDown.dropDownOptions := by decide
  obtain ⟨es, a, -, htouches, -, -, -, hlisted⟩ := selectable hrun true hsystem hgameType
  exact ⟨v, es, a, hrun.append htouches, hlisted⟩

end WorldView
end RLFinder
