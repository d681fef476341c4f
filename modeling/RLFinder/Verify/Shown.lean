import RLFinder.Verify.BulletinRefinement

/-!
# What a board shows

A board shows nothing that was not posted for a selection of its own (`posted_of_shown`). One read
that is answered undisturbed leaves it with exactly what has been posted for its selection
(`upToDate_of_read`), and from every state the clients can reach each of them can make such a read
by events of its own (`recoverable`).
-/

namespace RLFinder
open Bulletin (ReaderEvent)

namespace World

variable {ι : Type} [DecidableEq ι] {w w' : World ι} {i : ι} {e : AppEvent}
  {es : List (ι × AppEvent)} {defaults : ι → Option Coder}

/-! ## One undisturbed read -/

/-- The events of a client that leave the lists of its board alone: no launch, no request, and no
answer but an error. -/
def Undisturbing : AppEvent → Prop
  | .launch => False
  | .board event => event.issuesRead = false ∧ ∀ ticket order value,
      event ≠ .readCallback ticket (.value order value)
  | _ => True

omit [DecidableEq ι] in
/-- A client speaks only for its own reader, when it is launched and when its board asks or is
answered. -/
theorem of_mem_announcements {j : ι} {re : ReaderEvent Selection}
    (h : .reader j re ∈ w.announcements (i, e)) : j = i ∧ ((e = .launch ∧ re = .restart) ∨
      ∃ event, e = .board event ∧
        event.readerEvent? (w.clients i).board.controller = some re) := by
  cases e with
  | launch =>
    cases List.mem_singleton.mp h
    exact ⟨rfl, .inl ⟨rfl, rfl⟩⟩
  | board event =>
    simp only [announcements, List.mem_map, Option.mem_toList] at h
    obtain ⟨re', hre, heq⟩ := h
    cases heq
    exact ⟨rfl, .inr ⟨event, rfl, hre⟩⟩
  | buttonPushed key =>
    simp only [announcements] at h
    split at h
    · cases List.mem_singleton.mp h
    · cases h
  | newPost | toCreatePost | toSettings | didSignIn | logOut | back | dismiss => cases h

omit [DecidableEq ι] in
/-- An event that leaves the lists of a client alone is quiet for its reader. -/
theorem quietFor_of_undisturbing {j : ι} (h : i = j → Undisturbing e) :
    ∀ a ∈ w.announcements (i, e), Bulletin.QuietFor j a := by
  intro a ha re hre
  subst hre
  obtain ⟨hj, ⟨rfl, -⟩ | ⟨event, rfl, hre⟩⟩ := of_mem_announcements ha
  · exact (h hj.symm).elim
  · obtain ⟨hissues, hvalue⟩ := h hj.symm
    cases event with
    | viewDidAppear | dropDownClicked => cases hissues
    | readCallback ticket result =>
      cases result with
      | value order value => exact absurd rfl (hvalue ticket order value)
      | error message =>
        cases hre
        trivial
    | headerTap | cellForRow | headerReappears => cases hre

theorem quietFor_of_run {w₀ : World ι} (hrun : (worldMachine ι).Run w₀ es w)
    (hquiet : ∀ e ∈ es, e.1 = i → Undisturbing e.2) :
    ∀ a ∈ announced w₀ es, Bulletin.QuietFor i a := by
  induction hrun with
  | nil =>
    intro a ha
    cases ha
  | @snoc es w₁ e w₂ hrun _ ih =>
    intro a ha
    rw [announced, Machine.observations_snoc hrun] at ha
    rcases List.mem_append.mp ha with ha | ha
    · exact ih (fun e he => hquiet e (List.mem_append_left _ he)) a ha
    · exact quietFor_of_undisturbing (hquiet e (List.mem_append_right _ (.head _))) a ha

/-- Quiet events keep the selection of the drop-downs. -/
theorem selection_of_steps {j : ι} (hstep : (worldMachine ι).Steps w (i, e) w')
    (hquiet : i = j → Undisturbing e) :
    (w'.clients j).board.controller.selection = (w.clients j).board.controller.selection := by
  obtain ⟨a, writes, heffect, rfl⟩ := effect_of_steps hstep
  by_cases hj : i = j
  · subst hj
    simp only [Function.update_self]
    cases heffect with
    | launch => exact (hquiet rfl).elim
    | board hboard => exact (PostsScreen.effect_of_steps hboard).selection (hquiet rfl).1
    | _ => rfl
  · simp only [Function.update_of_ne (Ne.symm hj)]

theorem selection_of_run {w₀ : World ι} (hrun : (worldMachine ι).Run w₀ es w)
    (hquiet : ∀ e ∈ es, e.1 = i → Undisturbing e.2) :
    (w.clients i).board.controller.selection = (w₀.clients i).board.controller.selection := by
  induction hrun with
  | nil => rfl
  | snoc _ hstep ih =>
    rw [selection_of_steps hstep (hquiet _ (List.mem_append_right _ (.head _)))]
    exact ih fun e he => hquiet e (List.mem_append_left _ he)

section Read
variable {w₁ w₂ w₃ w₄ : World ι} {b₁ : Bulletin.State ι Post Selection (Fin 7) String}
  {event : PostsEvent} {order : IterationOrder Any (List (String × String))} {value : Any}

/-- A read asks for the selection of the drop-downs. -/
theorem announcements_issuesRead (hread : (worldMachine ι).Steps w₁ (i, .board event) w₂)
    (hissues : event.issuesRead = true) : w₁.announcements (i, .board event) =
      [.reader i (.refresh (w₂.clients i).board.controller.selection)] := by
  obtain ⟨a, writes, heffect, rfl⟩ := effect_of_steps hread
  simp only [Function.update_self]
  cases heffect with
  | board hboard =>
    cases event with
    | viewDidAppear =>
      cases hboard.2
      rfl
    | dropDownClicked button string =>
      cases hboard.2
      cases button <;> rfl
    | readCallback | headerTap | cellForRow | headerReappears => cases hissues

/-- A client reads and is answered with nothing else arriving for it in between: its board shows
what the bulletin board holds when the answer comes. -/
theorem Implements.answered (h : w₁.Implements b₁)
    (hread : (worldMachine ι).Steps w₁ (i, .board event) w₂) (hissues : event.issuesRead = true)
    (hmeanwhile : (worldMachine ι).Run w₂ es w₃)
    (hquiet : ∀ e ∈ es, e.1 = i → Undisturbing e.2)
    (hanswer : (worldMachine ι).Steps w₃ (i, .board (.readCallback
      (w₁.clients i).board.issued.length (.value order value))) w₄) (tier : Fin 7) :
    ((w₄.clients i).board.controller.posts tier : Multiset String) =
      (b₁.published + (posted w₁ ((i, .board event) :: es) : List Post)).bind
        ((w₂.clients i).board.controller.selection.share tier) := by
  obtain ⟨b₂, hb₂, h₂⟩ := simulates_bulletin _ _ _ _ h hread
  obtain ⟨b₃, hb₃, h₃⟩ := simulates_bulletin.run h₂ hmeanwhile
  obtain ⟨b₄, hb₄, h₄⟩ := simulates_bulletin _ _ _ _ h₃ hanswer
  have hpublished := Bulletin.published_eq_of_run (hb₂.append hb₃)
  rw [← Machine.observations_cons hread] at hpublished
  rw [announcements_issuesRead hread hissues] at hb₂
  have hrefresh := hb₂.single_inv
  have hdeliver : (Bulletin.machine Selection.share ι Fault).Steps b₃
      (.reader i (.deliver (w₁.clients i).board.issued.length)) b₄ := Machine.Run.single_inv hb₄
  rw [(h.reads i).issued.length_eq] at hdeliver
  have hshown := Bulletin.shown_eq_of_refresh (t := tier) hrefresh
    (quietFor_of_run hmeanwhile hquiet) hb₃ hdeliver
  rw [(h₄.reads i).shown tier] at hshown
  rw [hshown, Bulletin.steps_reader hdeliver, hpublished]
  rfl

/-- The same for a run of the clients: what the bulletin board holds has been posted. -/
theorem listed_of_answered {es₁ : List (ι × AppEvent)}
    (hrun : (worldMachine ι).Run (start defaults) es₁ w₁)
    (hread : (worldMachine ι).Steps w₁ (i, .board event) w₂) (hissues : event.issuesRead = true)
    (hmeanwhile : (worldMachine ι).Run w₂ es w₃)
    (hquiet : ∀ e ∈ es, e.1 = i → Undisturbing e.2)
    (hanswer : (worldMachine ι).Steps w₃ (i, .board (.readCallback
      (w₁.clients i).board.issued.length (.value order value))) w₄) (tier : Fin 7) :
    ((w₄.clients i).board.controller.posts tier).Perm
      ((w₂.clients i).board.controller.selection.listed
        (posted (start defaults) (es₁ ++ (i, .board event) :: es)) tier) := by
  obtain ⟨b₁, -, himplements, hpublished⟩ := implements_of_run hrun
  have hposts := himplements.answered hread hissues hmeanwhile hquiet hanswer tier
  rw [hpublished, Multiset.coe_add, ← posted_append hrun, bind_share] at hposts
  exact Multiset.coe_eq_coe.mp hposts

end Read

theorem selection_reappeared :
    ((w.reappeared i).clients i).board.controller.selection =
      (w.clients i).board.controller.selection := by
  simp only [reappeared, Function.update_self]
  rfl

/-- A client on its board reads, and is answered at once. -/
theorem exists_listed (hrun : (worldMachine ι).Run (start defaults) es w)
    (hstack : (w.clients i).stack = []) :
    (worldMachine ι).Steps w (i, .board .viewDidAppear) (w.reappeared i) ∧
    ∃ value a, a.stack = [] ∧ (worldMachine ι).Steps (w.reappeared i)
      (i, .board (.readCallback (w.clients i).board.issued.length (.value .listed value)))
      ⟨Function.update w.clients i a, w.database⟩ ∧
    ∀ tier, (a.board.controller.posts tier).Perm ((w.clients i).board.controller.selection.listed
      (posted (start defaults) es) tier) := by
  obtain ⟨hread, value, a, ha, hanswer⟩ := exists_answer hrun hstack
  refine ⟨hread, value, a, ha, hanswer, fun tier => ?_⟩
  have hlisted := listed_of_answered hrun hread rfl .nil nofun hanswer tier
  rw [posted_append hrun, posted_eq_nil (.single hread) fun e he key hkey => ?_,
    List.append_nil, selection_reappeared] at hlisted
  · simpa only [Function.update_self] using hlisted
  · cases List.mem_singleton.mp he
    cases hkey

section Read
variable {w₁ w₂ w₃ w₄ : World ι} {event : PostsEvent}
  {order : IterationOrder Any (List (String × String))} {value : Any}

/-- A client reads and is answered with nothing else arriving for its board in between, whatever it
does elsewhere and whatever the other clients do: each section then lists exactly what has been
posted for the selection of the drop-downs, and nothing under Duel. -/
theorem upToDate_of_read {es₁ es₂ : List (ι × AppEvent)}
    (hrun : (worldMachine ι).Run (start defaults) es₁ w₁)
    (hread : (worldMachine ι).Steps w₁ (i, .board event) w₂) (hissues : event.issuesRead = true)
    (hmeanwhile : (worldMachine ι).Run w₂ es₂ w₃)
    (hquiet : ∀ e ∈ es₂, e.1 = i → Undisturbing e.2)
    (hanswer : (worldMachine ι).Steps w₃ (i, .board (.readCallback
      (w₁.clients i).board.issued.length (.value order value))) w₄) (tier : Fin 7) :
    ((w₄.clients i).board.controller.posts tier).Perm
      ((w₃.clients i).board.controller.selection.listed
        (posted (start defaults) (es₁ ++ (i, .board event) :: es₂)) tier) := by
  rw [selection_of_run hmeanwhile hquiet]
  exact listed_of_answered hrun hread hissues hmeanwhile hquiet hanswer tier

end Read

theorem upToDate_of_read_doubles : ∃ w es,
    (worldMachine (Fin 2)).Run (start fun _ => none) (doublesPosted ++ es) w ∧
    ∀ tier, ((w.clients 1).board.controller.posts tier).Perm
      (Selection.listed ⟨"PS4", "Doubles"⟩ (posted (start fun _ => none) doublesPosted) tier) := by
  obtain ⟨w, hrun, hstack, hsystem, hgame⟩ := run_doublesPosted
  obtain ⟨hread, value, a, -, hanswer⟩ := exists_answer hrun hstack
  have hrun' := (hrun.snoc hread).snoc hanswer
  rw [List.append_assoc] at hrun'
  refine ⟨_, _, hrun', fun tier => ?_⟩
  have hlisted := upToDate_of_read hrun hread rfl .nil nofun hanswer tier
  rw [selection_reappeared, PartnerPostsController.selection, hsystem, hgame] at hlisted
  exact hlisted

/-! ## Recovery -/

/-- From every state the clients can reach, any one of them can bring its board up to date by
events of its own, whatever is on its stack and in flight: it ends on the board, with the selection
it had, each section lists exactly what has been posted for that selection, and the database and
the other clients are as they were. -/
theorem recoverable (hrun : (worldMachine ι).Run (start defaults) es w) (i : ι) :
    ∃ es' w', (worldMachine ι).Run w es' w' ∧ (∀ e ∈ es', e.1 = i) ∧
      w'.database = w.database ∧ (∀ j, j ≠ i → w'.clients j = w.clients j) ∧
      (w'.clients i).stack = [] ∧ ∀ tier, ((w'.clients i).board.controller.posts tier).Perm
        ((w.clients i).board.controller.selection.listed (posted (start defaults) es) tier) := by
  obtain ⟨es₁, hbacks, hback⟩ := exists_backs w i
  obtain ⟨hread, value, a, hstack, hanswer, hlisted⟩ := exists_listed (i := i)
    (hrun.append hbacks) (by simp only [Function.update_self])
  have hposted : posted w es₁ = [] := posted_eq_nil hbacks fun e he key hkey => by
    rw [hback e he] at hkey
    cases hkey
  simp only [Function.update_self, posted_append hrun, hposted, List.append_nil] at hlisted
  refine ⟨_, _, hbacks.append (.cons hread (.single hanswer)), ?_, rfl, ?_, ?_, fun tier => ?_⟩
  · intro e he
    rcases List.mem_append.mp he with he | he
    · rw [hback e he]
    · simp only [List.mem_cons, List.not_mem_nil, or_false] at he
      rcases he with rfl | rfl <;> rfl
  · intro j hj
    simp only [Function.update_of_ne hj]
  · simp only [Function.update_self]
    exact hstack
  · simp only [Function.update_self]
    exact hlisted tier

theorem recoverable_doubles : ∃ w es,
    (worldMachine (Fin 2)).Run (start fun _ => none) (doublesPosted ++ es) w ∧
    ((w.clients 1).board.controller.posts 0).Perm
      [String.ofList NewPostController.placeholder] := by
  obtain ⟨w, hrun, -, hsystem, hgame⟩ := run_doublesPosted
  obtain ⟨es, w', hrun', -, -, -, -, hposts⟩ := recoverable hrun 1
  have hlisted := hposts 0
  rw [PartnerPostsController.selection, hsystem, hgame] at hlisted
  exact ⟨w', es, hrun.append hrun', hlisted⟩

end World
end RLFinder
