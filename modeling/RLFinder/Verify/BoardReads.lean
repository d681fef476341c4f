import RLFinder.Verify.PartnerPostsLemmas
import RLFinder.Theory.Trace

/-!
# Overlapping reads

The lists are cleared when a read is issued and extended when a callback fires, so at any moment
they hold what all callbacks since the last issue have delivered (`posts_of_run`), the callbacks of
earlier reads included. Together with the ledger of the reads in flight this says exactly when the
lists are those of the last read (`last_read_iff`).
-/

namespace RLFinder

namespace PostsEvent

/-- The read that an event is the callback of. -/
def ticket? : PostsEvent → Option Nat
  | readCallback ticket _ => some ticket
  | _ => none

/-- The posts that an event delivers for a rank key. -/
def posts (key : String) : PostsEvent → List String
  | readCallback _ result => result.posts key
  | _ => []

theorem ticket?_of_issuesRead {e : PostsEvent} (h : e.issuesRead = true) : e.ticket? = none := by
  cases e with
  | viewDidAppear | dropDownClicked => rfl
  | readCallback | headerTap | cellForRow | headerReappears => cases h

end PostsEvent

namespace PostsScreen

variable {s s' : PostsScreen} {e : PostsEvent} {es : List PostsEvent} {i : Fin 7}

/-! ## The lists -/

theorem Effect.posts_issue (h : Effect s e s') (he : e.issuesRead = true) :
    s'.controller.posts i = [] := by
  cases h with
  | issue => exact PartnerPostsController.posts_clearPosts
  | callback | tap | cell | reappear => simp [PostsEvent.issuesRead] at he

theorem posts_expandPosts {c c' : PartnerPostsController} {t : Fin 7}
    (h : c.expandPosts t = .ok c') : c'.posts i = c.posts i := by
  rcases PartnerPostsController.expandPosts_cases h with ⟨-, rfl⟩ | ⟨-, u, -, -, rfl⟩
  · exact PartnerPostsController.posts_toggle
  · exact PartnerPostsController.posts_toggle (s := t)

theorem Effect.posts (h : Effect s e s') (he : e.issuesRead = false) :
    s'.controller.posts i = s.controller.posts i ++ e.posts (tierKey i) := by
  cases h with
  | issue hissue => simp [hissue] at he
  | callback _ hc => exact PartnerPostsController.readCallback_posts hc
  | tap hc => exact (posts_expandPosts hc).trans (List.append_nil _).symm
  | cell => exact (List.append_nil _).symm
  | reappear => exact (List.append_nil _).symm

/-- Each list holds what the callbacks since the last issue have delivered. -/
theorem posts_of_run (hrun : postsMachine.Run start es s) :
    s.controller.posts i = (es.since PostsEvent.issuesRead).flatMap (·.posts (tierKey i)) := by
  refine hrun.history (I := fun es s => s.controller.posts i =
    (es.since PostsEvent.issuesRead).flatMap (·.posts (tierKey i))) ?_ ?_
  · fin_cases i <;> rfl
  · intro es s e s' _ ih hstep
    have heffect := effect_of_steps hstep
    cases he : e.issuesRead with
    | true => rw [List.since_concat_of_mark he, heffect.posts_issue he, List.flatMap_nil]
    | false =>
      rw [List.since_concat_of_not_mark he, heffect.posts he, ih, List.flatMap_append,
        List.flatMap_singleton]

/-! ## The reads in flight -/

/-- Each read issued so far is in flight or has called back, once. -/
theorem ledger_of_run (hrun : postsMachine.Run start es s) :
    Ledger s.issued.length (es.filterMap PostsEvent.ticket?) s.outstanding := by
  induction hrun with
  | nil => exact .start
  | snoc _ hstep ih =>
    rw [List.filterMap_append]
    cases effect_of_steps hstep with
    | issue hissue =>
      simpa [List.filterMap_cons, PostsEvent.ticket?_of_issuesRead hissue, issue] using ih.issue
    | callback hmem => exact ih.deliver hmem
    | tap | cell | reappear => simpa [List.filterMap_cons, PostsEvent.ticket?] using ih

/-- The last read issued is for the current selection. -/
theorem last_issued_of_run (hrun : postsMachine.Run start es s) :
    ∀ path ∈ s.issued.getLast?, path = s.controller.readPath := by
  induction hrun with
  | nil =>
    intro path hpath
    cases hpath
  | snoc _ hstep ih =>
    cases effect_of_steps hstep with
    | issue =>
      intro path hpath
      simp only [issue, List.getLast?_append, List.getLast?_singleton, Option.some_or] at hpath
      cases hpath
      rfl
    | callback _ hc =>
      obtain ⟨hsystem, hgame, -⟩ := PartnerPostsController.readCallback_untouched hc
      intro path hpath
      rw [ih path hpath]
      simp only [PartnerPostsController.readPath, PartnerPostsController.readSystem,
        PartnerPostsController.readGameType, hsystem, hgame]
    | tap hc =>
      rcases PartnerPostsController.expandPosts_cases hc with ⟨-, rfl⟩ | ⟨-, u, -, -, rfl⟩ <;>
        exact ih
    | cell => exact ih
    | reappear => exact ih

/-- The callback of the last read issued comes after its issue. -/
theorem mem_since_of_last (hrun : postsMachine.Run start es s) {ticket : Nat} {result : ReadResult}
    (hcall : .readCallback ticket result ∈ es) (hlast : ticket + 1 = s.issued.length) :
    .readCallback ticket result ∈ es.since PostsEvent.issuesRead := by
  induction hrun with
  | nil => cases hcall
  | @snoc es s e s' hrun hstep ih =>
    have heffect := effect_of_steps hstep
    cases he : e.issuesRead with
    | true =>
      cases heffect with
      | issue =>
        have hmem : .readCallback ticket result ∈ es := by
          rcases List.mem_append.mp hcall with hmem | hmem
          · exact hmem
          · cases List.mem_singleton.mp hmem
            simp [PostsEvent.issuesRead] at he
        have hlt := (ledger_of_run hrun).lt_of_delivered
          (List.mem_filterMap.mpr ⟨_, hmem, rfl⟩)
        simp only [issue, List.length_append, List.length_singleton] at hlast
        omega
      | callback | tap | cell | reappear => simp [PostsEvent.issuesRead] at he
    | false =>
      have hlen : s'.issued.length = s.issued.length := by
        cases heffect with
        | issue hissue => simp [hissue] at he
        | callback | tap | cell | reappear => rfl
      rw [List.since_concat_of_not_mark he]
      rcases List.mem_append.mp hcall with hmem | hmem
      · exact List.mem_append_left _ (ih hmem (hlast.trans hlen))
      · exact List.mem_append_right _ hmem

/-! ## The last read -/

/-- Once the last read issued has delivered a value, the lists are exactly the posts of that value,
a value for the current selection, if and only if no earlier read has delivered a post after the
last one was issued. -/
theorem last_read_iff (hrun : postsMachine.Run start es s) {ticket : Nat}
    {order : IterationOrder Any (List (String × String))} {snapshot : Any}
    (hcall : .readCallback ticket (.value order snapshot) ∈ es)
    (hlast : ticket + 1 = s.issued.length) :
    (s.issued[ticket]? = some s.controller.readPath ∧
      ∀ i, (s.controller.posts i).Perm (snapshot.posts (tierKey i))) ↔
    ∀ ticket' result, .readCallback ticket' result ∈ es.since PostsEvent.issuesRead →
      ticket' ≠ ticket → ∀ i, result.posts (tierKey i) = [] := by
  have hpath : s.issued[ticket]? = some s.controller.readPath := by
    have hget : s.issued[ticket]? = s.issued.getLast? := by
      rw [List.getLast?_eq_getElem?, ← hlast, Nat.add_sub_cancel]
    have hlt : ticket < s.issued.length := by omega
    have hsome := List.getElem?_eq_getElem hlt
    rw [hsome, last_issued_of_run hrun _ (hget.symm.trans hsome)]
  obtain ⟨l₁, l₂, hsplit⟩ := List.append_of_mem (mem_since_of_last hrun hcall hlast)
  have hperm : (es.since PostsEvent.issuesRead).Perm
      (.readCallback ticket (.value order snapshot) :: (l₁ ++ l₂)) := by
    rw [hsplit]
    exact List.perm_middle
  have hposts : ∀ i, (s.controller.posts i).Perm (snapshot.posts (tierKey i)) ↔
      ∀ x ∈ l₁ ++ l₂, x.posts (tierKey i) = [] := by
    intro i
    rw [posts_of_run hrun, hsplit, ← List.flatMap_perm_iff
      (a := .readCallback ticket (.value order snapshot))]
    exact ⟨fun h => h.trans ReadResult.posts_perm.symm, fun h => h.trans ReadResult.posts_perm⟩
  -- the callback of the last read is the only one with its ticket
  have hother : ∀ result, .readCallback ticket result ∉ l₁ ++ l₂ := by
    intro result hmem
    have hnodup : ((es.since PostsEvent.issuesRead).filterMap PostsEvent.ticket?).Nodup :=
      (ledger_of_run hrun).nodup_delivered.sublist
        (List.since_suffix.sublist.filterMap PostsEvent.ticket?)
    rw [(hperm.filterMap _).nodup_iff] at hnodup
    exact (List.nodup_cons.mp hnodup).1 (List.mem_filterMap.mpr ⟨_, hmem, rfl⟩)
  simp only [hpath, true_and, hposts]
  constructor
  · intro h ticket' result hmem hne i
    rcases List.mem_cons.mp (hperm.mem_iff.mp hmem) with heq | hmem
    · cases heq
      exact absurd rfl hne
    · exact h i _ hmem
  · intro h i x hx
    cases x with
    | readCallback ticket' result =>
      have hne : ticket' ≠ ticket := fun heq => hother result (heq ▸ hx)
      exact h ticket' result (hperm.mem_iff.mpr (.tail _ hx)) hne i
    | viewDidAppear | dropDownClicked | headerTap | cellForRow | headerReappears => rfl

/-- The screen appears twice before the first read calls back. -/
def overlapping : List PostsEvent :=
  [.viewDidAppear, .viewDidAppear, .readCallback 0 bronzeRead, .readCallback 1 bronzeRead]

theorem last_read_iff_overlapping : ∃ s, postsMachine.Run start overlapping s ∧
    ((s.issued[1]? = some s.controller.readPath ∧
      ∀ i, (s.controller.posts i).Perm (bronzeBoard.posts (tierKey i))) ↔
    ∀ ticket' result, .readCallback ticket' result ∈ overlapping.since PostsEvent.issuesRead →
      ticket' ≠ 1 → ∀ i, result.posts (tierKey i) = []) :=
  have hrun := Machine.Run.of_replay rfl
  have hcall : .readCallback 1 bronzeRead ∈ overlapping := .tail _ (.tail _ (.tail _ (.head _)))
  ⟨_, hrun, last_read_iff hrun hcall rfl⟩

/-- Both reads have called back, each with the one bronze post, and the list shows it twice. -/
theorem duplicate_after_overlapping : ∃ s, postsMachine.Run start overlapping s ∧
    s.outstanding = [] ∧ bronzeBoard.posts (tierKey 0) = ["LF 2s"] ∧
    s.controller.posts 0 = ["LF 2s", "LF 2s"] :=
  ⟨_, .of_replay rfl, rfl, rfl, rfl⟩

end PostsScreen
end RLFinder
