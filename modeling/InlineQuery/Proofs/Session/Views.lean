import InlineQuery.Proofs.Execution.Showing
import InlineQuery.Proofs.Operation.Index
import InlineQuery.Session
import Mathlib.Data.List.Nodup

/-!
Which views a session lists for a document. A view leaves its list when it shows its final event, when
it is disposed, and with the others when its document is closed.
-/

namespace InlineQuery
namespace Session

variable {s t : Session} {i : Nat} {x y : ShownExecution}

/-- The numbers of the views that were started from a document and have neither been disposed nor
shown their final event, in the order of their start. -/
def live (s : Session) (uri : String) : List Nat :=
  (List.range s.shown.length).filter fun i =>
    s.shown[i]?.any fun x => x.uri == uri && x.view.isLive

theorem mem_live {uri : String} :
    i ∈ s.live uri ↔ ∃ x, s.shown[i]? = some x ∧ x.uri = uri ∧ x.view.isLive = true := by
  rw [live, List.mem_filter, List.mem_range]
  constructor
  · rintro ⟨_, isLive⟩
    obtain ⟨x, found, matches_⟩ := Option.any_eq_true .. |>.mp isLive
    rw [Bool.and_eq_true, beq_iff_eq] at matches_
    exact ⟨x, found, matches_⟩
  · rintro ⟨x, found, rfl, isLive⟩
    exact ⟨(List.getElem?_eq_some_iff.mp found).1, by simp [found, isLive]⟩

theorem nodup_live (s : Session) (uri : String) : (s.live uri).Nodup :=
  List.nodup_range.filter _

/-- The lists of a session are those of its live views, and each view stands in order with its
execution. -/
structure IsTracking (s : Session) : Prop where
  views : ∀ uri, s.views uri = s.live uri
  standing : ∀ x ∈ s.shown, x.view.Standing x.handle

theorem live_congr (shown : t.shown = s.shown) : t.live = s.live := by
  funext uri
  rw [live, live, shown]

theorem IsTracking.congr (known : s.IsTracking) (shown : t.shown = s.shown)
    (lists : t.open_ = s.open_) : t.IsTracking := by
  refine ⟨fun uri => ?_, ?_⟩
  · rw [live_congr shown, ← known.views uri, Session.views, Session.views, lists]
  · rw [shown]
    exact known.standing

theorem shown_forget (s : Session) (uri : String) (i : Nat) :
    (s.forget uri i).shown = s.shown := by
  unfold forget
  split <;> rfl

theorem views_forget (s : Session) (uri other : String) (i : Nat) :
    (s.forget uri i).views other =
      if uri == other then (s.views uri).erase i else s.views other := by
  unfold forget
  split
  · rename_i none_
    rw [Session.views, Assoc.get?_erase]
    split
    · exact none_.symm
    · rfl
  · rw [Session.views, Assoc.get?_put]
    split <;> rfl

theorem getElem?_put (found : s.shown[i]? = some x) (y : ShownExecution) (j : Nat) :
    (s.put i y).shown[j]? = if i = j then some y else s.shown[j]? := by
  have bound := (List.getElem?_eq_some_iff.mp found).1
  rw [put, List.getElem?_set, if_pos bound]

theorem uris_put (found : s.shown[i]? = some x) (uri_eq : y.uri = x.uri) :
    (s.put i y).shown.map (·.uri) = s.shown.map (·.uri) := by
  refine List.ext_getElem? fun j => ?_
  rw [List.getElem?_map, List.getElem?_map, getElem?_put found]
  split
  · rename_i same
    rw [← same, found, Option.map_some, Option.map_some, uri_eq]
  · rfl

/-- Replacing an execution by one of the same document takes its view off the live ones if it has
ended. -/
theorem live_put (found : s.shown[i]? = some x) (uri_eq : y.uri = x.uri)
    (fades : y.view.isLive = true → x.view.isLive = true) (uri : String) :
    (s.put i y).live uri =
      if x.uri == uri && !y.view.isLive then (s.live uri).erase i else s.live uri := by
  have length : (s.put i y).shown.length = s.shown.length := List.length_set
  rw [(s.nodup_live uri).erase_eq_filter, live, live, length, List.filter_filter]
  split
  · rename_i ended
    rw [Bool.and_eq_true, Bool.not_eq_true'] at ended
    refine List.filter_congr fun j _ => ?_
    rw [getElem?_put found]
    by_cases same : i = j
    · simp [same, ended.2]
    · have apart : ¬j = i := fun back => same back.symm
      simp [same, apart]
  · rename_i stays
    refine List.filter_congr fun j _ => ?_
    rw [getElem?_put found]
    by_cases same : i = j
    · subst same
      rw [if_pos rfl, found, Option.any_some, Option.any_some, uri_eq]
      cases matches_ : x.uri == uri with
      | false => rfl
      | true =>
        have isLive : y.view.isLive = true := by simpa [matches_] using stays
        rw [isLive, fades isLive]
    · rw [if_neg same]

theorem standing_put (known : s.IsTracking) (standing : y.view.Standing y.handle) :
    ∀ z ∈ (s.put i y).shown, z.view.Standing z.handle := by
  intro z member
  rcases List.mem_or_eq_of_mem_set member with before | rfl
  · exact known.standing z before
  · exact standing

/-- An execution goes on, and its view stays live or not live. -/
theorem IsTracking.put (known : s.IsTracking) (found : s.shown[i]? = some x) (uri_eq : y.uri = x.uri)
    (same : y.view.isLive = x.view.isLive) (standing : y.view.Standing y.handle) :
    (s.put i y).IsTracking := by
  refine ⟨fun uri => ?_, standing_put known standing⟩
  rw [live_put found uri_eq (fun isLive => same.symm.trans isLive), ← known.views uri]
  split
  · rename_i ended
    rw [Bool.and_eq_true, Bool.not_eq_true'] at ended
    refine (List.erase_of_not_mem (l := s.views uri) ?_).symm
    rw [known.views uri, mem_live]
    rintro ⟨z, again, _, isLive⟩
    rw [found] at again
    cases again
    rw [← same, ended.2] at isLive
    cases isLive
  · rfl

/-- An execution goes on, and its view is taken off the list because it is not live any more. -/
theorem IsTracking.retire (known : s.IsTracking) (found : s.shown[i]? = some x)
    (uri_eq : y.uri = x.uri) (ended : y.view.isLive = false)
    (standing : y.view.Standing y.handle) : ((s.put i y).forget x.uri i).IsTracking := by
  refine ⟨fun uri => ?_, ?_⟩
  · have shown := live_congr ((s.put i y).shown_forget x.uri i)
    rw [views_forget, shown, live_put found uri_eq (fun isLive => by simp [ended] at isLive), ended]
    cases matches_ : x.uri == uri with
    | false => exact known.views uri
    | true =>
      have same : x.uri = uri := by simpa using matches_
      subst same
      exact congrArg (List.erase · i) (known.views x.uri)
  · rw [shown_forget]
    exact standing_put known standing

theorem IsTracking.run (known : s.IsTracking) (i : Nat) : (s.run i).IsTracking := by
  unfold Session.run
  split
  · rename_i x found
    have standing := known.standing x (List.mem_of_getElem? found)
    exact known.put found rfl (ResultView.isLive_run x.view) standing.run
  · exact known

theorem IsTracking.launch (known : s.IsTracking) (fs : Files) (net : Network) (i : Nat) :
    (s.launch fs net i).1.IsTracking := by
  unfold Session.launch
  split
  · exact known
  · rename_i x found
    have standing := known.standing x (List.mem_of_getElem? found)
    split
    · rename_i created
      dsimp only
      refine IsTracking.put (known.congr rfl rfl) found rfl rfl ?_
      exact standing.launch created net _
    · exact known

theorem IsTracking.settleOne (known : s.IsTracking) (fs : Files) (net : Network)
    (disposes : Nat → Bool) (i : Nat) : (s.settleOne fs net disposes i).1.IsTracking := by
  have launched := known.launch fs net i
  unfold Session.settleOne
  generalize s.launch fs net i = after at launched ⊢
  obtain ⟨s, net⟩ := after
  dsimp only at launched ⊢
  split
  · exact launched
  · rename_i x found
    have standing := launched.standing x (List.mem_of_getElem? found)
    obtain ⟨settled, before⟩ :=
      (standing.settleHandle net).settle disposes (x.handle.settle net).2
    have told := settled.isLive_eq
    dsimp only
    split
    · rename_i ends
      rw [ends] at told
      exact launched.retire found rfl told settled
    · rename_i goesOn
      rw [Bool.not_eq_true] at goesOn
      rw [goesOn] at told
      exact launched.put found rfl (told.trans (before told).symm) settled

/-- What a disposal of views with certain numbers does: these are disposed, and the others stay as
they are. -/
structure Disposes (numbers : List Nat) (s t : Session) : Prop where
  gone : ∀ i ∈ numbers, ∀ x, t.shown[i]? = some x → x.view.isDisposed = true
  kept : ∀ i ∉ numbers, t.shown[i]? = s.shown[i]?
  uris : t.shown.map (·.uri) = s.shown.map (·.uri)

theorem IsTracking.disposeView (known : s.IsTracking) (net : Network) (i : Nat) :
    (s.disposeView net i).1.IsTracking ∧ Disposes [i] s (s.disposeView net i).1 := by
  unfold Session.disposeView
  split
  · rename_i absent
    refine ⟨known, ?_, fun _ _ => rfl, rfl⟩
    intro j member x found
    rw [List.mem_singleton.mp member, absent] at found
    cases found
  · rename_i x found
    have standing := known.standing x (List.mem_of_getElem? found)
    split
    · rename_i already
      refine ⟨known, ?_, fun _ _ => rfl, rfl⟩
      intro j member y again
      rw [List.mem_singleton.mp member, found] at again
      cases again
      exact already
    · obtain ⟨gone, disposed⟩ := standing.dispose net
      dsimp only
      refine ⟨known.retire found rfl (by simp [ResultView.isLive, gone]) disposed, ?_, ?_, ?_⟩
      · intro j member y again
        rw [List.mem_singleton.mp member, shown_forget, getElem?_put found, if_pos rfl] at again
        cases again
        exact gone
      · intro j other
        rw [shown_forget, getElem?_put found, if_neg]
        exact fun same => other (List.mem_singleton.mpr same.symm)
      · rw [shown_forget]
        exact uris_put found rfl

theorem IsTracking.disposeViews (known : s.IsTracking) (net : Network) (numbers : List Nat) :
    (s.disposeViews net numbers).1.IsTracking ∧
      Disposes numbers s (s.disposeViews net numbers).1 := by
  unfold Session.disposeViews
  induction numbers generalizing s net with
  | nil => exact ⟨known, nofun, fun _ _ => rfl, rfl⟩
  | cons i rest ih =>
    obtain ⟨disposed, first⟩ := known.disposeView net i
    obtain ⟨tracked, others⟩ := ih disposed (s.disposeView net i).2
    refine ⟨tracked, ?_, ?_, others.uris.trans first.uris⟩
    · intro j member x found
      by_cases later : j ∈ rest
      · exact others.gone j later x found
      · rw [List.foldl_cons, others.kept j later] at found
        exact first.gone j (by simpa [later] using member) x found
    · intro j absent
      rw [List.mem_cons, not_or] at absent
      exact (others.kept j absent.2).trans (first.kept j (by simpa using absent.1))

theorem Disposes.found {numbers : List Nat} (disposed : Disposes numbers s t)
    (found : s.shown[i]? = some x) : ∃ y, t.shown[i]? = some y ∧ y.uri = x.uri := by
  have uris := congrArg (fun l : List String => l[i]?) disposed.uris
  simpa [found] using uris

/-- When all live views of a document are disposed, none is left. -/
theorem Disposes.live_eq_nil {numbers : List Nat} (disposed : Disposes numbers s t) {uri : String}
    (all : ∀ i ∈ s.live uri, i ∈ numbers) : t.live uri = [] := by
  refine List.eq_nil_iff_forall_not_mem.mpr fun i member => ?_
  obtain ⟨x, found, atUri, isLive⟩ := mem_live.mp member
  by_cases named : i ∈ numbers
  · simp [ResultView.isLive, disposed.gone i named x found] at isLive
  · rw [disposed.kept i named] at found
    exact named (all i (mem_live.mpr ⟨x, found, atUri, isLive⟩))

/-- Closing a document disposes the views on its list, takes all of them off, and leaves the
executions, views and lists of other documents as they are. -/
structure Closes (uri : String) (s t : Session) : Prop where
  none_left : t.views uri = []
  disposed : ∀ i ∈ s.views uri, ∃ x : ShownExecution, t.shown[i]? = some x ∧ x.uri = uri ∧
    x.view.isDisposed = true ∧ x.handle.state.isTerminal = true
  others : ∀ (i : Nat) (x : ShownExecution), s.shown[i]? = some x → x.uri ≠ uri → t.shown[i]? = some x
  lists : ∀ other, other ≠ uri → t.views other = s.views other

theorem isTerminal_of_isDisposed (known : s.IsTracking) (member : x ∈ s.shown)
    (gone : x.view.isDisposed = true) : x.handle.state.isTerminal = true := by
  cases known.standing x member with
  | taking _ _ alive => simp [gone] at alive
  | finished _ alive => simp [gone] at alive
  | disposed _ _ terminal => exact terminal

theorem IsTracking.close (known : s.IsTracking) (net : Network) (uri : String) :
    (s.close net uri).1.IsTracking ∧ Closes uri s (s.close net uri).1 := by
  obtain ⟨tracked, disposed⟩ := known.disposeViews net (s.views uri)
  have all : ∀ i ∈ s.live uri, i ∈ s.views uri := by
    rw [known.views]
    exact fun _ => id
  unfold Session.close
  generalize s.disposeViews net (s.views uri) = after at tracked disposed ⊢
  obtain ⟨t, net⟩ := after
  dsimp only at tracked disposed ⊢
  have lists (other : String) :
      (Assoc.get? (Assoc.erase t.open_ uri) other).getD [] = t.live other := by
    rw [Assoc.get?_erase]
    split
    · rename_i same
      rw [← beq_iff_eq.mp same, disposed.live_eq_nil all]
      rfl
    · exact tracked.views other
  refine ⟨⟨lists, tracked.standing⟩, ?_, ?_, ?_, ?_⟩
  · exact (lists uri).trans (disposed.live_eq_nil all)
  · intro i named
    obtain ⟨x, found, atUri, _⟩ := mem_live.mp (known.views uri ▸ named)
    obtain ⟨y, after, same⟩ := disposed.found found
    have gone := disposed.gone i named y after
    exact ⟨y, after, same.trans atUri, gone,
      isTerminal_of_isDisposed tracked (List.mem_of_getElem? after) gone⟩
  · intro i x found apart
    rw [disposed.kept i, found]
    intro named
    obtain ⟨y, again, atUri, _⟩ := mem_live.mp (known.views uri ▸ named)
    rw [found] at again
    cases again
    exact apart atUri
  · intro other apart
    refine (lists other).trans ?_
    have length : t.shown.length = s.shown.length := by simpa using congrArg List.length disposed.uris
    rw [known.views, live, live, length]
    refine List.filter_congr fun i _ => ?_
    by_cases named : i ∈ s.views uri
    · obtain ⟨x, found, atUri, _⟩ := mem_live.mp (known.views uri ▸ named)
      obtain ⟨y, after, same⟩ := disposed.found found
      have neither : (uri == other) = false := beq_eq_false_iff_ne.mpr apart.symm
      simp [found, after, same, atUri, neither]
    · rw [disposed.kept i named]

theorem mem_of_mem_views {uri : String} (listed : i ∈ s.views uri) : i ∈ s.open_.flatMap (·.2) := by
  unfold Session.views Assoc.get? at listed
  cases first : s.open_.find? (fun e => e.1 == uri) with
  | none => simp [first] at listed
  | some e =>
    rw [first] at listed
    exact List.mem_flatMap.mpr ⟨e, List.mem_of_find?_eq_some first, listed⟩

theorem IsTracking.dispose (known : s.IsTracking) (net : Network) : (s.dispose net).1.IsTracking := by
  obtain ⟨tracked, disposed⟩ := known.disposeViews net (s.open_.flatMap (·.2))
  refine ⟨fun uri => (disposed.live_eq_nil fun i alive => ?_).symm, tracked.standing⟩
  rw [← known.views] at alive
  exact mem_of_mem_views alive

theorem lensesFor_apart (s : Session) (uri : String) :
    (s.lensesFor uri).2.shown = s.shown ∧ (s.lensesFor uri).2.open_ = s.open_ := by
  unfold lensesFor
  split
  · exact ⟨rfl, rfl⟩
  · split <;> exact ⟨rfl, rfl⟩

theorem adopt_apart (s : Session) (x : Except Failure (SourceDocument × Workspace)) :
    (s.adopt x).2.shown = s.shown ∧ (s.adopt x).2.open_ = s.open_ := by
  unfold adopt
  split
  · exact ⟨rfl, rfl⟩
  · dsimp only
    split <;> exact ⟨rfl, rfl⟩

/-- The view of a new execution is live, and comes last. -/
theorem live_append (s : Session) (alive : x.view.isLive = true) (lists : List (String × List Nat))
    (uri : String) : ({ s with shown := s.shown ++ [x], open_ := lists } : Session).live uri =
      if x.uri == uri then s.live uri ++ [s.shown.length] else s.live uri := by
  rw [live, live, List.length_append, List.length_singleton, List.range_succ, List.filter_append]
  have before : (List.range s.shown.length).filter (fun i =>
      (s.shown ++ [x])[i]?.any fun x => x.uri == uri && x.view.isLive) =
      (List.range s.shown.length).filter fun i =>
        s.shown[i]?.any fun x => x.uri == uri && x.view.isLive := by
    refine List.filter_congr fun i inside => ?_
    rw [List.getElem?_append_left (List.mem_range.mp inside)]
  rw [before]
  split
  · rename_i atUri
    simp [atUri, alive]
  · rename_i other
    simp [other]

theorem IsTracking.execute (known : s.IsTracking) (id : String) (isWatched : Bool)
    (r : ExecuteRequest) : (s.execute id isWatched r).2.IsTracking := by
  obtain ⟨shown, lists⟩ := s.lensesFor_apart r.uri
  have known := known.congr shown lists
  unfold Session.execute
  generalize s.lensesFor r.uri = after at known ⊢
  obtain ⟨found, s⟩ := after
  dsimp only at known ⊢
  split
  · exact known
  · rename_i operation query _
    have standing := ResultView.standing_start id operation r.values ResultView.defaultUri isWatched
    refine ⟨fun uri => ?_, fun x member => ?_⟩
    · rw [live_append s (by rfl)]
      refine (congrArg (Option.getD · []) (Assoc.get?_put ..)).trans ?_
      split
      · rename_i same
        rw [← beq_iff_eq.mp same, ← known.views]
        rfl
      · exact known.views uri
    · rcases List.mem_append.mp member with before | new
      · exact known.standing x before
      · rw [List.mem_singleton.mp new]
        exact standing

theorem isTracking_of_empty (shown : s.shown = []) (lists : s.open_ = []) : s.IsTracking := by
  refine ⟨fun uri => ?_, ?_⟩
  · rw [Session.views, live, shown, lists]
    rfl
  · simp [shown]

theorem isTracking_start {fs : Files} {process explicit : Environment} {folders : List Path}
    {isDebugging checks : Bool}
    (started : start fs process explicit folders isDebugging checks = .ok s) : s.IsTracking := by
  unfold start at started
  cases checks with
  | false => cases started; exact isTracking_of_empty rfl rfl
  | true =>
    cases required : Configuration.require fs folders with
    | error e => simp only [required] at started; cases started
    | ok path => simp only [required] at started; cases started; exact isTracking_of_empty rfl rfl

/-- What an editor does with documents, executions and their views, and what it meets then: the files
or the network as they are at that time, and owners that dispose their views when they are told of an
update. -/
inductive ViewAction where
  | openFile (fs : Files) (path : Path)
  | openText (uri : String) (text : List Char) (languageId : Option String)
  | change (uri : String) (text : List Char)
  | lenses (uri : String)
  | execute (id : String) (isWatched : Bool) (request : ExecuteRequest)
  | run (i : Nat)
  | settle (fs : Files) (net : Network) (disposes : Nat → Bool) (i : Nat)
  | disposeView (net : Network) (i : Nat)
  | close (net : Network) (uri : String)
  | dispose (net : Network)

/-- The session after an action, whether that succeeds or fails. -/
def next (s : Session) : ViewAction → Session
  | .openFile fs path => (s.openFile fs path).2
  | .openText uri text languageId => (s.openText uri text languageId).2
  | .change uri text => (s.change uri text).2
  | .lenses uri => (s.lensesFor uri).2
  | .execute id isWatched request => (s.execute id isWatched request).2
  | .run i => s.run i
  | .settle fs net disposes i => (s.settleOne fs net disposes i).1
  | .disposeView net i => (s.disposeView net i).1
  | .close net uri => (s.close net uri).1
  | .dispose net => (s.dispose net).1

theorem IsTracking.next (known : s.IsTracking) (action : ViewAction) :
    (s.next action).IsTracking := by
  cases action with
  | openFile fs path => exact known.congr (s.adopt_apart _).1 (s.adopt_apart _).2
  | openText uri text languageId => exact known.congr (s.adopt_apart _).1 (s.adopt_apart _).2
  | change uri text => exact known.congr (s.adopt_apart _).1 (s.adopt_apart _).2
  | lenses uri => exact known.congr (s.lensesFor_apart uri).1 (s.lensesFor_apart uri).2
  | execute id isWatched request => exact known.execute id isWatched request
  | run i => exact known.run i
  | settle fs net disposes i => exact known.settleOne fs net disposes i
  | disposeView net i => exact (known.disposeView net i).1
  | close net uri => exact (known.close net uri).1
  | dispose net => exact known.dispose net

theorem IsTracking.foldl_next (known : s.IsTracking) (actions : List ViewAction) :
    (actions.foldl Session.next s).IsTracking := by
  induction actions generalizing s with
  | nil => exact known
  | cons action rest ih => exact ih (known.next action)

/-- After any actions the views listed for a document are the live ones that were started from it,
each once and in the order of their start. Closing it then disposes these and no others. -/
theorem run_views_live {fs : Files} {process explicit : Environment} {folders : List Path}
    {isDebugging checks : Bool} {first : Session}
    (started : start fs process explicit folders isDebugging checks = .ok first)
    (actions : List ViewAction) (uri : String) :
    (actions.foldl next first).views uri = (actions.foldl next first).live uri ∧
      ∀ net, Closes uri (actions.foldl next first) ((actions.foldl next first).close net uri).1 := by
  have tracked := (isTracking_start started).foldl_next actions
  exact ⟨tracked.views uri, fun net => (tracked.close net uri).2⟩

/-- Two executions are started, the first of which lacks the value of a variable and shows that. -/
def firstFails : List ViewAction := [
  .openText "file:///a" "gql\x60query($v: Int!) \x7b a \x7d\x60".toList (some "javascript"),
  .execute "1" true { uri := "file:///a", start := 4 },
  .execute "2" true { uri := "file:///a", start := 4, values := [("v", .int 1)] },
  .run 0,
  .settle ⟨⟨"/", []⟩, [], []⟩ default (fun _ => false) 0]

/-- Behind the failure of the first execution only the second one is listed. -/
theorem run_views_live_firstFails :
    ∃ first, start ⟨⟨"/", []⟩, [], []⟩ [] [] [] false false = .ok first ∧
      (firstFails.foldl next first).shown.length = 2 ∧
      (firstFails.foldl next first).views "file:///a" = [1] ∧
      (firstFails.foldl next first).live "file:///a" = [1] ∧
      ∀ net, Closes "file:///a" (firstFails.foldl next first)
        ((firstFails.foldl next first).close net "file:///a").1 := by
  obtain ⟨first, started, both, listed⟩ :
      ∃ first ∈ (start ⟨⟨"/", []⟩, [], []⟩ [] [] [] false false).toOption,
        (firstFails.foldl next first).shown.length = 2 ∧
        (firstFails.foldl next first).views "file:///a" = [1] := by
    decide +kernel
  have started := eq_ok_of_mem_toOption started
  obtain ⟨isLive, closes⟩ := run_views_live started firstFails "file:///a"
  exact ⟨first, started, both, listed, isLive ▸ listed, closes⟩

end Session
end InlineQuery
