import InlineQuery.Proofs.Execution.Showing
import Mathlib.Data.List.Induction

/-!
What a view shows of an execution, and what its owner is told, whatever happens and in whichever
order: the content is the text of the last event that is shown, every shown event is told of once
with the next version, and so are the end of the events and the disposal.
-/

namespace InlineQuery

/-- A view with the execution that it shows, and the network of that. -/
structure Scene where
  view : ResultView
  handle : Handle
  net : Network

/-- What can happen to a view and its execution, at any time and in any order. The network changes at
will, the execution's task has an effect or comes to the end of a turn, and the execution is
disposed by itself. The view begins to take events, takes the next one, or is disposed. -/
inductive Deed where
  | network (net : Network)
  | perform (effect : Effect)
  | conclude (ending : Ending)
  | release
  | run
  | take
  | dispose

def Deed.isRun : Deed → Bool
  | run => true
  | _ => false

namespace ResultView

/-- The events that are shown out of those that are delivered: all but a mere completion behind
another event. -/
def shownOf : List ResultEvent → List ResultEvent
  | [] => []
  | e :: rest => e :: rest.filter fun e => !isCompletion e

/-- The updates that shown events are told with. They are numbered from one. -/
def updatesOf (shown : List ResultEvent) : List (Nat × String) :=
  shown.mapIdx fun i e => (i + 1, e.text)

end ResultView

/-- The version and the content that a note tells. -/
def ViewNote.update? : ViewNote → Option (Nat × String)
  | updated version content => some (version, content)
  | _ => none

namespace Scene

variable (owner : Nat → Bool)

/-- `owner` says at which updates the owner disposes the view. -/
def next (s : Scene) : Deed → Scene
  | .network net => { s with net }
  | .perform effect => { s with handle := s.handle.perform effect }
  | .conclude ending => { s with handle := s.handle.conclude ending }
  | .release =>
    let (handle, net) := s.handle.dispose s.net
    { s with handle, net }
  | .run => { s with view := s.view.run }
  | .take =>
    let (view, handle, net) := s.view.step owner s.handle s.net
    { view, handle, net }
  | .dispose =>
    let (view, handle, net) := s.view.dispose s.handle s.net
    { view, handle, net }

def run (s : Scene) (deeds : List Deed) : Scene := deeds.foldl (next owner) s

/-- The event that a view takes next. -/
def taken? (s : Scene) : Option ResultEvent :=
  match s.view.showing, s.handle.queue with
  | .running, some e :: _ => some e
  | _, _ => none

/-- The event that is delivered to the view by a deed. -/
def handed? (s : Scene) : Deed → Option ResultEvent
  | .take => s.taken?
  | _ => none

/-- The events that are delivered to the view. -/
def delivered (s : Scene) : List Deed → List ResultEvent
  | [] => []
  | deed :: rest => (s.handed? deed).toList ++ (s.next owner deed).delivered rest

/-- Whether the view is disposed: by itself, or by its owner at an update that it is told of. -/
def Disposes (s : Scene) (deeds : List Deed) : Prop :=
  .dispose ∈ deeds ∨ s.view.isWatched = true ∧
    ∃ version, 0 < version ∧ version ≤ (ResultView.shownOf (s.delivered owner deeds)).length ∧
      owner version = true

/-- Whether the final event is delivered, and the view is not disposed before it stops taking
events. -/
def Finishes (s : Scene) (deeds : List Deed) : Prop :=
  ∃ before after e, deeds = before ++ .take :: after ∧ (s.run owner before).taken? = some e ∧
    e.isFinal = true ∧ ¬ s.Disposes owner (before ++ [.take])

end Scene

namespace ResultView

variable {v : ResultView} {events : List ResultEvent} {e : ResultEvent}

theorem shownOf_concat (events : List ResultEvent) (e : ResultEvent) :
    shownOf (events ++ [e]) =
      if isCompletion e && !events.isEmpty then shownOf events else shownOf events ++ [e] := by
  cases events with
  | nil => simp [shownOf]
  | cons first rest =>
    cases completes : isCompletion e <;> simp [shownOf, completes]

theorem updatesOf_concat (shown : List ResultEvent) (e : ResultEvent) :
    updatesOf (shown ++ [e]) = updatesOf shown ++ [(shown.length + 1, e.text)] := by
  simp [updatesOf, List.mapIdx_append]

/-- A view stands as it should after some events: the last of those that are shown is its content,
and it has told of each of them, if it is watched. -/
structure Reflects (isWatched : Bool) (events : List ResultEvent) (v : ResultView) : Prop where
  watched : v.isWatched = isWatched
  last : v.lastEvent = events.getLast?
  content : v.content = ((shownOf events).getLast?.map ResultEvent.text).getD pendingText
  version : v.version = (shownOf events).length
  updates : v.notes.filterMap ViewNote.update? =
    if isWatched then updatesOf (shownOf events) else []

variable {isWatched : Bool}

theorem reflects_new (uri : String) (isWatched : Bool) : Reflects isWatched [] (new uri isWatched) :=
  ⟨rfl, rfl, rfl, rfl, by cases isWatched <;> rfl⟩

theorem Reflects.hasFinal (known : Reflects isWatched events v) :
    v.hasFinal = (events.getLast?.map (·.isFinal)).getD false := by
  rw [ResultView.hasFinal, known.last]

/-- A note that is no update, and what a view is doing, do not concern what it shows. -/
theorem Reflects.note (known : Reflects isWatched events v) {n : ViewNote}
    (silent : n.update? = none) : Reflects isWatched events (v.note n) := by
  refine ⟨known.watched, known.last, known.content, known.version, ?_⟩
  rw [ResultView.note, List.filterMap_append, known.updates]
  simp [silent]

theorem Reflects.run (known : Reflects isWatched events v) : Reflects isWatched events v.run := by
  unfold ResultView.run
  split
  · exact known
  · exact ⟨known.watched, known.last, known.content, known.version, known.updates⟩

theorem conclude_eq (v : ResultView) : v.conclude =
    if !v.isDisposed && v.hasFinal then { v with showing := .done }.note .finished
    else { v with showing := .done } := rfl

theorem Reflects.conclude (known : Reflects isWatched events v) :
    Reflects isWatched events v.conclude := by
  have stopped : Reflects isWatched events { v with showing := .done } :=
    ⟨known.watched, known.last, known.content, known.version, known.updates⟩
  rw [conclude_eq]
  split
  · exact stopped.note rfl
  · exact stopped

theorem Reflects.dispose (known : Reflects isWatched events v) (h : Handle) (net : Network) :
    Reflects isWatched events (v.dispose h net).1 := by
  have marked : Reflects isWatched events { v with isDisposed := true } :=
    ⟨known.watched, known.last, known.content, known.version, known.updates⟩
  unfold ResultView.dispose
  split
  · exact known
  · exact marked.note rfl

/-- An event is shown unless it is a mere completion behind another event. -/
theorem Reflects.shows (known : Reflects isWatched events v) (e : ResultEvent) :
    v.shows e = !(isCompletion e && !events.isEmpty) := by
  have begun : decide (0 < v.version) = !events.isEmpty := by
    rw [known.version]
    cases events <;> simp [shownOf]
  rw [ResultView.shows, begun]

theorem Reflects.shownOf_concat (known : Reflects isWatched events v) (e : ResultEvent) :
    shownOf (events ++ [e]) = if v.shows e then shownOf events ++ [e] else shownOf events := by
  rw [ResultView.shownOf_concat, known.shows]
  cases isCompletion e && !events.isEmpty <;> rfl

/-- Taking in an event shows it if it is to be shown. -/
theorem Reflects.apply (known : Reflects isWatched events v) (e : ResultEvent) :
    Reflects isWatched (events ++ [e]) (v.apply e) := by
  have shown := known.shownOf_concat e
  have last : some e = (events ++ [e]).getLast? := by simp
  unfold ResultView.apply
  dsimp only
  split
  · rename_i shows
    rw [if_pos shows] at shown
    have content : e.text =
        ((shownOf (events ++ [e])).getLast?.map ResultEvent.text).getD pendingText := by
      simp [shown]
    have version : v.version + 1 = (shownOf (events ++ [e])).length := by
      simp [shown, known.version]
    split
    · rename_i watched
      have isTrue : isWatched = true := known.watched.symm.trans watched
      refine ⟨known.watched, last, content, version, ?_⟩
      rw [ResultView.note, List.filterMap_append, known.updates, shown, updatesOf_concat, isTrue,
        ← known.version]
      simp [ViewNote.update?]
    · rename_i unwatched
      have isFalse : isWatched = false := by simpa [known.watched] using unwatched
      refine ⟨known.watched, last, content, version, ?_⟩
      simpa [isFalse] using known.updates
  · rename_i hides
    rw [if_neg hides] at shown
    exact ⟨known.watched, last, by rw [shown]; exact known.content,
      by rw [shown]; exact known.version, by rw [shown]; exact known.updates⟩

/-- Taking in an event adds no note but that of its update. -/
theorem count_apply {n : ViewNote} (silent : n.update? = none) (v : ResultView) (e : ResultEvent) :
    (v.apply e).notes.count n = v.notes.count n := by
  have other : ∀ version content, ViewNote.updated version content ≠ n := by
    rintro version content rfl
    cases silent
  unfold apply
  dsimp only
  split
  · split
    · simp [note, other]
    · rfl
  · rfl

theorem showing_apply (v : ResultView) (e : ResultEvent) : (v.apply e).showing = v.showing := by
  unfold apply
  dsimp only
  split
  · split <;> rfl
  · rfl

theorem version_apply (shows : v.shows e = true) : (v.apply e).version = v.version + 1 := by
  unfold apply
  dsimp only
  rw [if_pos shows]
  split <;> rfl

theorem count_finished_conclude (v : ResultView) : v.conclude.notes.count .finished =
    v.notes.count .finished + if !v.isDisposed && v.hasFinal then 1 else 0 := by
  rw [conclude_eq]
  cases !v.isDisposed && v.hasFinal <;> simp [note]

theorem count_disposed_conclude (v : ResultView) :
    v.conclude.notes.count .disposed = v.notes.count .disposed := by
  rw [conclude_eq]
  split <;> simp [note]

theorem showing_conclude (v : ResultView) : v.conclude.showing = .done := by
  rw [conclude_eq]
  split <;> rfl

theorem isDisposed_conclude (v : ResultView) : v.conclude.isDisposed = v.isDisposed := by
  rw [conclude_eq]
  split <;> rfl

theorem count_disposed_dispose (v : ResultView) (h : Handle) (net : Network) :
    (v.dispose h net).1.notes.count .disposed =
      v.notes.count .disposed + if v.isDisposed then 0 else 1 := by
  unfold dispose
  split <;> simp [note, *]

theorem count_finished_dispose (v : ResultView) (h : Handle) (net : Network) :
    (v.dispose h net).1.notes.count .finished = v.notes.count .finished := by
  unfold dispose
  split <;> simp [note]

theorem isDisposed_dispose (v : ResultView) (h : Handle) (net : Network) :
    (v.dispose h net).1.isDisposed = true := by
  unfold dispose
  split
  · assumption
  · rfl

theorem showing_dispose (v : ResultView) (h : Handle) (net : Network) :
    (v.dispose h net).1.showing = v.showing := by
  unfold dispose
  split <;> rfl

theorem hasFinal_dispose (v : ResultView) (h : Handle) (net : Network) :
    (v.dispose h net).1.hasFinal = v.hasFinal := by
  unfold dispose
  split <;> rfl

end ResultView

namespace Handle

/-- Behind a release no event waits. -/
def IsDrained (h : Handle) : Prop := h.isReleased = true → ∀ entry ∈ h.queue, entry = none

variable {h : Handle}

theorem IsDrained.perform (drained : h.IsDrained) (effect : Effect) :
    (h.perform effect).IsDrained := by
  intro released
  rw [isReleased_perform] at released
  rw [queue_perform, if_pos released]
  exact drained released

theorem IsDrained.conclude (drained : h.IsDrained) (ending : Ending) :
    (h.conclude ending).IsDrained := by
  intro released
  rw [isReleased_conclude] at released
  rw [queue_conclude, if_pos released]
  exact drained released

theorem IsDrained.dispose (drained : h.IsDrained) (net : Network) :
    (h.dispose net).1.IsDrained := by
  intro _
  rw [queue_dispose]
  split
  · rename_i released
    exact drained released
  · simp

/-- The disposal of a view releases its execution. -/
theorem IsDrained.disposeView (drained : h.IsDrained) {v : ResultView}
    (released : v.isDisposed = true → h.isReleased = true) (net : Network) :
    (v.dispose h net).2.1.IsDrained ∧ (v.dispose h net).2.1.isReleased = true := by
  unfold ResultView.dispose
  split
  · rename_i already
    exact ⟨drained, released already⟩
  · exact ⟨drained.dispose net, h.isReleased_dispose net⟩

theorem IsDrained.tail (drained : h.IsDrained) {first : Option ResultEvent}
    {rest : List (Option ResultEvent)} (queue : h.queue = first :: rest) :
    IsDrained { h with queue := rest } := by
  intro released entry member
  exact drained released entry (queue ▸ List.mem_cons_of_mem first member)

end Handle

namespace ResultView

variable {v : ResultView} {h : Handle} {isWatched : Bool} {events : List ResultEvent}

theorem step_of_nothing {owner : Nat → Bool} {net : Network}
    (nothing : v.showing = .running → h.queue = []) : v.step owner h net = (v, h, net) := by
  unfold step
  split <;> simp_all

/-- What comes of showing an event to a view that is not disposed: its owner may dispose it. -/
theorem Reflects.show (known : Reflects isWatched events v) (kept : v.isDisposed = false)
    (untold : v.notes.count .disposed = 0) (drained : h.IsDrained) (owner : Nat → Bool)
    (net : Network) (e : ResultEvent) :
    ∃ next g after, v.show_ owner h net e = (next, g, after) ∧
      Reflects isWatched (events ++ [e]) next ∧ g.IsDrained ∧
      (next.isDisposed = true → g.isReleased = true) ∧
      next.isDisposed = (v.shows e && isWatched && owner (v.version + 1)) ∧
      next.hasFinal = e.isFinal ∧ next.showing = v.showing ∧
      next.notes.count .disposed = (if next.isDisposed then 1 else 0) ∧
      next.notes.count .finished = v.notes.count .finished := by
  have reflects := known.apply e
  obtain ⟨isDisposed, hasFinal, _⟩ := v.apply_spec e
  have stays := isDisposed.trans kept
  have disposed := (count_apply (n := .disposed) rfl v e).trans untold
  have finished := count_apply (n := .finished) rfl v e
  have showing := v.showing_apply e
  have asked : (v.shows e && v.isWatched && owner (v.apply e).version) =
      (v.shows e && isWatched && owner (v.version + 1)) := by
    rw [known.watched]
    cases shows : v.shows e with
    | false => rfl
    | true => rw [version_apply shows]
  rw [show_, asked]
  cases v.shows e && isWatched && owner (v.version + 1) with
  | false =>
    exact ⟨_, _, _, rfl, reflects, drained, fun gone => by simp [stays] at gone, stays, hasFinal,
      showing, by simp [disposed, stays], finished⟩
  | true =>
    have released := drained.disposeView (fun gone => by simp [stays] at gone) net (v := v.apply e)
    have gone := (v.apply e).isDisposed_dispose h net
    have once := (v.apply e).count_disposed_dispose h net
    refine ⟨((v.apply e).dispose h net).1, ((v.apply e).dispose h net).2.1,
      ((v.apply e).dispose h net).2.2, rfl, reflects.dispose h net, released.1, fun _ => released.2,
      gone, ?_, ?_, ?_, ?_⟩
    · exact ((v.apply e).hasFinal_dispose h net).trans hasFinal
    · exact ((v.apply e).showing_dispose h net).trans showing
    · simp [once, gone, disposed, stays]
    · exact ((v.apply e).count_finished_dispose h net).trans finished

end ResultView

namespace Scene

variable {owner : Nat → Bool} {s : Scene} {deeds : List Deed} {deed : Deed} {e : ResultEvent}

theorem run_concat (owner : Nat → Bool) (s : Scene) (deeds : List Deed) (deed : Deed) :
    s.run owner (deeds ++ [deed]) = (s.run owner deeds).next owner deed :=
  List.foldl_append

theorem delivered_concat (owner : Nat → Bool) (s : Scene) (deeds : List Deed) (deed : Deed) :
    s.delivered owner (deeds ++ [deed]) =
      s.delivered owner deeds ++ ((s.run owner deeds).handed? deed).toList := by
  induction deeds generalizing s with
  | nil => simp [delivered, run]
  | cons first rest ih =>
    rw [List.cons_append, delivered, delivered, ih, List.append_assoc]
    rfl

theorem finishes_concat : s.Finishes owner (deeds ++ [deed]) ↔
    s.Finishes owner deeds ∨ deed = .take ∧ ∃ e, (s.run owner deeds).taken? = some e ∧
      e.isFinal = true ∧ ¬ s.Disposes owner (deeds ++ [.take]) := by
  constructor
  · rintro ⟨before, after, e, split, taken, final, kept⟩
    rcases List.eq_nil_or_concat after with rfl | ⟨inner, last, rfl⟩
    · obtain ⟨rfl, ends⟩ := List.append_inj' split rfl
      cases ends
      exact .inr ⟨rfl, e, taken, final, kept⟩
    · have regrouped : deeds ++ [deed] = (before ++ .take :: inner) ++ [last] := by
        simpa using split
      obtain ⟨rfl, _⟩ := List.append_inj' regrouped rfl
      exact .inl ⟨before, inner, e, rfl, taken, final, kept⟩
  · rintro (⟨before, after, e, rfl, taken, final, kept⟩ | ⟨rfl, e, taken, final, kept⟩)
    · exact ⟨before, after ++ [deed], e, by simp, taken, final, kept⟩
    · exact ⟨deeds, [], e, rfl, taken, final, kept⟩

/-- What holds of a scene that some deeds have led to. Until the view stops taking events none of
those that it was handed is final. -/
structure Follows (owner : Nat → Bool) (s : Scene) (deeds : List Deed) (t : Scene) : Prop where
  reflects : t.view.Reflects s.view.isWatched (s.delivered owner deeds)
  drained : t.handle.IsDrained
  released : t.view.isDisposed = true → t.handle.isReleased = true
  disposed : t.view.isDisposed = true ↔ s.Disposes owner deeds
  countDisposed : t.view.notes.count .disposed = if t.view.isDisposed then 1 else 0
  finished : .finished ∈ t.view.notes ↔ s.Finishes owner deeds
  countFinished : t.view.notes.count .finished ≤ 1
  begun : t.view.showing = .idle ↔ deeds.countP Deed.isRun = 0
  going : t.view.showing ≠ .done →
    .finished ∉ t.view.notes ∧ ∀ e ∈ s.delivered owner deeds, e.isFinal = false

/-- An owner that has not disposed a view disposes it at an event if it is told of that and asks for
it at that version. -/
theorem disposes_take_iff
    (reflects : (s.run owner deeds).view.Reflects s.view.isWatched (s.delivered owner deeds))
    (kept : ¬ s.Disposes owner deeds) (taken : (s.run owner deeds).taken? = some e) :
    s.Disposes owner (deeds ++ [.take]) ↔
      ((s.run owner deeds).view.shows e && s.view.isWatched &&
        owner ((s.run owner deeds).view.version + 1)) = true := by
  have events : s.delivered owner (deeds ++ [.take]) = s.delivered owner deeds ++ [e] := by
    rw [delivered_concat, handed?, taken]
    rfl
  have shown := reflects.shownOf_concat e
  obtain ⟨asks, quiet⟩ := not_or.mp kept
  rw [Disposes, events, shown, reflects.version]
  cases watched : s.view.isWatched with
  | false => simp [asks]
  | true =>
    have before : ∀ version, 0 < version →
        version ≤ (ResultView.shownOf (s.delivered owner deeds)).length → owner version = false :=
      fun version positive le => Bool.eq_false_iff.mpr fun asked =>
        quiet ⟨watched, version, positive, le, asked⟩
    cases shows : (s.run owner deeds).view.shows e with
    | false =>
      simp only [asks, List.mem_append, List.mem_singleton, reduceCtorEq, or_self, false_or,
        true_and, Bool.false_and, Bool.false_eq_true, if_false, iff_false]
      rintro ⟨version, positive, le, asked⟩
      simp [before version positive le] at asked
    | true =>
      simp only [asks, List.mem_append, List.mem_singleton, reduceCtorEq, or_self, false_or,
        true_and, Bool.true_and, if_true, List.length_append, List.length_singleton]
      constructor
      · rintro ⟨version, positive, le, asked⟩
        rcases Nat.le_succ_iff.mp le with earlier | rfl
        · simp [before version positive earlier] at asked
        · exact asked
      · exact fun asked => ⟨_, Nat.succ_pos _, Nat.le_refl _, asked⟩

theorem delivered_concat_of_ne (apart : deed ≠ .take) :
    s.delivered owner (deeds ++ [deed]) = s.delivered owner deeds := by
  have silent : (s.run owner deeds).handed? deed = none := by
    cases deed <;> first | rfl | exact absurd rfl apart
  rw [delivered_concat, silent]
  exact List.append_nil _

theorem finishes_concat_of_ne (apart : deed ≠ .take) :
    s.Finishes owner (deeds ++ [deed]) ↔ s.Finishes owner deeds := by
  rw [finishes_concat]
  simp [apart]

theorem disposes_concat_of_ne (noTake : deed ≠ .take) (noDispose : deed ≠ .dispose) :
    s.Disposes owner (deeds ++ [deed]) ↔ s.Disposes owner deeds := by
  rw [Disposes, Disposes, delivered_concat_of_ne noTake]
  simp [Ne.symm noDispose]

variable {t : Scene}

/-- What the execution does by itself does not concern the view. -/
theorem Follows.apart (known : s.Follows owner deeds t) {h : Handle} {net : Network}
    (drained : h.IsDrained) (released : t.handle.isReleased = true → h.isReleased = true)
    (noTake : deed ≠ .take) (noDispose : deed ≠ .dispose) (noRun : deed.isRun = false) :
    s.Follows owner (deeds ++ [deed]) { t with handle := h, net } := by
  have events : s.delivered owner (deeds ++ [deed]) = s.delivered owner deeds :=
    delivered_concat_of_ne noTake
  refine ⟨events ▸ known.reflects, drained, fun gone => released (known.released gone), ?_,
    known.countDisposed, ?_, known.countFinished, ?_, events ▸ known.going⟩
  · rw [disposes_concat_of_ne noTake noDispose]
    exact known.disposed
  · rw [finishes_concat_of_ne noTake]
    exact known.finished
  · simpa [List.countP_append, noRun] using known.begun

/-- A view begins to take events once. -/
theorem Follows.run (known : s.Follows owner deeds t)
    (once : (deeds ++ [Deed.run]).countP Deed.isRun ≤ 1) :
    s.Follows owner (deeds ++ [.run]) { t with view := t.view.run } := by
  have first : deeds.countP Deed.isRun = 0 := by
    simpa [List.countP_append, Deed.isRun] using once
  have isIdle := known.begun.mpr first
  have noTake : Deed.run ≠ .take := nofun
  have events : s.delivered owner (deeds ++ [.run]) = s.delivered owner deeds :=
    delivered_concat_of_ne noTake
  have starts : t.view.run = { t.view with showing := .running } := by
    simp [ResultView.run, isIdle]
  have going := known.going (by simp [isIdle])
  have reflects := known.reflects.run
  rw [starts] at reflects ⊢
  refine ⟨events ▸ reflects, known.drained, known.released, ?_, known.countDisposed, ?_,
    known.countFinished, ?_, fun _ => events ▸ going⟩
  · rw [disposes_concat_of_ne noTake nofun]
    exact known.disposed
  · rw [finishes_concat_of_ne noTake]
    exact known.finished
  · simp [List.countP_append, Deed.isRun]

theorem Follows.dispose (known : s.Follows owner deeds t) :
    s.Follows owner (deeds ++ [.dispose]) (t.next owner .dispose) := by
  have noTake : Deed.dispose ≠ .take := nofun
  have events : s.delivered owner (deeds ++ [.dispose]) = s.delivered owner deeds :=
    delivered_concat_of_ne noTake
  have gone := t.view.isDisposed_dispose t.handle t.net
  have finished := t.view.count_finished_dispose t.handle t.net
  have disposed := t.view.count_disposed_dispose t.handle t.net
  have showing := t.view.showing_dispose t.handle t.net
  have told : .finished ∈ (t.view.dispose t.handle t.net).1.notes ↔ .finished ∈ t.view.notes := by
    rw [← List.count_pos_iff, finished, List.count_pos_iff]
  obtain ⟨drained, released⟩ := known.drained.disposeView known.released t.net
  have reflects := known.reflects.dispose t.handle t.net
  rw [next]
  refine ⟨events ▸ reflects, drained, fun _ => released, ?_, ?_, ?_,
    le_of_eq_of_le finished known.countFinished, ?_, ?_⟩
  · exact iff_of_true gone (.inl (by simp))
  · rw [known.countDisposed] at disposed
    simp only [gone, disposed]
    cases t.view.isDisposed <;> rfl
  · rw [finishes_concat_of_ne noTake]
    exact told.trans known.finished
  · simp only [showing, known.begun]
    simp [List.countP_append, Deed.isRun]
  · simp only [showing, told, events]
    exact known.going

theorem Follows.take_silent (known : s.Follows owner deeds (s.run owner deeds))
    (silent : (s.run owner deeds).taken? = none) {v : ResultView} {h : Handle} {net : Network}
    (reflects : v.Reflects s.view.isWatched (s.delivered owner deeds)) (drained : h.IsDrained)
    (released : h.isReleased = (s.run owner deeds).handle.isReleased)
    (isDisposed : v.isDisposed = (s.run owner deeds).view.isDisposed)
    (notes : v.notes = (s.run owner deeds).view.notes)
    (showing : v.showing = (s.run owner deeds).view.showing ∨
      v.showing = .done ∧ (s.run owner deeds).view.showing = .running) :
    s.Follows owner (deeds ++ [.take]) ⟨v, h, net⟩ := by
  have events : s.delivered owner (deeds ++ [.take]) = s.delivered owner deeds := by
    rw [delivered_concat, handed?, silent]
    exact List.append_nil _
  refine ⟨events ▸ reflects, drained, ?_, ?_, ?_, ?_, ?_, ?_, ?_⟩
  · rw [isDisposed, released]
    exact known.released
  · rw [isDisposed, known.disposed, Disposes, Disposes, events]
    simp
  · simp only [isDisposed, notes]
    exact known.countDisposed
  · rw [finishes_concat, silent, notes]
    simpa using known.finished
  · rw [notes]
    exact known.countFinished
  · have begun := known.begun
    rcases showing with same | ⟨done, running⟩
    · simpa [same, List.countP_append, Deed.isRun] using begun
    · simpa [done, running, List.countP_append, Deed.isRun] using begun
  · rcases showing with same | ⟨done, running⟩
    · simp only [same, notes, events]
      exact known.going
    · exact fun notDone => absurd done notDone

/-- Behind a mark of the end the view stops taking events. -/
theorem Follows.take_mark (known : s.Follows owner deeds (s.run owner deeds))
    {rest : List (Option ResultEvent)} (running : (s.run owner deeds).view.showing = .running)
    (queue : (s.run owner deeds).handle.queue = none :: rest) :
    s.Follows owner (deeds ++ [.take]) ((s.run owner deeds).next owner .take) := by
  have going := (known.going (by simp [running])).2
  have noFinal : (s.run owner deeds).view.hasFinal = false := by
    rw [known.reflects.hasFinal]
    cases last : (s.delivered owner deeds).getLast? with
    | none => rfl
    | some e => exact going e (List.mem_of_getLast? last)
  have silent : (s.run owner deeds).taken? = none := by
    simp [taken?, queue]
  have stops : (s.run owner deeds).view.conclude =
      { (s.run owner deeds).view with showing := .done } := by
    simp [ResultView.conclude_eq, noFinal]
  have reflects := known.reflects.conclude
  simp only [next, ResultView.step, running, queue]
  rw [stops] at reflects ⊢
  exact known.take_silent silent reflects (known.drained.tail queue) rfl rfl rfl (.inr ⟨rfl, running⟩)

/-- What holds when the view has shown an event, before it looks whether that was the final one. -/
structure HasShown (owner : Nat → Bool) (s : Scene) (deeds : List Deed) (e : ResultEvent)
    (v : ResultView) (h : Handle) : Prop where
  reflects : v.Reflects s.view.isWatched (s.delivered owner (deeds ++ [.take]))
  drained : h.IsDrained
  released : v.isDisposed = true → h.isReleased = true
  disposed : v.isDisposed = true ↔ s.Disposes owner (deeds ++ [.take])
  countDisposed : v.notes.count .disposed = if v.isDisposed then 1 else 0
  countFinished : v.notes.count .finished = 0
  running : v.showing = .running
  hasFinal : v.hasFinal = e.isFinal
  finishes : s.Finishes owner (deeds ++ [.take]) ↔ e.isFinal = true ∧ v.isDisposed = false

section Taking

variable {rest : List (Option ResultEvent)}

/-- An event is delivered only to a view that is not disposed. -/
theorem Follows.kept (known : s.Follows owner deeds (s.run owner deeds))
    (queue : (s.run owner deeds).handle.queue = some e :: rest) :
    (s.run owner deeds).view.isDisposed = false := by
  cases gone : (s.run owner deeds).view.isDisposed with
  | false => rfl
  | true =>
    have mark := known.drained (known.released gone) (some e) (by simp [queue])
    cases mark

theorem Follows.show (known : s.Follows owner deeds (s.run owner deeds))
    (running : (s.run owner deeds).view.showing = .running)
    (queue : (s.run owner deeds).handle.queue = some e :: rest) :
    ∃ v h net, (s.run owner deeds).view.show_ owner
        { (s.run owner deeds).handle with queue := rest } (s.run owner deeds).net e = (v, h, net) ∧
      HasShown owner s deeds e v h := by
  have kept := known.kept queue
  have taken : (s.run owner deeds).taken? = some e := by
    simp [taken?, running, queue]
  have events : s.delivered owner (deeds ++ [.take]) = s.delivered owner deeds ++ [e] := by
    rw [delivered_concat, handed?, taken]
    rfl
  have notYet : ¬ s.Disposes owner deeds := by simp [← known.disposed, kept]
  have silent := (known.going (by simp [running])).1
  have unfinished : ¬ s.Finishes owner deeds := known.finished.not.mp silent
  have asked := disposes_take_iff known.reflects notYet taken
  have countDisposed := known.countDisposed
  rw [kept] at countDisposed
  obtain ⟨v, h, net, shown, reflects, drained, released, isDisposed, hasFinal, showing,
    countDisposed, countFinished⟩ := known.reflects.show kept countDisposed
      (known.drained.tail queue) owner (s.run owner deeds).net e
  rw [← isDisposed] at asked
  refine ⟨v, h, net, shown, events ▸ reflects, drained, released, asked.symm, countDisposed,
    countFinished.trans (List.count_eq_zero.mpr silent), showing.trans running, hasFinal, ?_⟩
  rw [finishes_concat]
  simp [unfinished, taken, asked]

/-- An event that is delivered is shown. Behind a final one the view stops taking events. -/
theorem Follows.take_event (known : s.Follows owner deeds (s.run owner deeds))
    (running : (s.run owner deeds).view.showing = .running)
    (queue : (s.run owner deeds).handle.queue = some e :: rest) :
    s.Follows owner (deeds ++ [.take]) ((s.run owner deeds).next owner .take) := by
  have kept := known.kept queue
  obtain ⟨v, h, net, shown, has⟩ := known.show running queue
  have begun := known.begun
  have began : (deeds ++ [Deed.take]).countP Deed.isRun = deeds.countP Deed.isRun := by
    simp [List.countP_append, Deed.isRun]
  simp only [next, ResultView.step, running, queue, kept, shown, Bool.false_eq_true, if_false]
  cases final : e.isFinal with
  | false =>
    have silent : .finished ∉ v.notes := List.count_eq_zero.mp has.countFinished
    refine ⟨has.reflects, has.drained, has.released, has.disposed, has.countDisposed, ?_,
      le_of_eq_of_le has.countFinished (Nat.zero_le 1), ?_, fun _ => ⟨silent, ?_⟩⟩
    · simp [has.finishes, final, silent]
    · rw [began, ← begun]
      simp [has.running, running]
    · intro x member
      rw [delivered_concat, handed?, taken?, running, queue] at member
      rcases List.mem_append.mp member with earlier | itself
      · exact (known.going (by simp [running])).2 x earlier
      · rwa [List.mem_singleton.mp itself]
  | true =>
    simp only [if_true]
    have stays := v.isDisposed_conclude
    have tells := v.count_finished_conclude
    have keeps := v.count_disposed_conclude
    rw [has.countFinished, has.hasFinal, final] at tells
    have told : .finished ∈ v.conclude.notes ↔ v.isDisposed = false := by
      rw [← List.count_pos_iff, tells]
      cases v.isDisposed <;> decide
    refine ⟨has.reflects.conclude, has.drained, ?_, ?_, ?_, ?_, ?_, ?_, ?_⟩
    · simpa [stays] using has.released
    · simpa [stays] using has.disposed
    · simpa [stays, keeps] using has.countDisposed
    · simp [told, has.finishes, final]
    · simp only [tells]
      split <;> simp
    · rw [began, ← begun]
      simp [v.showing_conclude, running]
    · simp [v.showing_conclude]

end Taking

theorem Follows.take (known : s.Follows owner deeds (s.run owner deeds)) :
    s.Follows owner (deeds ++ [.take]) ((s.run owner deeds).next owner .take) := by
  by_cases nothing : (s.run owner deeds).view.showing = .running →
      (s.run owner deeds).handle.queue = []
  · have silent : (s.run owner deeds).taken? = none := by
      unfold taken?
      split <;> simp_all
    have same : (s.run owner deeds).next owner .take = s.run owner deeds := by
      rw [next, ResultView.step_of_nothing nothing]
    rw [same]
    exact known.take_silent silent known.reflects known.drained rfl rfl rfl (.inl rfl)
  · obtain ⟨running, some_⟩ := Classical.not_imp.mp nothing
    obtain ⟨first, rest, queue⟩ := List.exists_cons_of_ne_nil some_
    cases first with
    | none => exact known.take_mark running queue
    | some e => exact known.take_event running queue

theorem follows_start {h : Handle} (held : h.isReleased = false) (owner : Nat → Bool)
    (uri : String) (isWatched : Bool) (net : Network) :
    Follows owner ⟨.new uri isWatched, h, net⟩ [] ⟨.new uri isWatched, h, net⟩ := by
  refine ⟨ResultView.reflects_new uri isWatched, fun released => ?_, nofun, ?_, rfl, ?_, Nat.zero_le 1,
    ?_, fun _ => ⟨nofun, nofun⟩⟩
  · simp [held] at released
  · refine iff_of_false nofun ?_
    rintro (asked | ⟨_, version, positive, le, _⟩)
    · cases asked
    · exact Nat.not_le.mpr positive le
  · simp [Finishes, ResultView.new]
  · simp [ResultView.new]

theorem Follows.next (known : s.Follows owner deeds (s.run owner deeds))
    (once : (deeds ++ [deed]).countP Deed.isRun ≤ 1) :
    s.Follows owner (deeds ++ [deed]) (s.run owner (deeds ++ [deed])) := by
  rw [run_concat]
  cases deed with
  | network net => exact known.apart known.drained id nofun nofun rfl
  | perform effect =>
    refine known.apart (known.drained.perform effect) (fun released => ?_) nofun nofun rfl
    rw [Handle.isReleased_perform, released]
  | conclude ending =>
    refine known.apart (known.drained.conclude ending) (fun released => ?_) nofun nofun rfl
    rw [Handle.isReleased_conclude, released]
  | release =>
    exact known.apart (known.drained.dispose _) (fun _ => Handle.isReleased_dispose ..) nofun nofun
      rfl
  | run => exact known.run once
  | take => exact known.take
  | dispose => exact known.dispose

theorem follows_run {h : Handle} (held : h.isReleased = false) (owner : Nat → Bool) (uri : String)
    (isWatched : Bool) (net : Network) {deeds : List Deed} (once : deeds.countP Deed.isRun ≤ 1) :
    Follows owner ⟨.new uri isWatched, h, net⟩ deeds
      (run owner ⟨.new uri isWatched, h, net⟩ deeds) := by
  induction deeds using List.reverseRecOn with
  | nil => exact follows_start held owner uri isWatched net
  | append_singleton before deed ih =>
    have earlier : before.countP Deed.isRun ≤ 1 := by
      rw [List.countP_append] at once
      exact Nat.le_of_add_right_le once
    exact (ih earlier).next once

/-- Behind the disposal of a view nothing is delivered to it. -/
theorem delivered_append_of_disposes {h : Handle} (held : h.isReleased = false) (owner : Nat → Bool)
    (uri : String) (isWatched : Bool) (net : Network) {before after : List Deed}
    (once : (before ++ after).countP Deed.isRun ≤ 1)
    (gone : Disposes owner ⟨.new uri isWatched, h, net⟩ before) :
    delivered owner ⟨.new uri isWatched, h, net⟩ (before ++ after) =
      delivered owner ⟨.new uri isWatched, h, net⟩ before := by
  induction after using List.reverseRecOn with
  | nil => rw [List.append_nil]
  | append_singleton after deed ih =>
    rw [← List.append_assoc] at once ⊢
    have earlier : (before ++ after).countP Deed.isRun ≤ 1 := by
      rw [List.countP_append] at once
      exact Nat.le_of_add_right_le once
    have known := follows_run held owner uri isWatched net earlier
    have stillGone : Disposes owner ⟨.new uri isWatched, h, net⟩ (before ++ after) := by
      rw [Disposes, ih earlier]
      exact gone.imp_left (List.mem_append_left _)
    have silent := known.drained (known.released (known.disposed.mpr stillGone))
    have handed : (run owner ⟨.new uri isWatched, h, net⟩ (before ++ after)).handed? deed = none := by
      cases deed with
      | take =>
        rw [handed?, taken?]
        split
        · rename_i e rest _ queue
          cases silent (some e) (queue ▸ List.mem_cons_self ..)
        · rfl
      | _ => rfl
    rw [delivered_concat, handed, ih earlier, Option.toList_none, List.append_nil]

/-- A view of an execution that is not released, which begins to take events at most once. Nothing is
delivered to it behind its disposal. At any time its content is the text of the last event that is
shown, and its version their number. Its owner, if it watches, is told of each of them once, with the
versions one, two and so on; of the end once, if the final event is delivered before a disposal; and
of the disposal once, if there is one. -/
theorem run_shows {h : Handle} (held : h.isReleased = false) (owner : Nat → Bool) (uri : String)
    (isWatched : Bool) (net : Network) {deeds : List Deed} (once : deeds.countP Deed.isRun ≤ 1) :
    let start : Scene := ⟨.new uri isWatched, h, net⟩
    let shown := ResultView.shownOf (start.delivered owner deeds)
    let v := (start.run owner deeds).view
    (∀ before after, deeds = before ++ after → start.Disposes owner before →
      start.delivered owner deeds = start.delivered owner before) ∧
      v.content = (shown.getLast?.map ResultEvent.text).getD ResultView.pendingText ∧
      v.version = shown.length ∧
      v.notes.filterMap ViewNote.update? =
        (if isWatched then ResultView.updatesOf shown else []) ∧
      v.notes.count .finished ≤ 1 ∧ (.finished ∈ v.notes ↔ start.Finishes owner deeds) ∧
      v.notes.count .disposed ≤ 1 ∧ (.disposed ∈ v.notes ↔ start.Disposes owner deeds) := by
  have known := follows_run held owner uri isWatched net once
  have disposals := known.countDisposed
  refine ⟨?_, known.reflects.content, known.reflects.version, known.reflects.updates,
    known.countFinished, known.finished, ?_, ?_⟩
  · rintro before after rfl gone
    exact delivered_append_of_disposes held owner uri isWatched net once gone
  · rw [disposals]
    split <;> decide
  · rw [← known.disposed, ← List.count_pos_iff, disposals]
    split <;> simp_all

/-- Of three events two are shown, as the owner disposes the view at the second. -/
theorem run_shows_disposedAtSecond :
    let first : ResultEvent := ⟨.int 1, none, false⟩
    let second : ResultEvent := ⟨.int 2, none, false⟩
    let start : Scene := ⟨.new "" true, .idle "" default [], default⟩
    let deeds : List Deed := [.perform (.emitted first), .run, .take, .perform (.emitted second),
      .perform (.emitted .completion), .take, .take]
    let v := (start.run (· == 2) deeds).view
    start.handle.isReleased = false ∧ deeds.countP Deed.isRun ≤ 1 ∧ v.content = second.text ∧
      v.version = 2 ∧ v.notes.filterMap ViewNote.update? = [(1, first.text), (2, second.text)] ∧
      .finished ∉ v.notes ∧ .disposed ∈ v.notes := by
  intro first second start deeds v
  have once : deeds.countP Deed.isRun ≤ 1 := by decide
  have notes : v.notes = [.updated 1 first.text, .updated 2 second.text, .disposed] := rfl
  obtain ⟨_, content, version, updates, _, _, _, disposed⟩ :=
    run_shows (h := start.handle) rfl (· == 2) "" true default once
  have shown : ResultView.shownOf (start.delivered (· == 2) deeds) = [first, second] := rfl
  rw [shown] at content version updates
  refine ⟨rfl, once, content, version, updates, by simp [notes], ?_⟩
  exact disposed.mpr (.inr ⟨rfl, 2, by decide, by decide, rfl⟩)

end Scene
end InlineQuery
