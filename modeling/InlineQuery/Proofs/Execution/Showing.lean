import InlineQuery.Proofs.Execution.Delivery
import InlineQuery.Proofs.Execution.Order
import InlineQuery.ResultView

/-!
An execution with the view of its results. Behind a final event an execution brings only final ones,
so a view that has shown one stays finished, even if it takes events again.
-/

namespace InlineQuery

namespace ResultEvent

def AllFinal (events : List ResultEvent) : Prop := ∀ e ∈ events, e.isFinal = true

end ResultEvent

namespace Handle

variable {h : Handle} {waiting closing : List ResultEvent}

/-- The events in the queue of an execution that is not released: first those that are not final,
and behind them final ones, with which the task has ended. -/
structure EndsInOrder (h : Handle) (waiting closing : List ResultEvent) : Prop where
  held : h.isReleased = false
  queue : h.queue = (waiting ++ closing).map some
  going : ResultEvent.NoneFinal waiting
  final : ResultEvent.AllFinal closing
  idle : closing ≠ [] → h.task.isActive = false

theorem endsInOrder_start (id : String) (operation : Operation) (values : List (String × Datum)) :
    ∃ closing, (start id operation values).EndsInOrder [] closing := by
  cases missing : operation.missingVariables values with
  | nil =>
    exact ⟨[], by simp [start, idle, missing], by simp [start, idle, missing], nofun, nofun,
      fun some_ => absurd rfl some_⟩
  | cons name names =>
    refine ⟨[.ofFailure (.missingVariables (name :: names))], ?_, ?_, nofun, ?_, fun _ => ?_⟩
    · simp [start, idle, fail, missing]
    · simp [start, idle, fail, missing]
    · simp [ResultEvent.AllFinal, ResultEvent.ofFailure]
    · simp [start, idle, fail, missing, Task.isActive]

/-- While a task is active no final event waits. -/
theorem EndsInOrder.closing_eq_nil (known : h.EndsInOrder waiting closing)
    (active : h.task.isActive = true) : closing = [] := by
  cases closing with
  | nil => rfl
  | cons e rest =>
    have idle := known.idle (List.cons_ne_nil e rest)
    rw [active] at idle
    cases idle

theorem EndsInOrder.take (known : h.EndsInOrder waiting []) {turn : Turn} (orderly : turn.IsOrderly) :
    ∃ waiting closing, (h.take turn).EndsInOrder waiting closing := by
  obtain ⟨effects, ending⟩ := turn
  induction effects generalizing h waiting with
  | nil =>
    have queue := h.queue_conclude ending
    have released := (h.isReleased_conclude ending).trans known.held
    simp only [known.held, known.queue, List.append_nil] at queue
    refine ⟨waiting, (ending.raised?.map ResultEvent.ofFailure).toList, released, ?_, known.going,
      ?_, fun some_ => ?_⟩
    · simpa [Handle.take] using queue
    · cases ending.raised? <;> simp [ResultEvent.AllFinal, ResultEvent.ofFailure]
    · refine isActive_conclude ?_ h
      cases raised : ending.raised? with
      | none => simp [raised] at some_
      | some e => rfl
  | cons effect rest ih =>
    have queue := h.queue_perform effect
    have released := (h.isReleased_perform effect).trans known.held
    simp only [known.held, known.queue, List.append_nil] at queue
    cases final : effect.event?.any ResultEvent.isFinal with
    | true =>
      -- The final event ends the turn, and what prevents the leave-taking comes behind it.
      obtain ⟨e, failure, isEvent, isFinal, ends, _⟩ := orderly.ends final
      cases ends
      have later := (h.perform effect).queue_conclude (.finished failure)
      simp only [released, queue, isEvent] at later
      refine ⟨waiting, e :: ((Ending.finished failure).raised?.map ResultEvent.ofFailure).toList,
        (isReleased_conclude ..).trans released, ?_, known.going, ?_, fun _ => isActive_finish ..⟩
      · simpa [Handle.take] using later
      · cases (Ending.finished failure).raised? <;>
          simp [ResultEvent.AllFinal, ResultEvent.ofFailure, isFinal]
    | false =>
      have performed : (h.perform effect).EndsInOrder (waiting ++ effect.event?.toList) [] := by
        refine ⟨released, by simpa using queue, fun e member => ?_, ?_, fun some_ => absurd rfl some_⟩
        · rcases List.mem_append.mp member with before | new
          · exact known.going e before
          · simpa [Option.mem_toList.mp new] using final
        · intro e member
          cases member
      exact ih performed orderly.perform

theorem step_of_idle (idle : h.task.isActive = false) (net : Network) : h.step net = (h, net) := by
  unfold step
  cases taken : h.nextTurn? net with
  | none => rfl
  | some next =>
    rw [isActive_of_nextTurn taken] at idle
    cases idle

theorem EndsInOrder.step (known : h.EndsInOrder waiting closing) (net : Network) :
    ∃ waiting closing, (h.step net).1.EndsInOrder waiting closing := by
  unfold Handle.step
  split
  · rename_i turn after taken
    have none_ := known.closing_eq_nil (isActive_of_nextTurn taken)
    subst none_
    exact known.take (isOrderly_nextTurn taken).1
  · exact ⟨waiting, closing, known⟩

theorem EndsInOrder.settle (known : h.EndsInOrder waiting closing) (net : Network) :
    ∃ waiting closing, (h.settle net).1.EndsInOrder waiting closing := by
  unfold Handle.settle
  generalize h.pendingSteps net = n
  induction n generalizing h net waiting closing with
  | zero => exact ⟨waiting, closing, known⟩
  | succ n ih =>
    obtain ⟨waiting, closing, stepped⟩ := known.step net
    exact ih stepped _

theorem settle_of_idle (idle : h.task.isActive = false) (net : Network) :
    h.settle net = (h, net) := by
  unfold settle
  generalize h.pendingSteps net = n
  induction n with
  | zero => rfl
  | succ n ih =>
    rw [steps, step_of_idle idle]
    exact ih

/-- The first entry of the queue is an event. It is a final one if none else waits before it, and
then nothing else comes but final events. -/
theorem EndsInOrder.uncons (known : h.EndsInOrder waiting closing)
    {first : Option ResultEvent} {rest : List (Option ResultEvent)} (queue : h.queue = first :: rest) :
    ∃ e, first = some e ∧
      ((e.isFinal = false ∧ ∃ later, waiting = e :: later ∧
          EndsInOrder { h with queue := rest } later closing) ∨
        (e.isFinal = true ∧ h.task.isActive = false ∧
          ∃ later, EndsInOrder { h with queue := rest } [] later)) := by
  have all := known.queue
  rw [queue] at all
  cases waiting with
  | nil =>
    obtain ⟨e, later, same, rfl, isRest⟩ := List.map_eq_cons_iff.mp all.symm
    rw [List.nil_append] at same
    subst same
    have idle := known.idle (List.cons_ne_nil e later)
    exact ⟨e, rfl, .inr ⟨known.final e (List.mem_cons_self ..), idle, later, known.held,
      isRest.symm, known.going, fun x member => known.final x (List.mem_cons_of_mem e member),
      fun _ => idle⟩⟩
  | cons e later =>
    rw [List.cons_append, List.map_cons, List.cons_eq_cons] at all
    obtain ⟨rfl, rfl⟩ := all
    exact ⟨e, rfl, .inl ⟨known.going e (List.mem_cons_self ..), later, rfl, known.held, rfl,
      fun x member => known.going x (List.mem_cons_of_mem e member), known.final, known.idle⟩⟩

/-- An execution that is disposed does nothing any more. -/
theorem isActive_dispose_of_held (held : h.isReleased = false) (net : Network) :
    (h.dispose net).1.task.isActive = false := by
  unfold dispose
  rw [held]
  split
  · contradiction
  · split <;> simp_all [release, Task.isActive]

end Handle

namespace ResultView

variable {v : ResultView} {h : Handle}

/-- Whether a view has neither been disposed nor shown its final event. -/
def isLive (v : ResultView) : Bool := !v.isDisposed && !v.hasFinal

/-- Where a view and its execution stand. The view takes events, or it has shown a final one and told
its owner, or it was disposed, and with it the execution. -/
inductive Standing (v : ResultView) (h : Handle) : Prop
  | taking (waiting closing : List ResultEvent) : v.isDisposed = false → v.hasFinal = false →
      .finished ∉ v.notes → h.EndsInOrder waiting closing → Standing v h
  | finished (closing : List ResultEvent) : v.isDisposed = false → v.hasFinal = true →
      .finished ∈ v.notes → h.EndsInOrder [] closing → h.task.isActive = false → Standing v h
  | disposed : v.isDisposed = true → h.isReleased = true → h.state.isTerminal = true →
      h.task.isActive = false → Standing v h

/-- A view is live as long as its owner has not been told of its end. -/
theorem Standing.isLive_eq (standing : v.Standing h) :
    v.isLive = !(v.isDisposed || v.notes.contains .finished) := by
  cases standing with
  | taking _ _ held noFinal silent => simp [isLive, held, noFinal, silent]
  | finished _ held final told => simp [isLive, held, final, told]
  | disposed gone => simp [isLive, gone]

theorem standing_start (id : String) (operation : Operation) (values : List (String × Datum))
    (uri : String) (isWatched : Bool) :
    (new uri isWatched).Standing (.start id operation values) := by
  obtain ⟨closing, inOrder⟩ := Handle.endsInOrder_start id operation values
  exact .taking [] closing rfl rfl (by simp [new]) inOrder

theorem Standing.run (standing : v.Standing h) : v.run.Standing h := by
  unfold ResultView.run
  split
  · exact standing
  · cases standing with
    | taking waiting closing held noFinal silent inOrder =>
      exact .taking waiting closing held noFinal silent inOrder
    | finished closing held final told inOrder idle =>
      exact .finished closing held final told inOrder idle
    | disposed gone released terminal idle => exact .disposed gone released terminal idle

theorem isLive_run (v : ResultView) : v.run.isLive = v.isLive := by
  unfold ResultView.run
  split <;> rfl

/-- A task that is active has a view that takes events. -/
theorem Standing.of_active (standing : v.Standing h) (active : h.task.isActive = true) :
    ∃ waiting, v.isDisposed = false ∧ v.hasFinal = false ∧ .finished ∉ v.notes ∧
      h.EndsInOrder waiting [] := by
  cases standing with
  | taking waiting closing held noFinal silent inOrder =>
    have none_ := inOrder.closing_eq_nil active
    subst none_
    exact ⟨waiting, held, noFinal, silent, inOrder⟩
  | finished _ _ _ _ _ idle =>
    rw [active] at idle
    cases idle
  | disposed _ _ _ idle =>
    rw [active] at idle
    cases idle

theorem Standing.launch (standing : v.Standing h) (created : h.task = .created) (net : Network)
    (resolved : Except Failure (Option Endpoint)) : v.Standing (h.launch net resolved).1 := by
  obtain ⟨waiting, held, noFinal, silent, inOrder⟩ := standing.of_active (by rw [created]; rfl)
  obtain ⟨waiting, closing, taken⟩ := inOrder.take (h.isOrderly_firstTurn net resolved)
  exact .taking waiting closing held noFinal silent taken

theorem Standing.settleHandle (standing : v.Standing h) (net : Network) :
    v.Standing (h.settle net).1 := by
  cases standing with
  | taking waiting closing held noFinal silent inOrder =>
    obtain ⟨waiting, closing, settled⟩ := inOrder.settle net
    exact .taking waiting closing held noFinal silent settled
  | finished closing held final told inOrder idle =>
    rw [Handle.settle_of_idle idle]
    exact .finished closing held final told inOrder idle
  | disposed gone released terminal idle =>
    rw [Handle.settle_of_idle idle]
    exact .disposed gone released terminal idle

/-- A disposal of an execution that is held leaves it and its view disposed. -/
theorem standing_dispose (held : h.isReleased = false) (alive : v.isDisposed = false)
    (net : Network) : (v.dispose h net).1.isDisposed = true ∧
      (v.dispose h net).1.Standing (v.dispose h net).2.1 := by
  have state := h.state_dispose net
  have terminal : (h.dispose net).1.state.isTerminal = true := by
    rw [state, held, Bool.false_or]
    split
    · assumption
    · rfl
  rw [dispose, alive]
  exact ⟨rfl, .disposed rfl (h.isReleased_dispose net) terminal
    (Handle.isActive_dispose_of_held held net)⟩

theorem Standing.dispose (standing : v.Standing h) (net : Network) :
    (v.dispose h net).1.isDisposed = true ∧ (v.dispose h net).1.Standing (v.dispose h net).2.1 := by
  cases standing with
  | taking _ _ alive _ _ inOrder => exact standing_dispose inOrder.held alive net
  | finished _ alive _ _ inOrder => exact standing_dispose inOrder.held alive net
  | disposed gone released terminal idle =>
    rw [ResultView.dispose, if_pos gone]
    exact ⟨gone, .disposed gone released terminal idle⟩

/-- Taking in an event concerns what is shown; the owner is told of an update at most. -/
theorem apply_spec (v : ResultView) (e : ResultEvent) :
    (v.apply e).isDisposed = v.isDisposed ∧ (v.apply e).hasFinal = e.isFinal ∧
      (.finished ∈ (v.apply e).notes ↔ .finished ∈ v.notes) := by
  unfold apply
  dsimp only
  split
  · split
    · refine ⟨rfl, rfl, ?_⟩
      simp [note]
    · exact ⟨rfl, rfl, Iff.rfl⟩
  · exact ⟨rfl, rfl, Iff.rfl⟩

theorem conclude_spec (v : ResultView) : v.conclude.isDisposed = v.isDisposed ∧
    v.conclude.hasFinal = v.hasFinal ∧
      (.finished ∈ v.conclude.notes ↔
        .finished ∈ v.notes ∨ v.isDisposed = false ∧ v.hasFinal = true) := by
  unfold conclude
  dsimp only
  split
  · rename_i ends
    have ends : v.isDisposed = false ∧ v.hasFinal = true := by simpa [hasFinal] using ends
    exact ⟨rfl, rfl, by simp [note, ends]⟩
  · rename_i goesOn
    have goesOn : ¬(v.isDisposed = false ∧ v.hasFinal = true) := by simpa [hasFinal] using goesOn
    exact ⟨rfl, rfl, by simp only [goesOn, or_false]⟩

/-- A disposed view stays so when it stops taking events. -/
theorem Standing.conclude_of_disposed (gone : v.isDisposed = true) (standing : v.Standing h)
    (queue : List (Option ResultEvent)) :
    v.conclude.Standing { h with queue } ∧ v.conclude.isLive = false := by
  have stays := v.conclude_spec.1.trans gone
  refine ⟨?_, by simp [isLive, stays]⟩
  cases standing with
  | taking _ _ alive => simp [gone] at alive
  | finished _ alive => simp [gone] at alive
  | disposed _ released terminal idle => exact .disposed stays released terminal idle

/-- Showing an event that is not final leaves a view that takes events, unless its owner disposes
it. -/
theorem standing_show_going {waiting closing : List ResultEvent} {e : ResultEvent}
    (alive : v.isDisposed = false) (silent : .finished ∉ v.notes)
    (inOrder : h.EndsInOrder waiting closing) (going : e.isFinal = false) (disposes : Nat → Bool)
    (net : Network) :
    (v.show_ disposes h net e).1.Standing (v.show_ disposes h net e).2.1 := by
  obtain ⟨isDisposed, hasFinal, notes⟩ := v.apply_spec e
  unfold show_
  dsimp only
  split
  · exact (standing_dispose inOrder.held (isDisposed.trans alive) net).2
  · exact .taking waiting closing (isDisposed.trans alive) (hasFinal.trans going)
      (fun told => silent (notes.mp told)) inOrder

/-- Behind a final event a view is finished, unless its owner disposes it. -/
theorem standing_show_final {closing : List ResultEvent} {e : ResultEvent}
    (alive : v.isDisposed = false) (inOrder : h.EndsInOrder [] closing)
    (idle : h.task.isActive = false) (final : e.isFinal = true) (disposes : Nat → Bool)
    (net : Network) :
    (v.show_ disposes h net e).1.conclude.Standing (v.show_ disposes h net e).2.1 ∧
      (v.show_ disposes h net e).1.conclude.isLive = false := by
  obtain ⟨isDisposed, hasFinal, notes⟩ := v.apply_spec e
  unfold show_
  dsimp only
  split
  · obtain ⟨gone, standing⟩ := standing_dispose inOrder.held (isDisposed.trans alive) net
    exact standing.conclude_of_disposed gone _
  · obtain ⟨stays, shown, told⟩ := (v.apply e).conclude_spec
    have held := isDisposed.trans alive
    have ended := hasFinal.trans final
    refine ⟨?_, by simp [isLive, shown, ended]⟩
    exact .finished closing (stays.trans held) (shown.trans ended)
      (told.mpr (.inr ⟨held, ended⟩)) inOrder idle

/-- Taking the next event, whichever it is. A view that is not live never is again. -/
theorem Standing.step (standing : v.Standing h) (disposes : Nat → Bool) (net : Network) :
    (v.step disposes h net).1.Standing (v.step disposes h net).2.1 ∧
      ((v.step disposes h net).1.isLive = true → v.isLive = true) := by
  unfold ResultView.step
  split
  · rename_i rest running queue
    -- Only a disposal marks the end.
    cases standing with
    | taking _ _ _ _ _ inOrder =>
      obtain ⟨e, marked, _⟩ := inOrder.uncons queue
      cases marked
    | finished _ _ _ _ inOrder =>
      obtain ⟨e, marked, _⟩ := inOrder.uncons queue
      cases marked
    | disposed gone released terminal idle =>
      obtain ⟨standing, ended⟩ :=
        (Standing.disposed gone released terminal idle).conclude_of_disposed gone rest
      exact ⟨standing, fun live => by simp [ended] at live⟩
  · rename_i e rest running queue
    cases standing with
    | disposed gone released terminal idle =>
      rw [if_pos gone]
      obtain ⟨standing, ended⟩ :=
        (Standing.disposed gone released terminal idle).conclude_of_disposed gone rest
      exact ⟨standing, fun live => by simp [ended] at live⟩
    | finished closing alive shown told inOrder idle =>
      obtain ⟨_, ⟨⟩, ⟨_, _, ⟨⟩, _⟩ | ⟨final, _, later, inOrder⟩⟩ := inOrder.uncons queue
      rw [if_neg (by simp [alive])]
      simp only [final, if_true]
      obtain ⟨standing, ended⟩ := standing_show_final alive inOrder idle final disposes net
      exact ⟨standing, fun live => by simp [ended] at live⟩
    | taking waiting closing alive noFinal silent inOrder =>
      rw [if_neg (by simp [alive])]
      refine ⟨?_, fun _ => by simp [isLive, alive, noFinal]⟩
      obtain ⟨_, ⟨⟩, ⟨going, later, _, inOrder⟩ | ⟨final, idle, later, inOrder⟩⟩ :=
        inOrder.uncons queue
      · simp only [going]
        exact standing_show_going alive silent inOrder going disposes net
      · simp only [final, if_true]
        exact (standing_show_final alive inOrder idle final disposes net).1
  · exact ⟨standing, id⟩

theorem Standing.settle (standing : v.Standing h) (disposes : Nat → Bool) (net : Network) :
    (v.settle disposes h net).1.Standing (v.settle disposes h net).2.1 ∧
      ((v.settle disposes h net).1.isLive = true → v.isLive = true) := by
  unfold ResultView.settle
  generalize h.queue.length + 1 = n
  induction n generalizing v h net with
  | zero => exact ⟨standing, id⟩
  | succ n ih =>
    obtain ⟨stepped, before⟩ := standing.step disposes net
    obtain ⟨settled, live⟩ := ih stepped (v.step disposes h net).2.2
    exact ⟨settled, fun alive => before (live alive)⟩

end ResultView
end InlineQuery
