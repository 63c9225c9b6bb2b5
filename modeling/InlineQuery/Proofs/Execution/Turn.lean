import InlineQuery.Execution.Handle

namespace InlineQuery

def Effect.event? : Effect → Option ResultEvent
  | .emitted e => some e
  | _ => none

/-- Whether a task has got its endpoint, and goes on with it. -/
def Effect.isConnecting : Effect → Bool
  | .connecting _ => true
  | _ => false

/-- The failure by which a task ends, unless the user interrupts it. -/
def Ending.raised? : Ending → Option Failure
  | .finished (some e) => if e.kind.isInterrupt then none else some e
  | _ => none

namespace Task

/-- Whether nothing is left to be done: the task has ended by itself, or there never was one. -/
def isDone : Task → Bool
  | absent | ended => true
  | _ => false

/-- Whether a task can do anything at all. -/
def isActive : Task → Bool
  | created | posted _ | streaming _ _ => true
  | _ => false

theorem isDone_of_isActive {task : Task} (active : task.isActive = true) : task.isDone = false := by
  cases task with
  | absent | ended | interrupted => cases active
  | created | posted | streaming => rfl

end Task

namespace Handle

theorem isActive_of_nextTurn {h : Handle} {net : Network} {next : Turn × Network}
    (taken : h.nextTurn? net = some next) : h.task.isActive = true := by
  cases task : h.task with
  | absent | ended | interrupted => simp [nextTurn?, task] at taken
  | created | posted | streaming => rfl

/-- An effect changes the endpoint, the state and the queue of an execution, and nothing else. -/
theorem exists_perform_eq (h : Handle) (effect : Effect) : ∃ endpoint state queue,
    h.perform effect = { h with endpoint, state, queue } := by
  cases effect with
  | connecting endpoint => exact ⟨endpoint, .connecting, h.queue, rfl⟩
  | opened =>
    simp only [perform, opened]
    split
    · exact ⟨h.endpoint, h.state, h.queue, rfl⟩
    · exact ⟨h.endpoint, .streaming, h.queue, rfl⟩
  | emitted e =>
    simp only [perform, emit]
    split
    · exact ⟨h.endpoint, h.state, h.queue, rfl⟩
    · exact ⟨h.endpoint, _, h.queue ++ [some e], rfl⟩

theorem isReleased_perform (h : Handle) (effect : Effect) :
    (h.perform effect).isReleased = h.isReleased := by
  obtain ⟨_, _, _, same⟩ := h.exists_perform_eq effect
  rw [same]

theorem task_perform (h : Handle) (effect : Effect) : (h.perform effect).task = h.task := by
  obtain ⟨_, _, _, same⟩ := h.exists_perform_eq effect
  rw [same]

/-- An effect puts its event behind those that wait, except after the release. -/
theorem queue_perform (h : Handle) (effect : Effect) : (h.perform effect).queue =
    if h.isReleased then h.queue else h.queue ++ effect.event?.toList.map some := by
  cases effect with
  | connecting endpoint => simp [perform, Effect.event?]
  | opened =>
    simp only [perform, opened, Effect.event?]
    split <;> simp
  | emitted e =>
    simp only [perform, emit, Effect.event?]
    split <;> rfl

/-- Before the release an effect makes the state a final one if it is a final event. -/
theorem isTerminal_perform {h : Handle} (held : h.isReleased = false) (effect : Effect) :
    (h.perform effect).state.isTerminal = effect.event?.any ResultEvent.isFinal := by
  cases effect with
  | connecting endpoint => rfl
  | opened =>
    simp only [perform, opened, held]
    rfl
  | emitted e =>
    cases isFinal : e.isFinal <;>
      simp [perform, emit, held, isFinal, Effect.event?, ExecutionState.isTerminal]

theorem state_perform_released {h : Handle} (released : h.isReleased = true) {effect : Effect}
    (quiet : effect.isConnecting = false) : (h.perform effect).state = h.state := by
  cases effect with
  | connecting endpoint => cases quiet
  | opened => simp [perform, opened, released]
  | emitted e => simp [perform, emit, released]

theorem isReleased_conclude (h : Handle) (ending : Ending) :
    (h.conclude ending).isReleased = h.isReleased := by
  cases ending with
  | waiting task => rfl
  | finished failure =>
    cases failure with
    | none => rfl
    | some e =>
      simp only [conclude, finish, fail]
      split
      · rfl
      · split <;> rfl

/-- A task that fails puts the event of its failure behind those that wait, except after the
release. -/
theorem queue_conclude (h : Handle) (ending : Ending) : (h.conclude ending).queue =
    if h.isReleased then h.queue
    else h.queue ++ (ending.raised?.map ResultEvent.ofFailure).toList.map some := by
  cases ending with
  | waiting task => simp [conclude, Ending.raised?]
  | finished failure =>
    cases failure with
    | none => simp [conclude, finish, Ending.raised?]
    | some e =>
      simp only [conclude, finish, fail, Ending.raised?]
      split
      · simp
      · split <;> simp

theorem state_conclude (h : Handle) (ending : Ending) : (h.conclude ending).state =
    if h.isReleased || ending.raised?.isNone then h.state else .failed := by
  cases ending with
  | waiting task => simp [conclude, Ending.raised?]
  | finished failure =>
    cases failure with
    | none => simp [conclude, finish, Ending.raised?]
    | some e =>
      simp only [conclude, finish, fail, Ending.raised?]
      split
      · simp
      · split <;> simp_all

theorem isActive_finish (h : Handle) (failure : Option Failure) :
    (h.finish failure).task.isActive = false := by
  cases failure with
  | none => rfl
  | some e =>
    simp only [finish]
    split <;> rfl

theorem isActive_conclude {ending : Ending} (raised : ending.raised?.isSome = true) (h : Handle) :
    (h.conclude ending).task.isActive = false := by
  cases ending with
  | waiting task => cases raised
  | finished failure => exact h.isActive_finish failure

theorem task_conclude_ne_created {ending : Ending} (begun : ending ≠ .waiting .created)
    (h : Handle) : (h.conclude ending).task ≠ .created := by
  intro created
  cases ending with
  | waiting task => exact begun (congrArg Ending.waiting created)
  | finished failure =>
    have idle := h.isActive_finish failure
    rw [conclude] at created
    rw [created] at idle
    cases idle

theorem isReleased_dispose (h : Handle) (net : Network) :
    (h.dispose net).1.isReleased = true := by
  unfold dispose
  split
  · assumption
  · split <;> rfl

/-- A disposal leaves a state that is final. -/
theorem state_dispose (h : Handle) (net : Network) : (h.dispose net).1.state =
    if h.isReleased || h.state.isTerminal then h.state else .disposed := by
  unfold dispose
  split
  · simp_all
  · split <;> simp_all [release]

/-- A disposal drops what waits and marks the end. -/
theorem queue_dispose (h : Handle) (net : Network) :
    (h.dispose net).1.queue = if h.isReleased then h.queue else [none] := by
  unfold dispose
  split
  · rfl
  · split <;> rfl

/-- A disposal ends a task, or leaves one that has ended. -/
theorem task_dispose (h : Handle) (net : Network) :
    (h.dispose net).1.task = h.task ∨ (h.dispose net).1.task = .ended := by
  unfold dispose
  split
  · exact .inl rfl
  · split
    · exact .inr rfl
    · exact .inr rfl
    · exact .inr rfl
    · exact .inl rfl
    · exact .inl rfl
    · exact .inl rfl

/-- A task that has not begun never will after a disposal. -/
theorem task_dispose_ne_created {h : Handle} (held : h.isReleased = false) (net : Network) :
    (h.dispose net).1.task ≠ .created := by
  unfold dispose
  split
  · simp_all
  · split <;> simp_all [release]

theorem isActive_dispose {h : Handle} (idle : h.task.isActive = false) (net : Network) :
    (h.dispose net).1.task.isActive = false := by
  rcases h.task_dispose net with same | ended
  · rw [same]
    exact idle
  · rw [ended]
    rfl

end Handle
end InlineQuery
