import InlineQuery.Proofs.Execution.Order
import InlineQuery.Proofs.Execution.Soundness
import Mathlib.Data.List.ReduceOption

namespace InlineQuery

/-- Answering a question takes at most the first event. -/
theorem Iteration.serve_queue (it : Iteration) (h : Handle) :
    ∃ queue, (it.serve h).2 = { h with queue } ∧ queue.length ≤ h.queue.length := by
  unfold serve
  split
  · exact ⟨_, rfl, Nat.le_refl _⟩
  · split
    · exact ⟨_, rfl, Nat.le_refl _⟩
    · rename_i queue
      exact ⟨_, rfl, by simp [queue]⟩
    · rename_i queue
      exact ⟨_, rfl, by simp [queue]⟩

namespace Delivery

variable {d : Delivery}

/-- The events that come to stand in the queue, behind those that stood there. -/
def enqueued (d : Delivery) (happening : Happening) : List ResultEvent :=
  ((d.next happening).handle.queue.drop d.handle.queue.length).reduceOption

def allEnqueued (d : Delivery) : List Happening → List ResultEvent
  | [] => []
  | happening :: rest => d.enqueued happening ++ (d.next happening).allEnqueued rest

theorem run_append (d : Delivery) (before later : List Happening) :
    d.run (before ++ later) = (d.run before).run later :=
  List.foldl_append

theorem allEnqueued_append (d : Delivery) (before later : List Happening) :
    d.allEnqueued (before ++ later) = d.allEnqueued before ++ (d.run before).allEnqueued later := by
  induction before generalizing d with
  | nil => rfl
  | cons happening rest ih =>
    rw [List.cons_append, allEnqueued, allEnqueued, ih, List.append_assoc]
    rfl

theorem enqueued_of_length_le {happening : Happening}
    (shorter : (d.next happening).handle.queue.length ≤ d.handle.queue.length) :
    d.enqueued happening = [] := by
  rw [enqueued, List.drop_of_length_le shorter]
  rfl

theorem enqueued_of_queue {happening : Happening} {news : List ResultEvent}
    (queue : (d.next happening).handle.queue =
      if d.handle.isReleased then d.handle.queue else d.handle.queue ++ news.map some) :
    d.enqueued happening = if d.handle.isReleased then [] else news := by
  rw [enqueued, queue]
  split
  · rw [List.drop_length]
    rfl
  · rw [List.drop_left]
    simp [List.reduceOption]

theorem enqueued_idle (turn : d.turn = none) : d.enqueued .perform = [] := by
  have same : (d.next .perform).handle.queue.length = d.handle.queue.length := by rw [next_idle turn]
  exact enqueued_of_length_le (Nat.le_of_eq same)

theorem enqueued_perform {effect : Effect} {rest : List Effect} {ending : Ending}
    (turn : d.turn = some ⟨effect :: rest, ending⟩) :
    d.enqueued .perform = if d.handle.isReleased then [] else effect.event?.toList := by
  apply enqueued_of_queue
  rw [next_effect turn]
  exact d.handle.queue_perform effect

theorem enqueued_conclude {ending : Ending} (turn : d.turn = some ⟨[], ending⟩) :
    d.enqueued .perform = if d.handle.isReleased then []
      else (ending.raised?.map ResultEvent.ofFailure).toList := by
  apply enqueued_of_queue
  rw [next_ending turn]
  exact d.handle.queue_conclude ending

theorem enqueued_dispose (d : Delivery) : d.enqueued .dispose = [] := by
  have queue : (d.next .dispose).handle.queue =
      if d.handle.isReleased then d.handle.queue else [none] := Handle.queue_dispose ..
  rw [enqueued, queue]
  split
  · rw [List.drop_length]
    rfl
  · cases d.handle.queue <;> simp [List.reduceOption]

/-- Taking an answer concerns the iteration only. -/
theorem collect_apart (d : Delivery) : d.collect.handle = d.handle ∧ d.collect.turn = d.turn ∧
    d.collect.yielded = d.yielded ∧ d.collect.raised = d.raised := by
  unfold collect
  split <;> exact ⟨rfl, rfl, rfl, rfl⟩

/-- What happens apart from effects and disposals leaves an execution as it is, except that events
are taken, or that its task begins a turn. Only a first turn goes on with an endpoint. -/
theorem next_apart {happening : Happening} (silent : happening ≠ .perform)
    (kept : happening ≠ .dispose) :
    (∃ queue, (d.next happening).handle = { d.handle with queue } ∧
      queue.length ≤ d.handle.queue.length) ∧
    (d.next happening).yielded = d.yielded ∧ (d.next happening).raised = d.raised ∧
    ((d.next happening).turn = d.turn ∨
      d.turn = none ∧ d.handle.task.isActive = true ∧
        ∃ t, (d.next happening).turn = some t ∧ t.IsOrderly ∧
          (t.connects = true → d.handle.task = .created)) := by
  have same : ∃ queue, d.handle = { d.handle with queue } ∧ queue.length ≤ d.handle.queue.length :=
    ⟨_, rfl, Nat.le_refl _⟩
  cases happening with
  | perform => exact absurd rfl silent
  | dispose => exact absurd rfl kept
  | network net => exact ⟨same, rfl, rfl, .inl rfl⟩
  | launch resolved =>
    simp only [next]
    split
    · rename_i noTurn created
      refine ⟨same, rfl, rfl, .inr ⟨noTurn, by rw [created]; rfl, _, rfl, ?_, fun _ => created⟩⟩
      exact Handle.isOrderly_firstTurn ..
    · exact ⟨same, rfl, rfl, .inl rfl⟩
  | resume =>
    simp only [next]
    split
    · rename_i noTurn taken
      obtain ⟨orderly, quiet⟩ := Handle.isOrderly_nextTurn taken
      refine ⟨same, rfl, rfl,
        .inr ⟨noTurn, Handle.isActive_of_nextTurn taken, _, rfl, orderly, fun connects => ?_⟩⟩
      rw [quiet] at connects
      cases connects
    · exact ⟨same, rfl, rfl, .inl rfl⟩
  | ask =>
    simp only [next]
    split
    · exact ⟨same, rfl, rfl, .inl rfl⟩
    · obtain ⟨handle, turn, yielded, raised⟩ := collect_apart { d with iteration := d.iteration.ask }
      exact ⟨⟨d.handle.queue, handle, Nat.le_refl _⟩, yielded, raised, .inl turn⟩
  | serve =>
    obtain ⟨handle, turn, yielded, raised⟩ := collect_apart
      { d with iteration := (d.iteration.serve d.handle).1, handle := (d.iteration.serve d.handle).2 }
    refine ⟨?_, yielded, raised, .inl turn⟩
    obtain ⟨queue, served, shorter⟩ := d.iteration.serve_queue d.handle
    exact ⟨queue, handle.trans served, shorter⟩

theorem enqueued_apart {happening : Happening} (silent : happening ≠ .perform) :
    d.enqueued happening = [] := by
  by_cases disposes : happening = .dispose
  · rw [disposes, enqueued_dispose]
  · obtain ⟨⟨queue, handle, shorter⟩, _⟩ := next_apart (d := d) silent disposes
    exact enqueued_of_length_le (by rw [handle]; exact shorter)

/-- Until the release the events that come to stand in the queue are those that are offered. -/
theorem IsSound.offered_next (known : d.IsSound) {happening : Happening}
    (held : (d.next happening).handle.isReleased = false) :
    d.offered ++ d.enqueued happening = (d.next happening).offered := by
  by_cases performs : happening = .perform
  · subst performs
    rw [known.isReleased_next (by simp)] at held
    cases turn : d.turn with
    | none =>
      rw [enqueued_idle turn, next_idle turn, List.append_nil]
    | some t =>
      have notRaised := known.raised_eq_none turn
      obtain ⟨effects, ending⟩ := t
      cases effects with
      | nil =>
        rw [enqueued_conclude turn]
        simp [held, offered, notRaised, Delivery.next, turn]
      | cons effect rest =>
        rw [enqueued_perform turn]
        simp [held, offered, notRaised, Delivery.next, turn]
  · by_cases disposes : happening = .dispose
    · rw [disposes, d.isReleased_next_dispose] at held
      cases held
    · obtain ⟨_, yielded, raised, _⟩ := next_apart (d := d) performs disposes
      rw [enqueued_apart performs, List.append_nil, offered, offered, yielded, raised]

theorem IsSound.offered_run (known : d.IsSound) (happenings : List Happening)
    (held : (d.run happenings).handle.isReleased = false) :
    d.offered ++ d.allEnqueued happenings = (d.run happenings).offered := by
  induction happenings generalizing d with
  | nil => exact List.append_nil _
  | cons happening rest ih =>
    have before : (d.next happening).handle.isReleased = false := by
      cases released : (d.next happening).handle.isReleased with
      | false => rfl
      | true =>
        have lasts := ((known.next happening).run_released released rest).1
        exact lasts.symm.trans held
    rw [allEnqueued, ← List.append_assoc, known.offered_next before]
    exact ih (known.next happening) held

end Delivery
end InlineQuery
