import InlineQuery.Proofs.Execution.Turn

namespace InlineQuery

/-- Taking leave of a server fails only by what is no loss of the connection. -/
theorem Socket.isLoss_of_leave {s : Socket} {subscription : Option String} {e : Failure}
    (fails : (s.leave subscription).2 = some e) : isLoss e = false := by
  unfold leave at fails
  split at fails
  · cases fails
  · split at fails
    · cases fails
    · split at fails
      · cases fails
      · rename_i serious
        cases fails
        simpa using serious

namespace Turn

/-- Whether a task has still to go on with its endpoint. -/
def connects (t : Turn) : Bool := t.effects.any Effect.isConnecting

/-- A final event is the last that a turn brings. It ends the task, by a failure if taking leave of
the server was prevented. A task that a turn leaves has begun. -/
structure IsOrderly (t : Turn) : Prop where
  last : ∀ front e rest, t.effects = front ++ .emitted e :: rest → e.isFinal = true →
    rest = [] ∧ ∃ failure, t.ending = .finished failure ∧
      ∀ f, failure = some f → Socket.isLoss f = false
  begun : t.ending ≠ .waiting .created

theorem isOrderly_of_noneFinal {t : Turn} (noFinal : ∀ e, .emitted e ∈ t.effects → e.isFinal = false)
    (begun : t.ending ≠ .waiting .created) : t.IsOrderly := by
  refine ⟨fun front e rest same final => ?_, begun⟩
  have notFinal := noFinal e (same ▸ List.mem_append_right _ (List.mem_cons_self ..))
  rw [final] at notFinal
  cases notFinal

theorem isOrderly_failed (e : Failure) : (failed e).IsOrderly :=
  isOrderly_of_noneFinal (by simp [failed]) (by simp [failed])

theorem IsOrderly.perform {effect : Effect} {rest : List Effect} {ending : Ending}
    (known : IsOrderly ⟨effect :: rest, ending⟩) : IsOrderly ⟨rest, ending⟩ :=
  ⟨fun front e behind same => known.last (effect :: front) e behind (congrArg (effect :: ·) same),
    known.begun⟩

/-- Behind a final event only the end of the task is left. -/
theorem IsOrderly.ends {effect : Effect} {rest : List Effect} {ending : Ending}
    (known : IsOrderly ⟨effect :: rest, ending⟩)
    (final : effect.event?.any ResultEvent.isFinal = true) :
    ∃ e failure, effect.event? = some e ∧ e.isFinal = true ∧
      Turn.mk rest ending = ⟨[], .finished failure⟩ ∧
      ∀ f, failure = some f → Socket.isLoss f = false := by
  cases effect with
  | connecting | opened => cases final
  | emitted e =>
    obtain ⟨rfl, failure, finishes, serious⟩ := known.last [] e rest rfl final
    exact ⟨e, failure, rfl, final, congrArg (Turn.mk []) finishes, serious⟩

theorem IsOrderly.after {t : Turn} (known : t.IsOrderly) (endpoint : Option Endpoint) :
    (t.after (.connecting endpoint)).IsOrderly := by
  refine ⟨fun front e rest same final => ?_, known.begun⟩
  cases front with
  | nil => cases same
  | cons first front => exact known.last front e rest (List.cons.inj same).2 final

end Turn

namespace Handle

theorem isOrderly_progress (net : Network) (i : Nat) (p : Progress) :
    (progress net i p).1.IsOrderly := by
  cases p with
  | waiting s => exact Turn.isOrderly_of_noneFinal (by simp [progress]) (by simp [progress])
  | opened s => exact Turn.isOrderly_of_noneFinal (by simp [progress]) (by simp [progress])
  | ended failure socket =>
    exact Turn.isOrderly_of_noneFinal (by simp [progress]) (by simp [progress])
  | event e s =>
    cases isFinal : e.isFinal with
    | false =>
      exact Turn.isOrderly_of_noneFinal (by simp [progress, isFinal]) (by simp [progress, isFinal])
    | true =>
      refine ⟨fun front e rest same _ => ?_, by simp [progress, isFinal]⟩
      have alone : front = [] ∧ rest = [] := by
        simp only [progress, isFinal, if_true] at same
        cases front with
        | nil => exact ⟨rfl, (List.cons.inj same).2.symm⟩
        | cons first front => simp at same
      refine ⟨alone.2, s.cancel.2, by simp [progress, isFinal], fun f fails => ?_⟩
      exact Socket.isLoss_of_leave fails

theorem connects_progress (net : Network) (i : Nat) (p : Progress) :
    (progress net i p).1.connects = false := by
  cases p with
  | waiting s => rfl
  | opened s => rfl
  | ended failure socket => rfl
  | event e s =>
    simp only [progress]
    split <;> rfl

theorem isOrderly_subscribe (h : Handle) (net : Network) : (h.subscribe net).1.IsOrderly := by
  unfold subscribe
  split
  · exact Turn.isOrderly_failed _
  · exact isOrderly_progress ..

theorem isOrderly_post (h : Handle) (net : Network) : (h.post net).1.IsOrderly :=
  Turn.isOrderly_of_noneFinal (by simp [post]) (by simp [post])

theorem isOrderly_firstTurn (h : Handle) (net : Network)
    (resolved : Except Failure (Option Endpoint)) : (h.firstTurn net resolved).1.IsOrderly := by
  cases resolved with
  | error e => exact Turn.isOrderly_failed e
  | ok endpoint =>
    have sent (h : Handle) : (if h.operation.kind = .subscription then h.subscribe net
        else h.post net).1.IsOrderly := by
      split
      · exact isOrderly_subscribe ..
      · exact isOrderly_post ..
    exact (sent _).after endpoint

/-- Only the first turn of a task goes on with an endpoint. -/
theorem isOrderly_nextTurn {h : Handle} {net : Network} {next : Turn × Network}
    (taken : h.nextTurn? net = some next) : next.1.IsOrderly ∧ next.1.connects = false := by
  unfold nextTurn? at taken
  split at taken
  · rename_i e posted
    cases taken
    refine ⟨⟨fun front e rest same _ => ?_, by simp⟩, rfl⟩
    cases front with
    | nil => exact ⟨(List.cons.inj same).2.symm, none, rfl, by simp⟩
    | cons first front => simp at same
  · cases taken
    exact ⟨Turn.isOrderly_failed _, rfl⟩
  · obtain ⟨⟨frame, rest⟩, _, made⟩ := Option.bind_eq_some_iff.mp taken
    rw [← Option.some.inj made]
    exact ⟨isOrderly_progress .., connects_progress ..⟩
  · cases taken

end Handle

end InlineQuery
