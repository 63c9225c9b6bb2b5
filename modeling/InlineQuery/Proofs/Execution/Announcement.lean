import InlineQuery.Proofs.Execution.Turn
import InlineQuery.Proofs.Subscription.Receive

namespace InlineQuery

/-- A task that will announce its end: what is left is a final event, or a subscription that has
not yielded one. -/
def Task.IsAnnouncing : Task → Prop
  | posted (some (.ok e)) => e.isFinal = true
  | streaming stage _ => stage ≠ .completed
  | _ => True

namespace Turn

def events (t : Turn) : List ResultEvent := t.effects.filterMap Effect.event?

/-- A turn behind certain events which ends a task by a failure or behind a final event, or leaves
one that will announce its end. -/
def IsAnnouncing (before : List ResultEvent) (t : Turn) : Prop :=
  match t.ending with
  | .waiting task => task.isActive = true ∧ task.IsAnnouncing
  | .finished none => ∃ e ∈ before ++ t.events, e.isFinal = true
  | .finished (some _) => True

theorem isAnnouncing_failed (before : List ResultEvent) (e : Failure) :
    (failed e).IsAnnouncing before := trivial

theorem IsAnnouncing.after {before : List ResultEvent} {t : Turn} (known : t.IsAnnouncing before)
    {effect : Effect} (silent : effect.event? = none) : (t.after effect).IsAnnouncing before := by
  simpa [IsAnnouncing, Turn.after, events, silent] using known

theorem IsAnnouncing.perform {before : List ResultEvent} {effect : Effect} {rest : List Effect}
    {ending : Ending} (known : IsAnnouncing before ⟨effect :: rest, ending⟩) :
    IsAnnouncing (before ++ effect.event?.toList) ⟨rest, ending⟩ := by
  have regrouped : before ++ events ⟨effect :: rest, ending⟩ =
      (before ++ effect.event?.toList) ++ events ⟨rest, ending⟩ := by
    cases isEvent : effect.event? <;> simp [events, isEvent]
  cases ending with
  | waiting task => exact known
  | finished failure =>
    cases failure with
    | none =>
      rw [IsAnnouncing] at known ⊢
      rw [← regrouped]
      exact known
    | some e => trivial

end Turn

namespace Progress

/-- A subscription goes on, or its end is announced by a final event or a failure. -/
def IsAnnouncing : Progress → Prop
  | .waiting s | .opened s => s.stage ≠ .completed
  | .event e s => e.isFinal = false → s.stage ≠ .completed
  | .ended failure _ => failure.isSome = true

end Progress

namespace Subscription

variable {s : Subscription}

theorem isAnnouncing_fail (s : Subscription) (isRunning : Bool) (e : Failure) :
    (s.fail isRunning e).IsAnnouncing := rfl

theorem isAnnouncing_start (s : Subscription) : s.start.IsAnnouncing := by
  unfold start
  split
  · simp [Progress.IsAnnouncing]
  · exact isAnnouncing_fail ..

theorem isAnnouncing_greet (request : Request) (id : String) (socket : Socket) :
    (greet request id socket).IsAnnouncing := by
  unfold greet
  dsimp only
  split
  · simp [Progress.IsAnnouncing]
  · exact isAnnouncing_fail ..

theorem isAnnouncing_receive (running : s.stage ≠ .completed) (frame : Frame) :
    (s.receive frame).IsAnnouncing := by
  cases stage : s.stage with
  | completed => exact absurd stage running
  | greeted =>
    rcases receive_greeted stage frame with ⟨_, _, e, failed⟩ | ⟨_, _, step⟩
    · rw [failed]
      exact isAnnouncing_fail ..
    · rw [step]
      split
      · exact isAnnouncing_start s
      · exact running
  | started =>
    rcases receive_started stage frame with
      ⟨_, completed | ⟨e, failed⟩⟩ | ⟨_, e, failed⟩ | ⟨_, _, waiting | ⟨e, _, yielded⟩⟩
    · rw [completed]
      exact fun notFinal => by cases notFinal
    · rw [failed]
      exact isAnnouncing_fail ..
    · rw [failed]
      exact isAnnouncing_fail ..
    · rw [waiting]
      exact running
    · rw [yielded]
      exact fun _ => running

end Subscription

theorem Response.isFinal_event {r : Response} {e : ResultEvent} (made : r.event = .ok e) :
    e.isFinal = true := by
  simp only [Response.event, bind, Except.bind, throw, throwThe, MonadExceptOf.throw] at made
  split at made
  · cases made
  · split at made
    · cases made
    · split at made
      · cases made
      · exact Envelope.isFinal_event made

theorem Reply.isAnnouncing_outcome (reply : Reply) (url : String) :
    (Task.posted (reply.outcome? url)).IsAnnouncing := by
  cases reply with
  | response r =>
    cases made : r.event with
    | ok e =>
      rw [Reply.outcome?, made]
      exact Response.isFinal_event made
    | error e =>
      rw [Reply.outcome?, made]
      trivial
  | failure e => trivial
  | silence => trivial

theorem Request.isAnnouncing_post (r : Request) (net : Network) :
    (Task.posted (r.post net).1).IsAnnouncing := by
  unfold Request.post
  split
  · trivial
  · split
    · trivial
    · exact Reply.isAnnouncing_outcome ..

namespace Handle

theorem isAnnouncing_progress {p : Progress} (known : p.IsAnnouncing) (net : Network) (i : Nat)
    (before : List ResultEvent) : (progress net i p).1.IsAnnouncing before := by
  cases p with
  | waiting s => exact ⟨rfl, known⟩
  | opened s => exact ⟨rfl, known⟩
  | event e s =>
    cases isFinal : e.isFinal with
    | true =>
      cases later : s.cancel.2 with
      | none => simp [progress, isFinal, later, Turn.IsAnnouncing, Turn.events, Effect.event?]
      | some e => simp [progress, isFinal, later, Turn.IsAnnouncing]
    | false =>
      simp only [progress, isFinal, Turn.IsAnnouncing]
      exact ⟨rfl, known isFinal⟩
  | ended failure socket =>
    cases failure with
    | none => cases known
    | some e => trivial

theorem isAnnouncing_subscribe (h : Handle) (net : Network) (before : List ResultEvent) :
    (h.subscribe net).1.IsAnnouncing before := by
  unfold subscribe
  split
  · exact Turn.isAnnouncing_failed ..
  · exact isAnnouncing_progress (Subscription.isAnnouncing_greet ..) ..

theorem isAnnouncing_post (h : Handle) (net : Network) (before : List ResultEvent) :
    (h.post net).1.IsAnnouncing before :=
  ⟨rfl, h.request.isAnnouncing_post net⟩

/-- The first turn of a task ends it by a failure or leaves one that will announce its end. -/
theorem isAnnouncing_firstTurn (h : Handle) (net : Network)
    (resolved : Except Failure (Option Endpoint)) (before : List ResultEvent) :
    (h.firstTurn net resolved).1.IsAnnouncing before := by
  cases resolved with
  | error e => exact Turn.isAnnouncing_failed ..
  | ok endpoint =>
    have sent (h : Handle) : (if h.operation.kind = .subscription then h.subscribe net
        else h.post net).1.IsAnnouncing before := by
      split
      · exact isAnnouncing_subscribe ..
      · exact isAnnouncing_post ..
    exact (sent _).after rfl

/-- Each later turn of a task that will announce its end does so, or leaves it to a later one. -/
theorem isAnnouncing_nextTurn {h : Handle} {net : Network} {next : Turn × Network}
    (known : h.task.IsAnnouncing) (taken : h.nextTurn? net = some next)
    (before : List ResultEvent) : next.1.IsAnnouncing before := by
  unfold nextTurn? at taken
  split at taken
  · rename_i e posted
    rw [posted] at known
    cases taken
    exact ⟨e, by simp [Turn.events, Effect.event?], known⟩
  · cases taken
    exact Turn.isAnnouncing_failed ..
  · rename_i stage i streaming
    have running : stage ≠ .completed := by simpa [streaming, Task.IsAnnouncing] using known
    obtain ⟨⟨frame, rest⟩, _, made⟩ := Option.bind_eq_some_iff.mp taken
    rw [← Option.some.inj made]
    exact isAnnouncing_progress (Subscription.isAnnouncing_receive running frame) ..
  · cases taken

/-- A task that will announce its end is left by a turn that does or leaves that to it. -/
theorem isAnnouncing_conclude {before : List ResultEvent} {ending : Ending}
    (known : Turn.IsAnnouncing before ⟨[], ending⟩) (h : Handle) :
    (h.conclude ending).task.IsAnnouncing := by
  cases ending with
  | waiting task => exact known.2
  | finished failure =>
    cases failure with
    | none => trivial
    | some e =>
      simp only [conclude, finish]
      split <;> trivial

/-- When a turn ends a task by itself, its final event or failure has been offered. -/
theorem exists_final_of_isDone {before : List ResultEvent} {ending : Ending} {h : Handle}
    (known : Turn.IsAnnouncing before ⟨[], ending⟩)
    (done : (h.conclude ending).task.isDone = true) :
    ∃ e ∈ before ++ (ending.raised?.map ResultEvent.ofFailure).toList, e.isFinal = true := by
  cases ending with
  | waiting task =>
    rw [conclude, Task.isDone_of_isActive known.1] at done
    cases done
  | finished failure =>
    cases failure with
    | none => exact known
    | some e =>
      cases interrupt : e.kind.isInterrupt with
      | true => simp [conclude, finish, interrupt, Task.isDone] at done
      | false => simp [Ending.raised?, interrupt, ResultEvent.ofFailure]

theorem isAnnouncing_dispose {h : Handle} (known : h.task.IsAnnouncing) (net : Network) :
    (h.dispose net).1.task.IsAnnouncing := by
  rcases h.task_dispose net with same | ended
  · rw [same]
    exact known
  · rw [ended]
    trivial

end Handle
end InlineQuery
