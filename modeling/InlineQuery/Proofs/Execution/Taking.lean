import InlineQuery.Proofs.Execution.Announcement
import InlineQuery.Proofs.Execution.Soundness

namespace InlineQuery
namespace Delivery

variable {d : Delivery}

def take (d : Delivery) : Delivery := (d.next .ask).next .serve

def takes : Nat → Delivery → Delivery
  | 0, d => d
  | n + 1, d => d.take.takes n

/-- After the release a question ends the iteration, if it has not ended yet. -/
theorem IsSound.take_released (known : d.IsSound) (released : d.handle.isReleased = true) :
    d.take.isEnded = true := by
  have asked := known.ask
  have stays := known.next_released released .ask
  rw [take]
  rcases asked.serve_cases with ⟨nothing, same⟩ | ⟨e, rest, _, held, _⟩ | ⟨_, _, queue, ends⟩
  · rw [same]
    rcases known.ask_cases with ⟨ended, unasked⟩ | ⟨_, _, stops⟩ | ⟨isOpen, _, asks⟩
    · rw [unasked]
      exact ended
    · rw [stops]
    · rw [asks] at nothing
      rcases nothing with idle | empty
      · cases idle
      · rcases (known.released released).2 with mark | ended
        · rw [mark] at empty
          cases empty
        · rw [isOpen] at ended
          cases ended
  · rw [stays] at held
    cases held
  · rw [ends]

/-- Behind a final event a question ends the iteration, if it has not ended yet. -/
theorem IsSound.take_finished (known : d.IsSound) (held : d.handle.isReleased = false)
    (last : ResultEvent.LastFinal d.delivered) :
    d.take.isEnded = true ∧ d.take.delivered = d.delivered := by
  have asked := known.ask
  obtain ⟨ended, stays, same⟩ : (d.next .ask).isEnded = true ∧
      (d.next .ask).handle.isReleased = false ∧ (d.next .ask).delivered = d.delivered := by
    rcases known.ask_cases with ⟨ended, unasked⟩ | ⟨_, _, stops⟩ | ⟨_, noFinal, _⟩
    · rw [unasked]
      exact ⟨ended, held, rfl⟩
    · rw [stops]
      exact ⟨rfl, held, rfl⟩
    · exact (last.not_noneFinal noFinal).elim
  rw [take]
  rcases asked.serve_cases with ⟨_, unserved⟩ | ⟨e, rest, isOpen, _⟩ | ⟨released, _⟩
  · rw [unserved]
    exact ⟨ended, same⟩
  · rw [ended] at isOpen
    cases isOpen
  · rw [stays] at released
    cases released

/-- While events are taken, the first that waits is delivered next. -/
theorem IsSound.take_taking (known : d.IsSound) (held : d.handle.isReleased = false)
    (noFinal : ResultEvent.NoneFinal d.delivered) {e : ResultEvent}
    {rest : List (Option ResultEvent)} (queue : d.handle.queue = some e :: rest) :
    d.take = { d with
      iteration := ⟨false, e.isFinal, none⟩
      handle := { d.handle with queue := rest }
      delivered := d.delivered ++ [e] } := by
  rcases known.ask_cases with ⟨ended, _⟩ | ⟨_, last, _⟩ | ⟨_, _, asks⟩
  · cases known.phase with
    | taking isOpen => simp [ended] at isOpen
    | finished isOpen => simp [ended] at isOpen
    | ended _ _ why =>
      rcases why with last | ⟨released, _⟩
      · exact (last.not_noneFinal noFinal).elim
      · simp [held] at released
  · exact (last.not_noneFinal noFinal).elim
  · rw [take, asks]
    simp [Delivery.next, Iteration.serve, queue, collect]

theorem IsSound.noneFinal_or_lastFinal (known : d.IsSound) :
    ResultEvent.NoneFinal d.delivered ∨ ResultEvent.LastFinal d.delivered := by
  cases known.phase with
  | taking _ _ noFinal => exact .inl noFinal
  | finished _ _ _ last => exact .inr last
  | ended _ _ why => exact why.elim .inr fun dropped => .inl dropped.2

/-- Before a release, taking comes to a final event that has been offered, and ends there. -/
theorem IsSound.takes_ends (known : d.IsSound) (held : d.handle.isReleased = false)
    (final : ∃ e ∈ d.offered, e.isFinal = true) :
    ∃ n, (d.takes n).isEnded = true ∧ ResultEvent.LastFinal (d.takes n).delivered := by
  obtain ⟨waiting, inQueue, together⟩ := known.waiting held
  -- Each question delivers the first event that waits, and the final one is among these or past.
  induction waiting generalizing d with
  | nil =>
    rcases known.noneFinal_or_lastFinal with noFinal | last
    · obtain ⟨e, member, isFinal⟩ := final
      rw [together, List.append_nil] at member
      simp [noFinal e member] at isFinal
    · obtain ⟨ends, same⟩ := known.take_finished held last
      exact ⟨1, ends, same ▸ last⟩
  | cons e rest ih =>
    rcases known.noneFinal_or_lastFinal with noFinal | last
    · have delivers := known.take_taking held noFinal inQueue
      have taken : d.take.IsSound := known.ask.serve
      obtain ⟨n, ends, last⟩ := ih taken (by rw [delivers]; exact held)
        (by rw [delivers]; exact final) (by rw [delivers])
        (by rw [delivers]; simpa [offered] using together)
      exact ⟨n + 1, ends, last⟩
    · obtain ⟨ends, same⟩ := known.take_finished held last
      exact ⟨1, ends, same ▸ last⟩

/-- The end of the task is announced: what it has still to do does that, and once it has ended by
itself, a final event has been offered. A release may end a task without. -/
structure IsAnnouncing (d : Delivery) : Prop where
  turn : ∀ t, d.turn = some t → t.IsAnnouncing d.yielded
  task : d.handle.task.IsAnnouncing
  done : d.handle.isReleased = false → d.handle.task.isDone = true →
    d.turn = none ∧ ∃ e ∈ d.offered, e.isFinal = true

theorem isAnnouncing_start (id : String) (operation : Operation) (values : List (String × Datum))
    (net : Network) : (start id operation values net).IsAnnouncing := by
  cases missing : operation.missingVariables values with
  | nil =>
    refine ⟨fun t same => (by cases same), ?_, ?_⟩
    · simp [start, Handle.start, Handle.idle, missing, Task.IsAnnouncing]
    · simp [start, Handle.start, Handle.idle, missing, Task.isDone]
  | cons name names =>
    refine ⟨fun t same => (by cases same), ?_,
      fun _ _ => ⟨rfl, .ofFailure (.missingVariables (name :: names)), ?_, rfl⟩⟩
    · simp [start, Handle.start, Handle.idle, Handle.fail, missing, Task.IsAnnouncing]
    · simp [offered, start, missing]

theorem IsAnnouncing.begin (known : d.IsAnnouncing) (active : d.handle.task.isActive = true)
    {turn : Turn} (announces : turn.IsAnnouncing d.yielded) (net : Network) :
    IsAnnouncing { d with turn := some turn, net } := by
  refine ⟨fun t same => ?_, known.task, fun _ done => ?_⟩
  · cases same
    exact announces
  · dsimp only at done
    rw [Task.isDone_of_isActive active] at done
    cases done

theorem IsAnnouncing.perform (known : d.IsAnnouncing) : (d.next .perform).IsAnnouncing := by
  cases turn : d.turn with
  | none => simpa [Delivery.next, turn] using known
  | some t =>
    have announces := known.turn t turn
    obtain ⟨effects, ending⟩ := t
    cases effects with
    | nil =>
      simp only [Delivery.next, turn]
      exact ⟨fun t same => (by cases same), Handle.isAnnouncing_conclude announces _,
        fun _ done => ⟨rfl, Handle.exists_final_of_isDone announces done⟩⟩
    | cons effect rest =>
      simp only [Delivery.next, turn]
      refine ⟨fun t same => ?_, ?_, fun held done => ?_⟩
      · cases same
        exact announces.perform
      · dsimp only
        rw [Handle.task_perform]
        exact known.task
      · dsimp only at held done
        rw [Handle.isReleased_perform] at held
        rw [Handle.task_perform] at done
        have noTurn := (known.done held done).1
        rw [turn] at noTurn
        cases noTurn

theorem IsAnnouncing.next (known : d.IsAnnouncing) (sound : d.IsSound) (happening : Happening) :
    (d.next happening).IsAnnouncing := by
  cases happening with
  | network net => exact ⟨known.turn, known.task, known.done⟩
  | launch resolved =>
    simp only [Delivery.next]
    split
    · rename_i created
      exact known.begin (by rw [created]; rfl) (Handle.isAnnouncing_firstTurn ..) _
    · exact known
  | resume =>
    simp only [Delivery.next]
    split
    · rename_i taken
      exact known.begin (Handle.isActive_of_nextTurn taken)
        (Handle.isAnnouncing_nextTurn known.task taken _) _
    · exact known
  | perform => exact known.perform
  | dispose =>
    refine ⟨known.turn, Handle.isAnnouncing_dispose known.task _, fun held => ?_⟩
    rw [d.isReleased_next_dispose] at held
    cases held
  | ask =>
    rcases sound.ask_cases with ⟨_, same⟩ | ⟨_, _, stops⟩ | ⟨_, _, asks⟩
    · rw [same]
      exact known
    · rw [stops]
      exact ⟨known.turn, known.task, known.done⟩
    · rw [asks]
      exact ⟨known.turn, known.task, known.done⟩
  | serve =>
    rcases sound.serve_cases with ⟨_, same⟩ | ⟨e, rest, _, _, _, _, delivers⟩ | ⟨_, _, queue, ends⟩
    · rw [same]
      exact known
    · rw [delivers]
      exact ⟨known.turn, known.task, known.done⟩
    · rw [ends]
      exact ⟨known.turn, known.task, known.done⟩

theorem IsAnnouncing.run (known : d.IsAnnouncing) (sound : d.IsSound)
    (happenings : List Happening) : (d.run happenings).IsAnnouncing := by
  induction happenings generalizing d with
  | nil => exact known
  | cons happening rest ih => exact ih (known.next sound happening) (sound.next happening)

theorem isReleased_start (id : String) (operation : Operation) (values : List (String × Datum))
    (net : Network) : (start id operation values net).handle.isReleased = false := by
  cases missing : operation.missingVariables values <;>
    simp [start, Handle.start, Handle.idle, Handle.fail, missing]

/-- Of the events offered, an initial part is delivered, and nothing behind the first final one.
Once the execution is disposed nothing is delivered any more, and the next question ends the
iteration. When it is never disposed and its task ends by itself, taking events comes to an end with
the only final one delivered. -/
theorem run_delivered (id : String) (operation : Operation) (values : List (String × Datum))
    (net : Network) (happenings : List Happening) :
    let d := (start id operation values net).run happenings
    d.delivered <+: d.offered ∧
    (∀ front e rest, d.delivered = front ++ e :: rest → e.isFinal = true → rest = []) ∧
    (∀ later, let disposed := (d.next .dispose).run later
      disposed.delivered = d.delivered ∧ disposed.take.isEnded = true) ∧
    (.dispose ∉ happenings → d.handle.task.isDone = true →
      ∃ n, (d.takes n).isEnded = true ∧ ResultEvent.LastFinal (d.takes n).delivered) := by
  have started := isSound_start id operation values net
  have sound := started.run happenings
  refine ⟨?_, ?_, ?_, ?_⟩
  · cases released :
        ((start id operation values net).run happenings).handle.isReleased with
    | false =>
      obtain ⟨waiting, _, together⟩ := sound.waiting released
      exact ⟨waiting, together.symm⟩
    | true => exact (sound.released released).1
  · intro front e rest same final
    rcases sound.noneFinal_or_lastFinal with noFinal | last
    · rw [same] at noFinal
      exact (noFinal.not_append final).elim
    · rw [same] at last
      exact last.behind final
  · intro later
    have disposed := sound.dispose
    obtain ⟨lasts, same⟩ := disposed.run_released (isReleased_next_dispose _) later
    exact ⟨same, (disposed.run later).take_released lasts⟩
  · intro kept done
    have held := started.run_held (isReleased_start ..) kept
    have announced := (isAnnouncing_start id operation values net).run started happenings
    exact sound.takes_ends held (announced.done held done).2

/-- A server that accepts a subscription, sends one result and completes it. -/
def completing : Network :=
  { (default : Network) with lastConnection := .accepted { (default : Socket) with arrived := [
    .text "\x7b\"type\":\"connection_ack\"\x7d",
    .text "\x7b\"type\":\"data\",\"payload\":\x7b\"data\":1\x7d\x7d",
    .text "\x7b\"type\":\"complete\"\x7d"] } }

/-- The first event is asked for before the task begins, and served while the task goes on. -/
def subscribed : List Happening :=
  [.ask,
    .launch (.ok (some { (default : Endpoint) with subscriptionUrl := some "ws://localhost" })),
    .perform, .perform, .resume, .perform, .perform, .resume, .perform, .serve, .perform, .resume,
    .perform, .perform]

theorem run_delivered_completed :
    let d := (start "1" { (default : Operation) with kind := .subscription } [] completing).run
      subscribed
    d.delivered.length = 1 ∧
      ∃ n, (d.takes n).isEnded = true ∧ ResultEvent.LastFinal (d.takes n).delivered :=
  ⟨by decide +kernel, (run_delivered _ _ _ _ subscribed).2.2.2 (by simp [subscribed])
    (by decide +kernel)⟩

end Delivery
end InlineQuery
