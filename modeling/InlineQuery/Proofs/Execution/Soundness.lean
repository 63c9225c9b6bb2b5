import InlineQuery.Proofs.Execution.Delivery

namespace InlineQuery
namespace Delivery

/-- How far the iteration has come: it takes events, it has delivered a final one and ends at the
next question, or it has ended, behind a final event or because of the release. -/
inductive Phase (d : Delivery) : Prop
  | taking : d.isEnded = false → d.iteration.isOver = false →
      ResultEvent.NoneFinal d.delivered → Phase d
  | finished : d.isEnded = false → d.iteration.isOver = true → d.iteration.isAsking = false →
      ResultEvent.LastFinal d.delivered → Phase d
  | ended : d.isEnded = true → d.iteration.isAsking = false →
      (ResultEvent.LastFinal d.delivered ∨
        d.handle.isReleased = true ∧ ResultEvent.NoneFinal d.delivered) → Phase d

/-- The phase depends on the iteration, and on the release, which lasts. -/
theorem Phase.congr {d later : Delivery} (phase : Phase d) (iteration : later.iteration = d.iteration)
    (delivered : later.delivered = d.delivered) (isEnded : later.isEnded = d.isEnded)
    (released : d.handle.isReleased = true → later.handle.isReleased = true) : Phase later := by
  cases phase with
  | taking isOpen going noFinal =>
    exact .taking (isEnded.trans isOpen) (iteration ▸ going) (delivered ▸ noFinal)
  | finished isOpen passed idle last =>
    exact .finished (isEnded.trans isOpen) (iteration ▸ passed) (iteration ▸ idle) (delivered ▸ last)
  | ended ended idle why =>
    refine .ended (isEnded.trans ended) (iteration ▸ idle) ?_
    rw [delivered]
    exact why.imp_right fun dropped => ⟨released dropped.1, dropped.2⟩

/-- What the events delivered and those that wait have to do with the events offered. Up to the
release they are these together. From then on only the mark of the end waits. -/
structure IsSound (d : Delivery) : Prop where
  quiet : d.raised.isSome = true → d.turn = none ∧ d.handle.task.isActive = false
  answered : d.iteration.answer = none
  phase : Phase d
  waiting : d.handle.isReleased = false →
    ∃ waiting, d.handle.queue = waiting.map some ∧ d.offered = d.delivered ++ waiting
  released : d.handle.isReleased = true →
    d.delivered <+: d.offered ∧ (d.handle.queue = [none] ∨ d.isEnded = true)

variable {d : Delivery}

theorem isSound_start (id : String) (operation : Operation) (values : List (String × Datum))
    (net : Network) : (start id operation values net).IsSound := by
  cases missing : operation.missingVariables values with
  | nil =>
    refine ⟨by simp [start, missing], rfl, .taking rfl rfl (by simp [start, ResultEvent.NoneFinal]),
      fun _ => ⟨[], ?_, ?_⟩, ?_⟩
    · simp [start, Handle.start, Handle.idle, missing]
    · simp [offered, start, missing]
    · simp [start, Handle.start, Handle.idle, missing]
  | cons name names =>
    refine ⟨fun _ => ⟨rfl, ?_⟩, rfl, .taking rfl rfl (by simp [start, ResultEvent.NoneFinal]),
      fun _ => ⟨[.ofFailure (.missingVariables (name :: names))], ?_, ?_⟩, ?_⟩
    · simp [start, Handle.start, Handle.idle, Handle.fail, missing, Task.isActive]
    · simp [start, Handle.start, Handle.idle, Handle.fail, missing]
    · simp [offered, start, missing]
    · simp [start, Handle.start, Handle.idle, Handle.fail, missing]

/-- The task offers events and puts them into the queue, except after the release. -/
theorem IsSound.offer (known : d.IsSound) {h : Handle} {turn : Option Turn}
    {yielded news : List ResultEvent} {raised : Option Failure}
    (released : h.isReleased = d.handle.isReleased)
    (queue : h.queue =
      if d.handle.isReleased then d.handle.queue else d.handle.queue ++ news.map some)
    (offered : yielded ++ (raised.map ResultEvent.ofFailure).toList = d.offered ++ news)
    (quiet : raised.isSome = true → turn = none ∧ h.task.isActive = false) :
    IsSound { d with handle := h, turn, yielded, raised } := by
  refine ⟨quiet, known.answered, known.phase.congr rfl rfl rfl released.trans, ?_, ?_⟩
  · intro held
    dsimp only at held
    rw [released] at held
    obtain ⟨waiting, inQueue, together⟩ := known.waiting held
    refine ⟨waiting ++ news, ?_, ?_⟩
    · simp [queue, held, inQueue]
    · rw [Delivery.offered, offered, together, List.append_assoc]
  · intro dropped
    dsimp only at dropped
    rw [released] at dropped
    obtain ⟨before, mark⟩ := known.released dropped
    refine ⟨?_, ?_⟩
    · rw [Delivery.offered, offered]
      exact before.trans (List.prefix_append ..)
    · simpa [queue, dropped] using mark

/-- A task that is in its turn has not failed. -/
theorem IsSound.raised_eq_none (known : d.IsSound) {t : Turn} (turn : d.turn = some t) :
    d.raised = none := by
  cases raised : d.raised with
  | none => rfl
  | some e =>
    have noTurn := (known.quiet (by simp [raised])).1
    rw [turn] at noTurn
    cases noTurn

theorem IsSound.perform (known : d.IsSound) : (d.next .perform).IsSound := by
  cases turn : d.turn with
  | none => simpa [next, turn] using known
  | some t =>
    have notRaised := known.raised_eq_none turn
    obtain ⟨effects, ending⟩ := t
    cases effects with
    | nil =>
      simp only [next, turn]
      refine known.offer (Handle.isReleased_conclude ..) (Handle.queue_conclude ..) ?_ ?_
      · simp [offered, notRaised]
      · exact fun raised => ⟨rfl, Handle.isActive_conclude raised _⟩
    | cons effect rest =>
      simp only [next, turn]
      refine known.offer (Handle.isReleased_perform ..) (Handle.queue_perform ..) ?_ ?_
      · simp [offered, notRaised]
      · simp [notRaised]

/-- A task that has a turn to begin has not failed. -/
theorem IsSound.begin (known : d.IsSound) (active : d.handle.task.isActive = true)
    (turn : Turn) (net : Network) : IsSound { d with turn := some turn, net } := by
  refine ⟨fun raised => ?_, known.answered, known.phase.congr rfl rfl rfl id, known.waiting,
    known.released⟩
  have idle := (known.quiet raised).2
  rw [active] at idle
  cases idle

theorem IsSound.launch (known : d.IsSound) (resolved : Except Failure (Option Endpoint)) :
    (d.next (.launch resolved)).IsSound := by
  simp only [next]
  split
  · rename_i created
    exact known.begin (by rw [created]; rfl) _ _
  · exact known

theorem IsSound.resume (known : d.IsSound) : (d.next .resume).IsSound := by
  simp only [next]
  split
  · rename_i taken
    exact known.begin (Handle.isActive_of_nextTurn taken) _ _
  · exact known

theorem IsSound.network (known : d.IsSound) (net : Network) : (d.next (.network net)).IsSound :=
  ⟨known.quiet, known.answered, known.phase.congr rfl rfl rfl id, known.waiting, known.released⟩

theorem isReleased_next_dispose (d : Delivery) : (d.next .dispose).handle.isReleased = true :=
  Handle.isReleased_dispose ..

theorem IsSound.dispose (known : d.IsSound) : (d.next .dispose).IsSound := by
  have released := d.isReleased_next_dispose
  refine ⟨fun raised => ?_, known.answered, known.phase.congr rfl rfl rfl fun _ => released, ?_,
    fun _ => ?_⟩
  · obtain ⟨noTurn, idle⟩ := known.quiet raised
    exact ⟨noTurn, Handle.isActive_dispose idle d.net⟩
  · intro held
    rw [released] at held
    cases held
  · have queue : (d.next .dispose).handle.queue =
        if d.handle.isReleased then d.handle.queue else [none] := Handle.queue_dispose ..
    cases before : d.handle.isReleased with
    | false =>
      obtain ⟨waiting, _, together⟩ := known.waiting before
      refine ⟨?_, .inl (by simp [queue, before])⟩
      exact ⟨waiting, together.symm⟩
    | true =>
      rw [queue, before]
      exact known.released before

/-- A question is left open while events are taken, and behind a final event it ends the
iteration. -/
theorem IsSound.ask_cases (known : d.IsSound) :
    (d.isEnded = true ∧ d.next .ask = d) ∨
    (d.isEnded = false ∧ ResultEvent.LastFinal d.delivered ∧
      d.next .ask = { d with iteration := .new, isEnded := true }) ∨
    (d.isEnded = false ∧ ResultEvent.NoneFinal d.delivered ∧
      d.next .ask = { d with iteration := ⟨true, false, none⟩ }) := by
  have answered := known.answered
  cases known.phase with
  | ended isEnded => exact .inl ⟨isEnded, by simp [Delivery.next, isEnded]⟩
  | finished isOpen passed idle last =>
    refine .inr (.inl ⟨isOpen, last, ?_⟩)
    simp [Delivery.next, isOpen, Iteration.ask, Iteration.new, idle, answered, passed, collect]
  | taking isOpen going noFinal =>
    have asked : d.iteration.ask = ⟨true, false, none⟩ := by
      cases iteration : d.iteration with
      | mk isAsking isOver answer =>
        rw [iteration] at going answered
        cases going
        cases answered
        cases isAsking <;> rfl
    refine .inr (.inr ⟨isOpen, noFinal, ?_⟩)
    rw [Delivery.next, if_neg (by simp [isOpen]), asked]
    rfl

theorem IsSound.ask (known : d.IsSound) : (d.next .ask).IsSound := by
  rcases known.ask_cases with ⟨_, same⟩ | ⟨_, last, stops⟩ | ⟨isOpen, noFinal, asks⟩
  · rw [same]
    exact known
  · rw [stops]
    exact ⟨known.quiet, rfl, .ended rfl rfl (.inl last), known.waiting,
      fun dropped => ⟨(known.released dropped).1, .inr rfl⟩⟩
  · rw [asks]
    exact ⟨known.quiet, rfl, .taking isOpen rfl noFinal, known.waiting, known.released⟩

/-- What serving does in each case: nothing, or an event is delivered before the release, or the
iteration ends after it. -/
theorem IsSound.serve_cases (known : d.IsSound) :
    ((d.iteration.isAsking = false ∨ d.handle.queue = []) ∧ d.next .serve = d) ∨
    (∃ e rest, d.isEnded = false ∧ d.handle.isReleased = false ∧
      ResultEvent.NoneFinal d.delivered ∧ d.handle.queue = some e :: rest ∧
      d.next .serve = { d with
        iteration := ⟨false, e.isFinal, none⟩
        handle := { d.handle with queue := rest }
        delivered := d.delivered ++ [e] }) ∨
    (d.handle.isReleased = true ∧ ResultEvent.NoneFinal d.delivered ∧ ∃ queue,
      d.next .serve = { d with
        iteration := ⟨false, false, none⟩
        handle := { d.handle with queue }
        isEnded := true }) := by
  have answered := known.answered
  cases asking : d.iteration.isAsking with
  | false =>
    refine .inl ⟨.inl rfl, ?_⟩
    simp [Delivery.next, Iteration.serve, asking, collect, answered]
  | true =>
    cases known.phase with
    | ended _ idle => simp [asking] at idle
    | finished _ _ idle => simp [asking] at idle
    | taking isOpen going noFinal =>
      cases queue : d.handle.queue with
      | nil =>
        refine .inl ⟨.inr rfl, ?_⟩
        simp [Delivery.next, Iteration.serve, asking, collect, answered, queue]
      | cons first rest =>
        right
        cases released : d.handle.isReleased with
        | false =>
          left
          obtain ⟨waiting, inQueue, _⟩ := known.waiting released
          rw [queue] at inQueue
          obtain ⟨e, later, _, isFirst, _⟩ := List.map_eq_cons_iff.mp inQueue.symm
          refine ⟨e, rest, isOpen, rfl, noFinal, by rw [isFirst], ?_⟩
          simp [next, Iteration.serve, asking, collect, queue, ← isFirst]
        | true =>
          right
          rcases (known.released released).2 with mark | isEnded
          · rw [queue] at mark
            cases mark
            exact ⟨rfl, noFinal, [], by simp [next, Iteration.serve, asking, collect, queue]⟩
          · rw [isOpen] at isEnded
            cases isEnded

theorem IsSound.serve (known : d.IsSound) : (d.next .serve).IsSound := by
  rcases known.serve_cases with
    ⟨_, same⟩ | ⟨e, rest, isOpen, held, noFinal, queue, delivers⟩ | ⟨released, noFinal, queue, ends⟩
  · rw [same]
    exact known
  · obtain ⟨waiting, inQueue, together⟩ := known.waiting held
    rw [queue] at inQueue
    obtain ⟨e', later, isWaiting, isFirst, isRest⟩ := List.map_eq_cons_iff.mp inQueue.symm
    cases isFirst
    rw [delivers]
    refine ⟨known.quiet, rfl, ?_, fun _ => ⟨later, isRest.symm, ?_⟩, fun released => ?_⟩
    · cases final : e.isFinal with
      | true => exact .finished isOpen rfl rfl ⟨d.delivered, e, rfl, noFinal, final⟩
      | false =>
        refine .taking isOpen rfl fun x member => ?_
        rcases List.mem_append.mp member with before | last
        · exact noFinal x before
        · rw [List.mem_singleton.mp last]
          exact final
    · rw [isWaiting] at together
      simpa [offered] using together
    · rw [held] at released
      cases released
  · rw [ends]
    exact ⟨known.quiet, rfl, .ended rfl rfl (.inr ⟨released, noFinal⟩),
      fun held => by simp [released] at held,
      fun _ => ⟨(known.released released).1, .inr rfl⟩⟩

theorem IsSound.next (known : d.IsSound) (happening : Happening) :
    (d.next happening).IsSound := by
  cases happening with
  | network net => exact known.network net
  | launch resolved => exact known.launch resolved
  | resume => exact known.resume
  | perform => exact known.perform
  | dispose => exact known.dispose
  | ask => exact known.ask
  | serve => exact known.serve

theorem IsSound.run (known : d.IsSound) (happenings : List Happening) :
    (d.run happenings).IsSound := by
  induction happenings generalizing d with
  | nil => exact known
  | cons happening rest ih => exact ih (known.next happening)

/-- Only a disposal releases. -/
theorem IsSound.isReleased_next (known : d.IsSound) {happening : Happening}
    (other : happening ≠ .dispose) :
    (d.next happening).handle.isReleased = d.handle.isReleased := by
  cases happening with
  | network net => rfl
  | launch resolved =>
    simp only [Delivery.next]
    split <;> rfl
  | resume =>
    simp only [Delivery.next]
    split <;> rfl
  | perform =>
    simp only [Delivery.next]
    split
    · rfl
    · exact Handle.isReleased_perform ..
    · exact Handle.isReleased_conclude ..
  | dispose => exact absurd rfl other
  | ask =>
    rcases known.ask_cases with ⟨_, same⟩ | ⟨_, _, stops⟩ | ⟨_, _, asks⟩
    · rw [same]
    · rw [stops]
    · rw [asks]
  | serve =>
    rcases known.serve_cases with ⟨_, same⟩ | ⟨e, rest, _, _, _, _, delivers⟩ | ⟨_, _, queue, ends⟩
    · rw [same]
    · rw [delivers]
    · rw [ends]

theorem IsSound.next_released (known : d.IsSound) (released : d.handle.isReleased = true)
    (happening : Happening) : (d.next happening).handle.isReleased = true := by
  cases happening with
  | dispose => exact d.isReleased_next_dispose
  | network | launch | resume | perform | ask | serve =>
    exact (known.isReleased_next (by simp)).trans released

/-- After the release nothing is delivered any more. -/
theorem IsSound.delivered_next (known : d.IsSound) (released : d.handle.isReleased = true)
    (happening : Happening) : (d.next happening).delivered = d.delivered := by
  cases happening with
  | network | dispose => rfl
  | launch | resume | perform =>
    simp only [Delivery.next]
    split <;> rfl
  | ask =>
    rcases known.ask_cases with ⟨_, same⟩ | ⟨_, _, stops⟩ | ⟨_, _, asks⟩
    · rw [same]
    · rw [stops]
    · rw [asks]
  | serve =>
    rcases known.serve_cases with ⟨_, same⟩ | ⟨e, rest, _, held, _⟩ | ⟨_, _, queue, ends⟩
    · rw [same]
    · rw [released] at held
      cases held
    · rw [ends]

theorem IsSound.run_released (known : d.IsSound) (released : d.handle.isReleased = true)
    (later : List Happening) : (d.run later).handle.isReleased = true ∧
      (d.run later).delivered = d.delivered := by
  induction later generalizing d with
  | nil => exact ⟨released, rfl⟩
  | cons happening rest ih =>
    obtain ⟨lasts, still⟩ :=
      ih (known.next happening) (known.next_released released happening)
    exact ⟨lasts, still.trans (known.delivered_next released happening)⟩

theorem IsSound.run_held (known : d.IsSound) (held : d.handle.isReleased = false)
    {happenings : List Happening} (kept : .dispose ∉ happenings) :
    (d.run happenings).handle.isReleased = false := by
  induction happenings generalizing d with
  | nil => exact held
  | cons happening rest ih =>
    have other := (List.ne_of_not_mem_cons kept).symm
    exact ih (known.next happening) ((known.isReleased_next other).trans held)
      (List.not_mem_of_not_mem_cons kept)

end Delivery
end InlineQuery
