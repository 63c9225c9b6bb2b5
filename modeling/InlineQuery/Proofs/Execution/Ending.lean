import InlineQuery.Proofs.Execution.Queue
import InlineQuery.Proofs.Execution.Taking

/-!
The end of an execution. A final state is not left, and one final event announces it, unless the task
fails to take leave of its server behind that event.
-/

namespace InlineQuery
namespace Delivery

variable {d : Delivery}

/-- Whether something can happen while a task is in its turn. A task does not wait between getting
its endpoint and going on with it, and an execution is disposed only while its task waits. -/
def permits (d : Delivery) : Happening → Bool
  | .dispose => !d.turn.any Turn.connects
  | _ => true

def arePermitted (d : Delivery) : List Happening → Bool
  | [] => true
  | happening :: rest => d.permits happening && (d.next happening).arePermitted rest

/-- Whether a task ends by a failure behind a final event, because taking leave of the server was
prevented by what is no loss of the connection. -/
def breaksOff (d : Delivery) : Happening → Bool
  | .perform =>
    !d.handle.isReleased && d.yielded.any ResultEvent.isFinal &&
      match d.turn with
      | some ⟨[], .finished (some e)⟩ => !e.kind.isInterrupt && !Socket.isLoss e
      | _ => false
  | _ => false

def everBreaksOff (d : Delivery) : List Happening → Bool
  | [] => false
  | happening :: rest => d.breaksOff happening || (d.next happening).everBreaksOff rest

/-- In a run a final state is never left, and at most one final event is put into the queue. -/
structure EndsOnce (d : Delivery) (happenings : List Happening) : Prop where
  settled : ∀ before later, before ++ later <+: happenings →
    (d.run before).handle.state.isTerminal = true →
    (d.run (before ++ later)).handle.state = (d.run before).handle.state
  single : (d.handle.queue.reduceOption ++ d.allEnqueued happenings).countP (·.isFinal) ≤ 1

theorem arePermitted_append (d : Delivery) (before later : List Happening) :
    d.arePermitted (before ++ later) =
      (d.arePermitted before && (d.run before).arePermitted later) := by
  induction before generalizing d with
  | nil => rfl
  | cons happening rest ih =>
    rw [List.cons_append, arePermitted, arePermitted, ih, Bool.and_assoc]
    rfl

theorem everBreaksOff_append (d : Delivery) (before later : List Happening) :
    d.everBreaksOff (before ++ later) =
      (d.everBreaksOff before || (d.run before).everBreaksOff later) := by
  induction before generalizing d with
  | nil => rfl
  | cons happening rest ih =>
    rw [List.cons_append, everBreaksOff, everBreaksOff, ih, Bool.or_assoc]
    rfl

theorem exists_of_everBreaksOff {happenings : List Happening}
    (breaks : d.everBreaksOff happenings = true) :
    ∃ before happening later, happenings = before ++ happening :: later ∧
      (d.run before).breaksOff happening = true := by
  induction happenings generalizing d with
  | nil => cases breaks
  | cons happening rest ih =>
    rcases Bool.or_eq_true_iff.mp breaks with now | later
    · exact ⟨[], happening, rest, rfl, now⟩
    · obtain ⟨before, other, behind, rfl, there⟩ := ih later
      exact ⟨happening :: before, other, behind, rfl, there⟩

/-- What breaks off is the end of a turn behind a final event. -/
theorem breaksOff_cases {happening : Happening} (breaks : d.breaksOff happening = true) :
    happening = .perform ∧ d.handle.isReleased = false ∧ (∃ e ∈ d.yielded, e.isFinal = true) ∧
      ∃ ending f, d.turn = some ⟨[], ending⟩ ∧ ending.raised? = some f := by
  cases happening with
  | network | launch | resume | dispose | ask | serve => cases breaks
  | perform =>
    simp only [breaksOff, Bool.and_eq_true, Bool.not_eq_true', List.any_eq_true] at breaks
    obtain ⟨⟨held, yielded⟩, serious⟩ := breaks
    refine ⟨rfl, held, yielded, ?_⟩
    split at serious
    · rename_i e turn
      rw [Bool.and_eq_true, Bool.not_eq_true'] at serious
      exact ⟨_, e, turn, by simp [Ending.raised?, serious.1]⟩
    · cases serious

/-- Behind a final event, a task that does not break off ends without a failure. -/
theorem raised?_of_breaksOff {failure : Option Failure} (whole : d.breaksOff .perform = false)
    (held : d.handle.isReleased = false) (yielded : ∃ e ∈ d.yielded, e.isFinal = true)
    (turn : d.turn = some ⟨[], .finished failure⟩)
    (serious : ∀ f, failure = some f → Socket.isLoss f = false) :
    (Ending.finished failure).raised? = none := by
  cases failure with
  | none => rfl
  | some f =>
    cases interrupt : f.kind.isInterrupt with
    | true => simp [Ending.raised?, interrupt]
    | false =>
      have isFinal : d.yielded.any ResultEvent.isFinal = true := List.any_eq_true.mpr yielded
      simp [breaksOff, held, isFinal, turn, interrupt, serious f rfl] at whole

/-- Where an execution stands. It goes on, or it is at the end of the turn that brought its final
event, or it has ended, or it is released, and then nothing of its task changes its state. -/
inductive Standing (d : Delivery) : Prop
  | going : d.handle.isReleased = false → d.handle.state.isTerminal = false →
      (∀ t, d.turn = some t → t.IsOrderly) → Standing d
  | closing (failure : Option Failure) : d.handle.isReleased = false →
      d.handle.state.isTerminal = true → d.turn = some ⟨[], .finished failure⟩ →
      (∃ e ∈ d.yielded, e.isFinal = true) →
      (∀ f, failure = some f → Socket.isLoss f = false) → Standing d
  | ended : d.handle.isReleased = false → d.handle.state.isTerminal = true → d.turn = none →
      d.handle.task.isActive = false → Standing d
  | disposed : d.handle.isReleased = true → d.handle.state.isTerminal = true →
      d.handle.task ≠ .created →
      (∀ t, d.turn = some t → t.IsOrderly ∧ t.connects = false) → Standing d

/-- What a happening does where an execution ends once: a final state stays, and the final event
that comes to stand in the queue is the one that makes the state final. -/
structure KeepsEnd (d : Delivery) (happening : Happening) : Prop where
  standing : (d.next happening).Standing
  settled : d.handle.state.isTerminal = true →
    (d.next happening).handle.state = d.handle.state
  counted : (d.enqueued happening).countP (·.isFinal) + d.handle.state.isTerminal.toNat ≤
    (d.next happening).handle.state.isTerminal.toNat

/-- Nothing is put into the queue, and the state stays. -/
theorem KeepsEnd.of_same {happening : Happening} (standing : (d.next happening).Standing)
    (state : (d.next happening).handle.state = d.handle.state)
    (nothing : d.enqueued happening = []) : d.KeepsEnd happening :=
  ⟨standing, fun _ => state, by rw [nothing, state]; simp⟩

/-! ### An effect of a turn -/

section
variable {effect : Effect} {rest : List Effect} {ending : Ending}

/-- While an execution goes on, its state becomes a final one exactly when a final event comes into
the queue. -/
theorem KeepsEnd.effect_going (turn : d.turn = some ⟨effect :: rest, ending⟩)
    (held : d.handle.isReleased = false) (isOpen : d.handle.state.isTerminal = false)
    (orderly : Turn.IsOrderly ⟨effect :: rest, ending⟩) : d.KeepsEnd .perform := by
  have released := (d.handle.isReleased_perform effect).trans held
  have state := Handle.isTerminal_perform held effect
  have counted : (d.enqueued .perform).countP (·.isFinal) =
      (effect.event?.any ResultEvent.isFinal).toNat := by
    rw [enqueued_perform turn, held]
    cases effect.event? with
    | none => rfl
    | some e => cases isFinal : e.isFinal <;> simp [isFinal]
  refine ⟨?_, fun terminal => ?_, ?_⟩
  · rw [next_effect turn]
    cases final : effect.event?.any ResultEvent.isFinal with
    | false =>
      refine .going released (state.trans final) fun t same => ?_
      cases same
      exact orderly.perform
    | true =>
      obtain ⟨e, failure, isEvent, isFinal, closes, serious⟩ := orderly.ends final
      refine .closing failure released (state.trans final) (congrArg some closes)
        ⟨e, ?_, isFinal⟩ serious
      simp [isEvent]
  · rw [isOpen] at terminal
    cases terminal
  · rw [counted, next_effect turn, state, isOpen]
    exact Nat.le_refl _

theorem KeepsEnd.effect_disposed (turn : d.turn = some ⟨effect :: rest, ending⟩)
    (released : d.handle.isReleased = true) (terminal : d.handle.state.isTerminal = true)
    (begun : d.handle.task ≠ .created) (orderly : Turn.IsOrderly ⟨effect :: rest, ending⟩)
    (connects : Turn.connects ⟨effect :: rest, ending⟩ = false) : d.KeepsEnd .perform := by
  obtain ⟨first, others⟩ : effect.isConnecting = false ∧ rest.any Effect.isConnecting = false := by
    simpa [Turn.connects] using connects
  have state := Handle.state_perform_released released first
  refine .of_same ?_ ?_ ?_
  · rw [next_effect turn]
    refine .disposed ((Handle.isReleased_perform ..).trans released) ?_ ?_ fun t same => ?_
    · exact (congrArg ExecutionState.isTerminal state).trans terminal
    · exact fun created => begun ((d.handle.task_perform effect).symm.trans created)
    · cases same
      exact ⟨orderly.perform, others⟩
  · rw [next_effect turn]
    exact state
  · rw [enqueued_perform turn, released]
    rfl

theorem Standing.perform (standing : d.Standing)
    (turn : d.turn = some ⟨effect :: rest, ending⟩) : d.KeepsEnd .perform := by
  cases standing with
  | going held isOpen orderly => exact .effect_going turn held isOpen (orderly _ turn)
  | closing failure _ _ closes =>
    rw [turn] at closes
    cases closes
  | ended _ _ noTurn =>
    rw [turn] at noTurn
    cases noTurn
  | disposed released terminal begun quiet =>
    obtain ⟨orderly, connects⟩ := quiet _ turn
    exact .effect_disposed turn released terminal begun orderly connects

end

/-! ### The end of a turn -/

section
variable {ending : Ending}

/-- While an execution goes on, a turn that ends by a failure ends the execution. -/
theorem KeepsEnd.ending_going (turn : d.turn = some ⟨[], ending⟩)
    (held : d.handle.isReleased = false) (isOpen : d.handle.state.isTerminal = false) :
    d.KeepsEnd .perform := by
  have released := (d.handle.isReleased_conclude ending).trans held
  have state := d.handle.state_conclude ending
  have enqueued : d.enqueued .perform = (ending.raised?.map ResultEvent.ofFailure).toList := by
    rw [enqueued_conclude turn, held]
    rfl
  have notTerminal (terminal : d.handle.state.isTerminal = true) :
      (d.next .perform).handle.state = d.handle.state := by
    rw [isOpen] at terminal
    cases terminal
  cases raised : ending.raised? with
  | none =>
    rw [held, raised] at state
    refine .of_same ?_ ?_ ?_
    · rw [next_ending turn]
      refine .going released ?_ fun t same => by cases same
      exact (congrArg ExecutionState.isTerminal state).trans isOpen
    · rw [next_ending turn]
      exact state
    · rw [enqueued, raised]
      rfl
  | some f =>
    rw [held, raised] at state
    have fails := congrArg ExecutionState.isTerminal state
    refine ⟨?_, notTerminal, ?_⟩
    · rw [next_ending turn]
      exact .ended released fails rfl (Handle.isActive_conclude (by rw [raised]; rfl) _)
    · rw [enqueued, raised, next_ending turn, fails, isOpen]
      exact Nat.le_refl _

/-- A turn that brought the final event ends the task. -/
theorem KeepsEnd.ending_closing (whole : d.breaksOff .perform = false) {failure : Option Failure}
    (turn : d.turn = some ⟨[], .finished failure⟩) (held : d.handle.isReleased = false)
    (terminal : d.handle.state.isTerminal = true) (yielded : ∃ e ∈ d.yielded, e.isFinal = true)
    (serious : ∀ f, failure = some f → Socket.isLoss f = false) : d.KeepsEnd .perform := by
  have notRaised := raised?_of_breaksOff whole held yielded turn serious
  have state := d.handle.state_conclude (.finished failure)
  rw [held, notRaised] at state
  refine .of_same ?_ ?_ ?_
  · rw [next_ending turn]
    exact .ended ((d.handle.isReleased_conclude _).trans held)
      ((congrArg ExecutionState.isTerminal state).trans terminal) rfl (Handle.isActive_finish ..)
  · rw [next_ending turn]
    exact state
  · rw [enqueued_conclude turn, held, notRaised]
    rfl

theorem KeepsEnd.ending_disposed (turn : d.turn = some ⟨[], ending⟩)
    (dropped : d.handle.isReleased = true) (terminal : d.handle.state.isTerminal = true)
    (orderly : Turn.IsOrderly ⟨[], ending⟩) : d.KeepsEnd .perform := by
  have state := d.handle.state_conclude ending
  rw [dropped] at state
  refine .of_same ?_ ?_ ?_
  · rw [next_ending turn]
    refine .disposed ((d.handle.isReleased_conclude ending).trans dropped) ?_ ?_
      fun t same => by cases same
    · exact (congrArg ExecutionState.isTerminal state).trans terminal
    · exact Handle.task_conclude_ne_created orderly.begun _
  · rw [next_ending turn]
    exact state
  · rw [enqueued_conclude turn, dropped]
    rfl

theorem Standing.conclude (standing : d.Standing) (whole : d.breaksOff .perform = false)
    (turn : d.turn = some ⟨[], ending⟩) : d.KeepsEnd .perform := by
  cases standing with
  | going held isOpen => exact .ending_going turn held isOpen
  | closing failure held terminal closes yielded serious =>
    exact .ending_closing whole closes held terminal yielded serious
  | ended _ _ noTurn =>
    rw [turn] at noTurn
    cases noTurn
  | disposed dropped terminal _ quiet =>
    exact .ending_disposed turn dropped terminal (quiet _ turn).1

end

theorem Standing.isOrderly (standing : d.Standing) {t : Turn} (turn : d.turn = some t) :
    t.IsOrderly := by
  cases standing with
  | going _ _ orderly => exact orderly t turn
  | disposed _ _ _ quiet => exact (quiet t turn).1
  | closing failure _ _ closes =>
    rw [turn] at closes
    cases closes
    exact Turn.isOrderly_of_noneFinal (by simp) (by simp)
  | ended _ _ noTurn =>
    rw [turn] at noTurn
    cases noTurn

theorem Standing.isTerminal (standing : d.Standing) (released : d.handle.isReleased = true) :
    d.handle.state.isTerminal = true := by
  cases standing with
  | going held => simp [held] at released
  | closing _ _ terminal => exact terminal
  | ended _ terminal => exact terminal
  | disposed _ terminal => exact terminal

theorem Standing.dispose (standing : d.Standing) (permitted : d.permits .dispose = true) :
    d.KeepsEnd .dispose := by
  have state : (d.next .dispose).handle.state =
      if d.handle.isReleased || d.handle.state.isTerminal then d.handle.state else .disposed :=
    Handle.state_dispose ..
  have terminal : (d.next .dispose).handle.state.isTerminal = true := by
    rw [state]
    split
    · rename_i ended
      exact (Bool.or_eq_true_iff.mp ended).elim standing.isTerminal id
    · rfl
  -- A task that could still begin would go on with an endpoint and so leave the final state.
  have begun : (d.next .dispose).handle.task ≠ .created := by
    cases standing with
    | going held => exact Handle.task_dispose_ne_created held _
    | closing _ held => exact Handle.task_dispose_ne_created held _
    | ended held => exact Handle.task_dispose_ne_created held _
    | disposed released _ begun =>
      have same : (d.next .dispose).handle = d.handle := by
        simp [Delivery.next, Handle.dispose, released]
      rw [same]
      exact begun
  refine ⟨?_, fun isTerminal => by simp [state, isTerminal], ?_⟩
  · refine .disposed d.isReleased_next_dispose terminal begun fun t turn => ?_
    have turn : d.turn = some t := turn
    exact ⟨standing.isOrderly turn, by simpa [permits, turn] using permitted⟩
  · rw [enqueued_dispose, terminal]
    simpa using Bool.toNat_le _

theorem Standing.apart (standing : d.Standing) {happening : Happening}
    (silent : happening ≠ .perform) (kept : happening ≠ .dispose) : d.KeepsEnd happening := by
  obtain ⟨⟨queue, handle, _⟩, yielded, _, turn⟩ := next_apart (d := d) silent kept
  have isReleased := congrArg Handle.isReleased handle
  have state := congrArg Handle.state handle
  have isTerminal := congrArg ExecutionState.isTerminal state
  have task := congrArg Handle.task handle
  have orderly (t : Turn) (taken : (d.next happening).turn = some t) : t.IsOrderly := by
    rcases turn with same | ⟨_, _, begun, isTurn, orderly, _⟩
    · exact standing.isOrderly (same.symm.trans taken)
    · rw [taken] at isTurn
      cases isTurn
      exact orderly
  refine .of_same ?_ state (enqueued_apart silent)
  cases standing with
  | going held isOpen => exact .going (isReleased.trans held) (isTerminal.trans isOpen) orderly
  | closing failure held terminal closes final serious =>
    rcases turn with same | ⟨noTurn, _⟩
    · exact .closing failure (isReleased.trans held) (isTerminal.trans terminal)
        (same.trans closes) (yielded ▸ final) serious
    · rw [closes] at noTurn
      cases noTurn
  | ended held terminal noTurn idle =>
    rcases turn with same | ⟨_, active, _⟩
    · exact .ended (isReleased.trans held) (isTerminal.trans terminal) (same.trans noTurn)
        ((congrArg Task.isActive task).trans idle)
    · rw [idle] at active
      cases active
  | disposed released terminal begun quiet =>
    refine .disposed (isReleased.trans released) (isTerminal.trans terminal)
      (fun created => begun (task.symm.trans created)) fun t taken => ⟨orderly t taken, ?_⟩
    rcases turn with same | ⟨_, _, next, isTurn, _, connecting⟩
    · exact (quiet t (same.symm.trans taken)).2
    · rw [taken] at isTurn
      cases isTurn
      exact Bool.eq_false_iff.mpr fun connects => begun (connecting connects)

/-- Where nothing is broken off, each happening keeps the end. -/
theorem Standing.next (standing : d.Standing) {happening : Happening}
    (permitted : d.permits happening = true) (whole : d.breaksOff happening = false) :
    d.KeepsEnd happening := by
  cases happening with
  | network | launch | resume | ask | serve => exact standing.apart (by simp) (by simp)
  | dispose => exact standing.dispose permitted
  | perform =>
    cases turn : d.turn with
    | none =>
      have same := next_idle turn
      exact .of_same (same.symm ▸ standing) (by rw [same]) (enqueued_idle turn)
    | some t =>
      obtain ⟨effects, ending⟩ := t
      cases effects with
      | nil => exact standing.conclude whole turn
      | cons effect rest => exact standing.perform turn

/-- By induction over the run, a final state stays, and of all final events that come to stand in
the queue one at most does before the state is final, and none after. -/
theorem Standing.run (standing : d.Standing) {happenings : List Happening}
    (permitted : d.arePermitted happenings = true) (whole : d.everBreaksOff happenings = false) :
    (d.run happenings).Standing ∧
    (d.handle.state.isTerminal = true → (d.run happenings).handle.state = d.handle.state) ∧
    (d.allEnqueued happenings).countP (·.isFinal) + d.handle.state.isTerminal.toNat ≤
      (d.run happenings).handle.state.isTerminal.toNat := by
  induction happenings generalizing d with
  | nil => exact ⟨standing, fun _ => rfl, by simp [allEnqueued, Delivery.run]⟩
  | cons happening rest ih =>
    obtain ⟨now, later⟩ := Bool.and_eq_true_iff.mp permitted
    obtain ⟨wholeNow, wholeLater⟩ := Bool.or_eq_false_iff.mp whole
    have step := standing.next now wholeNow
    obtain ⟨stands, settled, counted⟩ := ih step.standing later wholeLater
    refine ⟨stands, fun terminal => ?_, ?_⟩
    · have state := step.settled terminal
      exact (settled ((congrArg ExecutionState.isTerminal state).trans terminal)).trans state
    · have first := step.counted
      rw [allEnqueued, List.countP_append]
      change _ ≤ ((d.next happening).run rest).handle.state.isTerminal.toNat
      omega

theorem standing_start (id : String) (operation : Operation) (values : List (String × Datum))
    (net : Network) : (start id operation values net).Standing := by
  cases missing : operation.missingVariables values with
  | nil =>
    refine .going (isReleased_start ..) ?_ fun t turn => by cases turn
    simp [start, Handle.start, Handle.idle, missing, ExecutionState.isTerminal]
  | cons name names =>
    refine .ended (isReleased_start ..) ?_ rfl ?_
    · simp [start, Handle.start, Handle.idle, Handle.fail, missing, ExecutionState.isTerminal]
    · simp [start, Handle.start, Handle.idle, Handle.fail, missing, Task.isActive]

/-- When an execution is started, the events that stand in its queue are those that were offered. -/
theorem reduceOption_queue_start (id : String) (operation : Operation)
    (values : List (String × Datum)) (net : Network) :
    (start id operation values net).handle.queue.reduceOption =
      (start id operation values net).offered := by
  obtain ⟨waiting, queue, together⟩ :=
    (isSound_start id operation values net).waiting (isReleased_start ..)
  rw [queue, together]
  simp [List.reduceOption, start]

/-- A final event was counted when the execution was started only if its state is final. -/
theorem countP_offered_start (id : String) (operation : Operation)
    (values : List (String × Datum)) (net : Network) :
    (start id operation values net).offered.countP (·.isFinal) =
      (start id operation values net).handle.state.isTerminal.toNat := by
  cases missing : operation.missingVariables values with
  | nil =>
    simp [offered, start, Handle.start, Handle.idle, missing, ExecutionState.isTerminal]
  | cons name names =>
    simp [offered, start, Handle.start, Handle.idle, Handle.fail, missing,
      ExecutionState.isTerminal, ResultEvent.ofFailure]

/-- An execution ends once exactly if its task never ends by a failure behind a final event before
it is disposed. That happens only if taking leave of the server is prevented by what is no loss of
the connection. -/
theorem run_endsOnce_iff (id : String) (operation : Operation) (values : List (String × Datum))
    (net : Network) (happenings : List Happening)
    (permitted : (start id operation values net).arePermitted happenings = true) :
    (start id operation values net).EndsOnce happenings ↔
      (start id operation values net).everBreaksOff happenings = false := by
  have sound := isSound_start id operation values net
  constructor
  · intro once
    refine Bool.eq_false_iff.mpr fun breaks => ?_
    -- The final event that was yielded and the one of the failure both came into the queue.
    obtain ⟨before, happening, later, rfl, there⟩ := exists_of_everBreaksOff breaks
    obtain ⟨rfl, held, ⟨e, yielded, final⟩, ending, f, turn, raised⟩ := breaksOff_cases there
    have offered := sound.offered_run before held
    have failure : ((start id operation values net).run before).enqueued .perform =
        [.ofFailure f] := by
      rw [enqueued_conclude turn, held, raised]
      rfl
    have first : 0 < ((start id operation values net).run before).offered.countP (·.isFinal) :=
      List.countP_pos_iff.mpr ⟨e, List.mem_append_left _ yielded, final⟩
    have single := once.single
    rw [allEnqueued_append, ← List.append_assoc, reduceOption_queue_start, offered, allEnqueued,
      failure, List.countP_append, List.countP_append] at single
    simp [ResultEvent.ofFailure] at single
    omega
  · intro whole
    refine ⟨fun before later isPrefix terminal => ?_, ?_⟩
    · obtain ⟨rest, rfl⟩ := isPrefix
      rw [arePermitted_append, arePermitted_append, Bool.and_eq_true, Bool.and_eq_true] at permitted
      rw [everBreaksOff_append, everBreaksOff_append, Bool.or_eq_false_iff,
        Bool.or_eq_false_iff] at whole
      have stands := ((standing_start ..).run permitted.1.1 whole.1.1).1
      rw [run_append]
      exact (stands.run permitted.1.2 whole.1.2).2.1 terminal
    · have counted := ((standing_start ..).run permitted whole).2.2
      have atMost := Bool.toNat_le
        ((start id operation values net).run happenings).handle.state.isTerminal
      rw [List.countP_append, reduceOption_queue_start, countP_offered_start]
      omega

theorem run_endsOnce_iff_completed :
    (start "1" { (default : Operation) with kind := .subscription } [] completing).EndsOnce
      subscribed :=
  (run_endsOnce_iff _ _ _ _ subscribed (by decide +kernel)).mpr (by decide +kernel)

/-- A server that accepts a subscription and completes it, over a connection that refuses a third
message, which is the farewell. -/
def unsendable : Network :=
  { (default : Network) with lastConnection := .accepted { (default : Socket) with
      fault := some (2, .value "boom")
      arrived := [
        .text "\x7b\"type\":\"connection_ack\"\x7d",
        .text "\x7b\"type\":\"complete\"\x7d"] } }

/-- The task begins, and takes a turn for each of the two messages. -/
def brokenOff : List Happening :=
  [.launch (.ok (some { (default : Endpoint) with subscriptionUrl := some "ws://localhost" })),
    .perform, .perform, .resume, .perform, .perform, .resume, .perform, .perform]

/-- The state turns from completed to failed, and a second final event comes to stand in the queue. -/
theorem not_endsOnce_brokenOff :
    let first := start "1" { (default : Operation) with kind := .subscription } [] unsendable
    first.arePermitted brokenOff = true ∧
      (first.run (brokenOff.take 8)).handle.state = .completed ∧
      (first.run brokenOff).handle.state = .failed ∧
      (first.handle.queue.reduceOption ++ first.allEnqueued brokenOff).countP (·.isFinal) = 2 ∧
      ¬ first.EndsOnce brokenOff := by
  intro first
  have twice : (first.handle.queue.reduceOption ++
      first.allEnqueued brokenOff).countP (·.isFinal) = 2 := by decide +kernel
  refine ⟨by decide +kernel, by decide +kernel, by decide +kernel, twice, fun once => ?_⟩
  have single := once.single
  omega

end Delivery
end InlineQuery
