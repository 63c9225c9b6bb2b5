import InlineQuery.Proofs.Execution.Queue
import InlineQuery.Proofs.Subscription.Breakdown

/-!
The breakdown of a subscription as the caller of its stream and as an execution meet it.
-/

namespace InlineQuery
namespace Request

variable {r : Request} {net opened : Network} {met : Failure} {origin : Option Failure}

/-- The failure by which a subscription ends that a request makes, if its server sends certain frames
over the connection. -/
def streamFailure (r : Request) (net : Network) (id : String) (limit : Option Nat)
    (frames : List Frame) : Option Failure :=
  match r.dial net with
  | (.error e, _) => some e
  | (.ok i, net) => (Subscription.runOver r id limit (net.socket i) frames).failure

/-- The failure that is met where a request does not come to be heard: its connection is refused, or
the greeting cannot be sent. -/
inductive Unconnected (r : Request) (net : Network) : Failure → Prop
  | refused {endpoint : Endpoint} {url : String} {met : Failure} (isAt : r.endpoint = some endpoint)
      (isUrl : endpoint.socketUrl = .ok url)
      (refuses : net.connections.headD net.lastConnection = .refused met)
      (lost : met.kind.isConnection = true) : Unconnected r net met
  | ungreeted {i : Nat} {opened : Network} {met : Failure} (connects : r.dial net = (.ok i, opened))
      (fails : (opened.socket i).send
        (.greeting ((r.endpoint.map (·.connectionParams)).getD [])) = .error met)
      (lost : met.kind.isConnection = true) : Unconnected r net met

/-- How the subscription of a request breaks down, and the failure that was met if there was one:
before it is heard, or at a frame before the end. -/
inductive Breakdown (r : Request) (net : Network) (id : String) (limit : Option Nat) :
    List Frame → Option Failure → Prop
  | unconnected {met : Failure} (frames : List Frame) (fails : r.Unconnected net met) :
      Breakdown r net id limit frames (some met)
  | reached {i : Nat} {opened : Network} {greeted s : Subscription} {origin : Option Failure}
      {before : List Frame} {frame : Frame} (rest : List Frame)
      (connects : r.dial net = (.ok i, opened)) (lossy : (opened.socket i).IsLossy)
      (greets : Subscription.greet r id (opened.socket i) = .waiting greeted)
      (leads : greeted.reached limit before = some s) (breaks : s.BreaksAt frame origin) :
      Breakdown r net id limit (before ++ frame :: rest) origin

theorem Unconnected.isConnection (fails : r.Unconnected net met) : met.kind.isConnection = true := by
  cases fails with
  | refused _ _ _ lost => exact lost
  | ungreeted _ _ lost => exact lost

/-- A request that does not come to be heard fails: it is not connected, or greeting ends it. -/
theorem Unconnected.cases (fails : r.Unconnected net met) (id : String) :
    ∃ e, e.Surfaces (some met) ∧ ((∃ later, r.dial net = (.error e, later)) ∨
      ∃ i later left, r.dial net = (.ok i, later) ∧
        Subscription.greet r id (later.socket i) = .ended (some e) left) := by
  cases fails with
  | @refused endpoint url _ isAt isUrl refuses lost =>
    let attempt : Dial := ⟨url, ["graphql-ws"], endpoint.headers⟩
    have made : (net.dial attempt).1 = .error met := by simp only [Network.dial, refuses]
    refine ⟨unconnected url met, Failure.surfaces_explained lost _, .inl ⟨(net.dial attempt).2, ?_⟩⟩
    simp only [dial, isAt, isUrl, made, attempt, Except.mapError]
  | ungreeted connects fails lost =>
    obtain ⟨e, left, greets, surfaces⟩ := Subscription.greet_of_unsent id fails lost
    exact ⟨e, surfaces, .inr ⟨_, _, left, connects, greets⟩⟩

theorem fault_of_greet {id : String} {socket : Socket} {greeted : Subscription}
    (greets : Subscription.greet r id socket = .waiting greeted) :
    greeted.socket.fault = socket.fault := by
  unfold Subscription.greet at greets
  dsimp only at greets
  split at greets
  · rename_i send
    cases greets
    exact Socket.fault_send send
  · cases greets

/-- The stream of a subscription that breaks down ends by a failure. -/
theorem Breakdown.streamFailure {id : String} {limit : Option Nat} {frames : List Frame}
    (breaks : r.Breakdown net id limit frames origin) :
    ∃ e, r.streamFailure net id limit frames = some e ∧ e.Surfaces origin := by
  cases breaks with
  | unconnected frames fails =>
    obtain ⟨e, surfaces, ⟨later, refused⟩ | ⟨i, later, left, connects, ended⟩⟩ := fails.cases id
    · exact ⟨e, by rw [Request.streamFailure, refused], surfaces⟩
    · refine ⟨e, ?_, surfaces⟩
      rw [Request.streamFailure, connects]
      dsimp only
      rw [Subscription.runOver, ended]
  | @reached i opened greeted s _ before frame rest connects lossy greets leads breaks =>
    obtain ⟨fault, left, same⟩ := Subscription.reached_spec leads (frame :: rest)
    have stillLossy : s.socket.IsLossy := fun count e isFault =>
      lossy count e ((fault.trans (fault_of_greet greets)).symm.trans isFault)
    obtain ⟨e, socket, ended, surfaces⟩ := Subscription.receive_of_breaksAt stillLossy breaks
    refine ⟨e, ?_, surfaces⟩
    rw [Request.streamFailure, connects]
    dsimp only
    rw [Subscription.runOver, greets]
    dsimp only
    rw [same, Subscription.follow, ended]

end Request

namespace Delivery

variable {d : Delivery} {e : Failure}

/-- How an execution breaks down when its task begins a turn, and the failure that was met if there
was one: the subscription is not heard, or it goes wrong at the frame that has arrived. -/
inductive Breakdown (d : Delivery) : Happening → Option Failure → Prop
  | launch {endpoint : Option Endpoint} {met : Failure} (created : d.handle.task = .created)
      (subscribes : d.handle.operation.kind = .subscription)
      (fails : Request.Unconnected ⟨d.handle.operation, d.handle.values, endpoint⟩ d.net met) :
      Breakdown d (.launch (.ok endpoint)) (some met)
  | resume {stage : Stage} {i : Nat} {frame : Frame} {net : Network} {origin : Option Failure}
      (follows : d.handle.task = .streaming stage i) (taken : d.net.takeFrame i = some (frame, net))
      (lossy : (net.socket i).IsLossy)
      (breaks : (d.handle.subscription stage (net.socket i)).BreaksAt frame origin) :
      Breakdown d .resume origin

/-- An execution whose task has still to perform some effects before it ends by a failure. -/
structure IsFailing (e : Failure) (d : Delivery) : Prop where
  held : d.handle.isReleased = false
  turn : ∃ effects, d.turn = some ⟨effects, .finished (some e)⟩ ∧
    ∀ effect ∈ effects, effect.event? = none
  uninterrupted : e.kind.isInterrupt = false

/-- An execution that has ended by a failure. -/
structure HasFailed (e : Failure) (d : Delivery) : Prop where
  state : d.handle.state = .failed
  error : d.handle.error = some (.ofFailure e)
  turn : d.turn = none
  idle : d.handle.task.isActive = false

theorem error_dispose (h : Handle) (net : Network) : (h.dispose net).1.error = h.error := by
  unfold Handle.dispose
  split
  · rfl
  · split <;> rfl

/-- An execution that has failed stays as it is, and nothing is put into its queue any more. -/
theorem HasFailed.next (failed : d.HasFailed e) (happening : Happening) :
    (d.next happening).HasFailed e ∧ d.enqueued happening = [] := by
  by_cases performs : happening = .perform
  · rw [performs, next_idle failed.turn]
    exact ⟨failed, enqueued_idle failed.turn⟩
  refine ⟨?_, enqueued_apart performs⟩
  by_cases disposes : happening = .dispose
  · subst disposes
    have state : (d.next .dispose).handle.state =
        if d.handle.isReleased || d.handle.state.isTerminal then d.handle.state else .disposed :=
      Handle.state_dispose ..
    refine ⟨?_, (error_dispose ..).trans failed.error, failed.turn,
      Handle.isActive_dispose failed.idle _⟩
    simp [state, failed.state, ExecutionState.isTerminal]
  · obtain ⟨⟨queue, handle, _⟩, _, _, turn⟩ := next_apart (d := d) performs disposes
    refine ⟨?_, ?_, ?_, ?_⟩
    · exact (congrArg Handle.state handle).trans failed.state
    · exact (congrArg Handle.error handle).trans failed.error
    · rcases turn with same | ⟨_, active, _⟩
      · exact same.trans failed.turn
      · rw [failed.idle] at active
        cases active
    · exact (congrArg (·.task.isActive) handle).trans failed.idle

theorem HasFailed.run (failed : d.HasFailed e) (happenings : List Happening) :
    (d.run happenings).HasFailed e ∧ d.allEnqueued happenings = [] := by
  induction happenings generalizing d with
  | nil => exact ⟨failed, rfl⟩
  | cons happening rest ih =>
    obtain ⟨stays, nothing⟩ := failed.next happening
    obtain ⟨ends, silent⟩ := ih stays
    exact ⟨ends, by rw [allEnqueued, nothing, silent]; rfl⟩

/-- An execution that is failing comes closer to its end with each effect, and keeps still with all
else unless it is disposed. -/
theorem IsFailing.next (failing : d.IsFailing e) {happening : Happening}
    (kept : happening ≠ .dispose) :
    (d.next happening).IsFailing e ∧ d.enqueued happening = [] ∨
      (d.next happening).HasFailed e ∧ d.enqueued happening = [.ofFailure e] := by
  obtain ⟨held, ⟨effects, turn, silent⟩, uninterrupted⟩ := failing
  by_cases performs : happening = .perform
  · subst performs
    cases effects with
    | cons effect rest =>
      have quiet := silent effect (List.mem_cons_self ..)
      refine .inl ⟨⟨?_, ⟨rest, by rw [next_effect turn],
        fun other member => silent other (List.mem_cons_of_mem _ member)⟩, uninterrupted⟩, ?_⟩
      · rw [next_effect turn]
        exact (Handle.isReleased_perform d.handle effect).trans held
      · rw [enqueued_perform turn, quiet]
        simp
    | nil =>
      have raised : (Ending.finished (some e)).raised? = some e := by
        simp [Ending.raised?, uninterrupted]
      refine .inr ⟨?_, by rw [enqueued_conclude turn, held, raised]; rfl⟩
      have ended : d.next .perform = { d with
          handle := { d.handle.fail e with task := .ended }
          turn := none
          raised := some e } := by
        simp [next_ending turn, raised, Handle.conclude, Handle.finish, uninterrupted]
      rw [ended]
      exact ⟨by simp [Handle.fail, held], by simp [Handle.fail, held], rfl, rfl⟩
  · obtain ⟨⟨queue, handle, _⟩, _, _, same⟩ := next_apart (d := d) performs kept
    refine .inl ⟨⟨(congrArg Handle.isReleased handle).trans held, ⟨effects, ?_, silent⟩,
      uninterrupted⟩, enqueued_apart performs⟩
    rcases same with same | ⟨noTurn, _⟩
    · exact same.trans turn
    · rw [turn] at noTurn
      cases noTurn

/-- By induction over what happens until the turn comes to its end, one event is put into the queue,
and it is the one of the failure. -/
theorem IsFailing.run (failing : d.IsFailing e) {between : List Happening}
    (kept : ∀ happening ∈ between, happening ≠ .dispose) (comes : (d.run between).turn = none) :
    (d.run between).HasFailed e ∧ d.allEnqueued between = [.ofFailure e] := by
  induction between generalizing d with
  | nil =>
    obtain ⟨effects, turn, _⟩ := failing.turn
    have noTurn : d.turn = none := comes
    rw [turn] at noTurn
    cases noTurn
  | cons happening rest ih =>
    have later : ∀ other ∈ rest, other ≠ .dispose :=
      fun other member => kept other (List.mem_cons_of_mem _ member)
    rcases failing.next (kept happening (List.mem_cons_self ..)) with
      ⟨still, nothing⟩ | ⟨failed, news⟩
    · obtain ⟨ends, news⟩ := ih still later comes
      exact ⟨ends, by rw [allEnqueued, nothing, news]; rfl⟩
    · obtain ⟨ends, nothing⟩ := failed.run rest
      exact ⟨ends, by rw [allEnqueued, nothing, news]; rfl⟩

/-- Performing what is left of the turn brings it to its end. -/
theorem IsFailing.exists_performed (failing : d.IsFailing e) :
    ∃ n, (d.run (List.replicate n .perform)).turn = none := by
  obtain ⟨effects, turn, -⟩ := failing.turn
  refine ⟨effects.length + 1, ?_⟩
  clear failing
  induction effects generalizing d with
  | nil => simp [Delivery.run, next_ending turn]
  | cons effect rest ih =>
    have later := ih (d := d.next .perform) (by rw [next_effect turn])
    rw [List.length_cons, List.replicate_succ]
    exact later

theorem subscribe_of_unconnected {h : Handle} {net : Network} {met : Failure}
    (fails : h.request.Unconnected net met) :
    ∃ e, e.Surfaces (some met) ∧ (h.subscribe net).1 = .failed e := by
  obtain ⟨e, surfaces, ⟨later, refused⟩ | ⟨i, later, left, connects, ended⟩⟩ := fails.cases h.id
  · exact ⟨e, surfaces, by rw [Handle.subscribe, refused]⟩
  · refine ⟨e, surfaces, ?_⟩
    rw [Handle.subscribe, connects]
    dsimp only
    rw [ended]
    rfl

/-- The turn at whose beginning an execution breaks down ends it by a failure. -/
theorem Breakdown.isFailing {happening : Happening} {origin : Option Failure}
    (breaks : d.Breakdown happening origin) (waits : d.turn = none)
    (held : d.handle.isReleased = false) :
    ∃ e, e.Surfaces origin ∧ (d.next happening).IsFailing e := by
  cases breaks with
  | @launch endpoint met created subscribes fails =>
    obtain ⟨e, surfaces, turn⟩ :=
      subscribe_of_unconnected (h := { d.handle with endpoint }) fails
    have begins : (d.next (.launch (.ok endpoint))).handle = d.handle ∧
        (d.next (.launch (.ok endpoint))).turn = some ⟨[.connecting endpoint], .finished (some e)⟩ := by
      simp only [Delivery.next]
      split
      · refine ⟨rfl, ?_⟩
        simp only [Handle.firstTurn, subscribes, if_true, turn]
        rfl
      · rename_i apart
        exact absurd created (apart waits)
    have lost : ∀ other ∈ some met, other.kind.isConnection = true := by
      intro other member
      cases member
      exact fails.isConnection
    refine ⟨e, surfaces, (congrArg Handle.isReleased begins.1).trans held,
      ⟨[.connecting endpoint], begins.2, ?_⟩, surfaces.isInterrupt_eq lost⟩
    simp [Effect.event?]
  | @resume stage i frame net _ follows taken lossy breaks =>
    obtain ⟨e, socket, ended, surfaces⟩ := Subscription.receive_of_breaksAt lossy breaks
    have next : d.handle.nextTurn? d.net =
        some (⟨[], .finished (some e)⟩, net.putSocket i socket) := by
      simp [Handle.nextTurn?, follows, taken, ended, Handle.progress]
    refine ⟨e, surfaces, ?_, ⟨[], ?_, by simp⟩, surfaces.isInterrupt_eq breaks.isConnection⟩
    · simpa [Delivery.next, waits, next] using held
    · simp [Delivery.next, waits, next]

end Delivery

/-- A subscription that breaks down ends by one failure. It is one of the transport exactly if there
was no other failure or the network client reported that one, and else it is that one. The stream
ends by it. An execution that is not disposed before the turn comes to its end has failed by it then
and for good, and its event is the only one that is still put into the queue. -/
theorem breakdown_surfaces (r : Request) (net : Network) (id : String) (limit : Option Nat)
    (frames : List Frame) (d : Delivery) (happening : Happening) (origin : Option Failure) :
    (r.Breakdown net id limit frames origin →
      ∃ e, e.Surfaces origin ∧ r.streamFailure net id limit frames = some e) ∧
    (d.turn = none → d.handle.isReleased = false → d.Breakdown happening origin →
      ∃ e, e.Surfaces origin ∧
        (∃ n, ((d.next happening).run (List.replicate n .perform)).turn = none) ∧
        ∀ between later, (∀ other ∈ between, other ≠ .dispose) →
          ((d.next happening).run between).turn = none →
          (d.run (happening :: between ++ later)).HasFailed e ∧
            d.allEnqueued (happening :: between ++ later) = [.ofFailure e]) := by
  refine ⟨fun breaks => ?_, fun waits held breaks => ?_⟩
  · obtain ⟨e, fails, surfaces⟩ := breaks.streamFailure
    exact ⟨e, surfaces, fails⟩
  · obtain ⟨e, surfaces, failing⟩ := breaks.isFailing waits held
    have silent : d.enqueued happening = [] := by
      cases breaks <;> exact Delivery.enqueued_apart (by simp)
    refine ⟨e, surfaces, failing.exists_performed, fun between later kept comes => ?_⟩
    obtain ⟨failed, news⟩ := failing.run kept comes
    obtain ⟨ends, nothing⟩ := failed.run later
    refine ⟨?_, ?_⟩
    · rw [← Delivery.run_append] at ends
      exact ends
    · rw [List.cons_append, Delivery.allEnqueued, silent, Delivery.allEnqueued_append, news, nothing]
      rfl

/-- A subscription at a server. -/
def subscribing : Request :=
  ⟨{ (default : Operation) with kind := .subscription }, [],
    some { (default : Endpoint) with subscriptionUrl := some "ws://localhost" }⟩

def accepting (fault : Option (Nat × Failure)) : Network :=
  { (default : Network) with lastConnection := .accepted { (default : Socket) with fault } }

/-- The server accepts and then the connection fails; no message can be sent behind the start. And
another connection is refused. -/
theorem breakdown_surfaces_lost :
    let reset : Failure := { kind := .connectionReset, message := "gone" }
    let refused : Failure := { kind := .clientConnection, message := "refused" }
    let first : Delivery := .start "1" subscribing.operation []
      { (default : Network) with lastConnection := .refused refused }
    (∃ e, e.Surfaces none ∧ subscribing.streamFailure (accepting (some (2, reset))) "1" none
      [.text "\x7b\"type\":\"connection_ack\"\x7d", .error (some "boom")] = some e) ∧
    ∃ e, e.Surfaces (some refused) ∧
      (first.run [.launch (.ok subscribing.endpoint), .perform, .perform, .dispose]).HasFailed e := by
  intro reset refused first
  refine ⟨?_, ?_⟩
  · refine (breakdown_surfaces _ _ _ _ _ first .perform none).1 ?_
    show Request.Breakdown _ _ _ _ ([_] ++ _ :: []) _
    exact .reached [] rfl (by
      intro count e isFault
      cases isFault
      rfl) rfl (Subscription.reached_acknowledged rfl (by decide +kernel) rfl none)
      (.heard (by simp) rfl)
  · obtain ⟨e, surfaces, _, settles⟩ := (breakdown_surfaces subscribing default "1" none [] first
      (.launch (.ok subscribing.endpoint)) (some refused)).2 rfl rfl
      (.launch rfl rfl (.refused rfl rfl rfl rfl))
    exact ⟨e, surfaces, (settles [.perform, .perform] [.dispose] (by simp) rfl).1⟩

/-- The reset of a connection over which the greeting is sent is no failure of the transport, neither
for the stream nor for an execution. -/
theorem breakdown_reset_escapes :
    let reset : Failure := { kind := .connectionReset, message := "gone" }
    let first : Delivery := .start "1" subscribing.operation [] (accepting (some (0, reset)))
    let last := first.run [.launch (.ok subscribing.endpoint), .perform, .perform]
    subscribing.Breakdown (accepting (some (0, reset))) "1" none [] (some reset) ∧
      subscribing.streamFailure (accepting (some (0, reset))) "1" none [] = some reset ∧
      reset.kind ≠ .transport ∧
      last.handle.state = .failed ∧
      last.handle.error.map (·.kind) = some "ConnectionResetError" ∧
      last.handle.queue.reduceOption.map (·.isFinal) = [true] := by
  intro reset first last
  exact ⟨.unconnected [] (.ungreeted rfl rfl rfl), rfl, by decide, rfl, rfl, rfl⟩

end InlineQuery
