import InlineQuery.Proofs.Data.Except
import InlineQuery.Proofs.Subscription.Conversation

/-!
How a subscription breaks down, and by what failure it ends then. The network client reports some
failures by kinds of its own, and these are explained as failures of the transport. A connection that
is reset is no such kind, and its failure is passed on as it is.
-/

namespace InlineQuery

/-- The kinds by which the loss of a connection is reported. -/
def FailureKind.isConnection (kind : FailureKind) : Bool := kind.isClient || kind == .connectionReset

/-- A failure as it comes of another one that was met, if any. It is one of the transport exactly if
the network client reported what was met. -/
structure Failure.Surfaces (origin : Option Failure) (e : Failure) : Prop where
  transport_iff : e.kind = .transport ↔ ∀ met ∈ origin, met.kind.isClient = true
  unexplained : ∀ met ∈ origin, met.kind.isClient = false → e = met

namespace Failure

variable {e met : Failure} {origin : Option Failure}

theorem isLoss_of_isConnection (lost : e.kind.isConnection = true) : Socket.isLoss e = true := by
  rw [Socket.isLoss, Bool.or_eq_true]
  exact .inl lost

theorem surfaces_transport (message : String) : Surfaces none (.transport message) :=
  ⟨⟨fun _ _ member => absurd member (by simp), fun _ => rfl⟩,
    fun _ member => absurd member (by simp)⟩

/-- A failure that is explained just in case the network client reports it. -/
theorem surfaces_explained (lost : met.kind.isConnection = true) (message : String) :
    Surfaces (some met) (if met.kind.isClient then .transport message else met) := by
  cases client : met.kind.isClient with
  | true =>
    refine ⟨⟨fun _ other same => ?_, fun _ => rfl⟩, fun other same apart => ?_⟩
    · cases same
      exact client
    · cases same
      rw [client] at apart
      cases apart
  | false =>
    refine ⟨⟨fun transport => ?_, fun known => ?_⟩, fun other same _ => ?_⟩
    · have kind : met.kind = .transport := by simpa using transport
      rw [kind] at lost
      cases lost
    · rw [known met rfl] at client
      cases client
    · cases same
      rfl

/-- The user's request to stop does not come of the loss of a connection. -/
theorem Surfaces.isInterrupt_eq (surfaces : e.Surfaces origin)
    (lost : ∀ met ∈ origin, met.kind.isConnection = true) : e.kind.isInterrupt = false := by
  cases transport : decide (e.kind = .transport) with
  | true =>
    rw [of_decide_eq_true transport]
    rfl
  | false =>
    have apart := mt surfaces.transport_iff.mpr (of_decide_eq_false transport)
    cases origin with
    | none => exact absurd (fun met member => absurd member (by simp)) apart
    | some met =>
      have reset : met.kind.isClient = false := by simpa using apart
      have kind : met.kind = .connectionReset := by
        simpa [FailureKind.isConnection, reset] using lost met rfl
      rw [surfaces.unexplained met rfl reset, kind]
      rfl

end Failure

namespace Socket

variable {s : Socket} {message : Message} {e : Failure}

/-- Where sending fails, it is because the connection is lost. -/
def IsLossy (s : Socket) : Prop := ∀ limit e, s.fault = some (limit, e) → e.kind.isConnection = true

theorem fault_send {next : Socket} (isSent : s.send message = .ok next) : next.fault = s.fault := by
  simp only [send, bind, Except.bind, throw, throwThe, MonadExceptOf.throw, pure,
    Except.pure] at isSent
  split at isSent
  · cases isSent
  · split at isSent
    · cases isSent
    · cases isSent
      rfl

/-- Sending fails by the loss of a connection only if it always does. -/
theorem isLossy_of_send (fails : s.send message = .error e) (lost : e.kind.isConnection = true) :
    s.IsLossy := by
  rcases bind_eq_error fails with unwritten | ⟨_, -, unsent⟩
  · rw [Json.sent] at unwritten
    cases written : Json.compact message.datum with
    | error fault =>
      rw [written] at unwritten
      cases unwritten
      cases fault <;> cases lost
    | ok text =>
      rw [written] at unwritten
      cases unwritten
  · split at unsent
    · rename_i met obstacle
      cases unsent
      unfold obstacle? at obstacle
      split at obstacle
      · cases obstacle
        cases lost
      · split at obstacle
        · rename_i limit other isFault
          split at obstacle
          · cases obstacle
            intro count again same
            rw [isFault] at same
            cases same
            exact lost
          · cases obstacle
        · cases obstacle
    · cases unsent

theorem isLoss_of_send (lossy : s.IsLossy) (writable : message.IsWritable)
    (fails : s.send message = .error e) : isLoss e = true := by
  rw [send_writable writable] at fails
  unfold obstacle? at fails
  split at fails
  · rename_i met obstacle
    cases fails
    split at obstacle
    · cases obstacle
      rfl
    · split at obstacle
      · rename_i limit met isFault
        split at obstacle
        · cases obstacle
          exact Failure.isLoss_of_isConnection (lossy limit e isFault)
        · cases obstacle
      · cases obstacle
  · cases fails

theorem isLoss_of_sendAll {messages : List Message} (lossy : s.IsLossy)
    (writable : ∀ m ∈ messages, m.IsWritable) (fails : (s.sendAll messages).2 = some e) :
    isLoss e = true := by
  induction messages generalizing s with
  | nil => cases fails
  | cons message rest ih =>
    cases send : s.send message with
    | error met =>
      rw [sendAll, send] at fails
      cases fails
      exact isLoss_of_send lossy (writable message (List.mem_cons_self ..)) send
    | ok next =>
      rw [sendAll, send] at fails
      refine ih (fun limit met isFault => lossy limit met ?_)
        (fun m member => writable m (List.mem_cons_of_mem _ member)) fails
      exact (fault_send send).symm.trans isFault

/-- The loss of a connection does not keep it from being left. -/
theorem leave_of_isLossy (lossy : s.IsLossy) (subscription : Option String) :
    (s.leave subscription).2 = none := by
  unfold leave
  split
  · rfl
  · split
    · rfl
    · rename_i next met fails
      have writable : ∀ m ∈ farewell false subscription, m.IsWritable :=
        fun m member => mem_farewell_isWritable member
      have loss : isLoss met = true := isLoss_of_sendAll lossy writable (congrArg Prod.snd fails)
      rw [if_pos loss]

end Socket

/-- Whether a frame breaks a subscription that has not ended: an error, a closing that is too early
or has an unusual code, or a text that is no object. A text with an integer of too many digits is
none of these. -/
def Frame.breaks (isStarted : Bool) : Frame → Bool
  | .error _ _ => true
  | .closing code _ => !isStarted || !Signal.isUsual code
  | .text content =>
    match Json.read content.toList with
    | .ok (.map _) | .error (.huge _) => false
    | .ok _ | .error (.malformed ..) => true
  | .failure _ _ | .other => false

/-- The subscription that goes on behind a step. -/
def Progress.next? : Progress → Option Subscription
  | .waiting s | .opened s | .event _ s => some s
  | .ended .. => none

namespace Subscription

variable {s : Subscription} {frame : Frame} {origin : Option Failure}

/-- How a subscription that has not ended breaks down at a frame, and the failure that was met if
there was one: by the frame, or because the start that it allows cannot be sent. -/
inductive BreaksAt (s : Subscription) (frame : Frame) : Option Failure → Prop
  | heard (waits : s.stage ≠ .completed) (breaks : frame.breaks (s.stage == .started) = true) :
      BreaksAt s frame none
  | unsent {met : Failure} (waits : s.stage = .greeted) (acknowledges : frame.acknowledges = true)
      (fails : s.socket.send (.start s.id s.body) = .error met)
      (lost : met.kind.isConnection = true) : BreaksAt s frame (some met)

theorem BreaksAt.isConnection (breaks : s.BreaksAt frame origin) :
    ∀ met ∈ origin, met.kind.isConnection = true := by
  intro met member
  cases breaks with
  | heard => cases member
  | unsent _ _ _ lost =>
    cases member
    exact lost

theorem isLossy_after (lossy : s.socket.IsLossy) (frame : Frame) :
    (s.after frame).socket.IsLossy := by
  rw [after]
  split <;> exact lossy

/-- A failure ends a subscription even if the connection is lost. -/
theorem fail_of_isLossy (lossy : s.socket.IsLossy) (isRunning : Bool) (e : Failure) :
    ∃ socket, s.fail isRunning e = .ended (some (explained e)) socket := by
  have left : (s.leave isRunning).2 = none := Socket.leave_of_isLossy lossy _
  exact ⟨(s.leave isRunning).1, by simp [fail, left]⟩

/-- What is said of a frame that breaks a subscription. -/
theorem ofFrame_of_breaks {isStarted : Bool} (breaks : frame.breaks isStarted = true) :
    (∃ message, Signal.ofFrame frame = .error (.transport message)) ∨
      isStarted = false ∧ Signal.ofFrame frame = .ok .closed := by
  cases frame with
  | error text => exact .inl ⟨_, rfl⟩
  | failure | other => cases breaks
  | closing code gone =>
    rw [Frame.breaks, Bool.or_eq_true, Bool.not_eq_true', Bool.not_eq_true'] at breaks
    cases code with
    | none =>
      refine breaks.elim (fun early => .inr ⟨early, rfl⟩) fun unusual => ?_
      cases unusual
    | some n =>
      cases usual : Signal.isUsual (some n) with
      | false => exact .inl ⟨_, by simp only [Signal.ofFrame, usual, Bool.false_eq_true, if_false]; rfl⟩
      | true =>
        rw [usual] at breaks
        exact .inr ⟨breaks.resolve_right (by simp), by simp [Signal.ofFrame, usual]⟩
  | text content =>
    left
    cases read : Json.read content.toList with
    | error fault =>
      cases fault with
      | huge integer => simp [Frame.breaks, read] at breaks
      | malformed cause offset => exact ⟨_, by simp only [Signal.ofFrame, Signal.ofText, read]; rfl⟩
    | ok d =>
      cases d with
      | map entries => simp [Frame.breaks, read] at breaks
      | _ => exact ⟨_, by simp only [Signal.ofFrame, Signal.ofText, read]; rfl⟩

/-- A subscription that breaks down at a frame ends by a failure there. -/
theorem receive_of_breaksAt (lossy : s.socket.IsLossy) (breaks : s.BreaksAt frame origin) :
    ∃ e socket, s.receive frame = .ended (some e) socket ∧ e.Surfaces origin := by
  cases breaks with
  | heard waits breaks =>
    obtain ⟨message, isRunning, fails⟩ : ∃ message isRunning,
        s.receive frame = (s.after frame).fail isRunning (.transport message) := by
      cases stage : s.stage with
      | completed => exact absurd stage waits
      | greeted =>
        rcases ofFrame_of_breaks breaks with ⟨message, said⟩ | ⟨_, said⟩
        · exact ⟨message, false, by simp [receive, stage, said]⟩
        · exact ⟨"Websocket closed before connection_ack", false,
            by simp [receive, stage, said, receiveGreeted]⟩
      | started =>
        rcases ofFrame_of_breaks breaks with ⟨message, said⟩ | ⟨early, _⟩
        · exact ⟨message, true, by simp [receive, stage, said]⟩
        · rw [stage] at early
          cases early
    obtain ⟨socket, ended⟩ := fail_of_isLossy (isLossy_after lossy frame) isRunning
      (.transport message)
    exact ⟨_, socket, fails.trans ended, Failure.surfaces_transport message⟩
  | unsent waits acknowledges fails lost =>
    rename_i met
    obtain ⟨socket, ended⟩ := fail_of_isLossy lossy false met
    refine ⟨explained met, socket, ?_, Failure.surfaces_explained lost _⟩
    rw [receive_acknowledged waits acknowledges, start, fails]
    exact ended

/-- A greeting that cannot be sent ends the subscription by a failure. -/
theorem greet_of_unsent {request : Request} {socket : Socket} {met : Failure} (id : String)
    (fails : socket.send (.greeting ((request.endpoint.map (·.connectionParams)).getD [])) =
      .error met) (lost : met.kind.isConnection = true) :
    ∃ e left, greet request id socket = .ended (some e) left ∧ e.Surfaces (some met) := by
  obtain ⟨left, ended⟩ := fail_of_isLossy (s := ⟨id, request.body, .greeted, socket⟩)
    (Socket.isLossy_of_send fails lost) false met
  refine ⟨explained met, left, ?_, Failure.surfaces_explained lost _⟩
  simp only [greet, fails, ended]

theorem fault_after (s : Subscription) (frame : Frame) :
    (s.after frame).socket.fault = s.socket.fault := by
  rw [after]
  split <;> rfl

theorem fault_of_receive {next : Subscription} (goes : (s.receive frame).next? = some next) :
    next.socket.fault = s.socket.fault := by
  cases stage : s.stage with
  | completed => simp [receive, stage, Progress.next?] at goes
  | greeted =>
    rcases receive_greeted stage frame with ⟨_, _, e, failed⟩ | ⟨_, _, step⟩
    · simp [failed, fail, Progress.next?] at goes
    · rw [step] at goes
      split at goes
      · cases send : s.socket.send (.start s.id s.body) with
        | error e => simp [start, send, fail, Progress.next?] at goes
        | ok socket =>
          rw [start, send] at goes
          cases goes
          exact Socket.fault_send send
      · cases goes
        rfl
  | started =>
    rcases receive_started stage frame with ⟨_, completed | ⟨e, failed⟩⟩ | ⟨_, e, failed⟩ |
      ⟨_, _, waiting | ⟨e, _, yielded⟩⟩
    · rw [completed] at goes
      cases goes
      exact fault_after s frame
    · simp [failed, fail, Progress.next?] at goes
    · simp [failed, fail, Progress.next?] at goes
    · rw [waiting] at goes
      cases goes
      rfl
    · rw [yielded] at goes
      cases goes
      rfl

/-- The subscription that frames lead to, unless it ends before or is left at one of its events. -/
def reached (limit : Option Nat) (s : Subscription) : List Frame → Option Subscription
  | [] => some s
  | frame :: rest =>
    match s.receive frame with
    | .waiting next | .opened next => next.reached limit rest
    | .event e next =>
      if e.isFinal || limit == some 1 then none else next.reached (limit.map (· - 1)) rest
    | .ended .. => none

theorem reached_acknowledged {frame : Frame} {next : Subscription} (stage : s.stage = .greeted)
    (acknowledges : frame.acknowledges = true) (starts : s.start = .opened next)
    (limit : Option Nat) : s.reached limit [frame] = some next := by
  rw [reached, receive_acknowledged stage acknowledges, starts]
  rfl

/-- A subscription fails as the one does that the first of its frames lead to, over the others. -/
theorem reached_spec {next : Subscription} {limit : Option Nat} {before : List Frame}
    (leads : s.reached limit before = some next) (rest : List Frame) :
    next.socket.fault = s.socket.fault ∧
      ∃ left, (s.follow limit (before ++ rest)).failure = (next.follow left rest).failure := by
  induction before generalizing s limit with
  | nil =>
    cases leads
    exact ⟨rfl, limit, rfl⟩
  | cons frame before ih =>
    rw [reached] at leads
    rw [List.cons_append, follow]
    cases step : s.receive frame with
    | ended failure socket => simp [step] at leads
    | waiting s' =>
      obtain ⟨fault, same⟩ := ih (by simpa [step] using leads)
      exact ⟨fault.trans (fault_of_receive (by rw [step]; rfl)), same⟩
    | opened s' =>
      obtain ⟨fault, same⟩ := ih (by simpa [step] using leads)
      exact ⟨fault.trans (fault_of_receive (by rw [step]; rfl)), same⟩
    | event e s' =>
      cases stops : e.isFinal || limit == some 1 with
      | true => simp [step, stops] at leads
      | false =>
        obtain ⟨fault, same⟩ := ih (by simpa [step, stops] using leads)
        refine ⟨fault.trans (fault_of_receive (by rw [step]; rfl)), ?_⟩
        simp only [stops, Bool.false_eq_true, if_false]
        exact same

end Subscription

end InlineQuery
