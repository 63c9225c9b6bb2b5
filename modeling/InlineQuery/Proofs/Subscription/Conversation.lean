import InlineQuery.Proofs.Subscription.Receive
import InlineQuery.Proofs.Subscription.Socket

namespace InlineQuery
namespace Subscription

variable {s : Subscription} {frame : Frame}

/-- The frames that a subscription receives of those to come before it is over. -/
def received (limit : Option Nat) (s : Subscription) : List Frame → List Frame
  | [] => []
  | frame :: rest =>
    frame :: match s.receive frame with
      | .waiting s | .opened s => s.received limit rest
      | .event e s =>
        if e.isFinal || limit == some 1 then [] else s.received (limit.map (· - 1)) rest
      | .ended .. => []

theorem received_isPrefix (limit : Option Nat) (s : Subscription) (frames : List Frame) :
    s.received limit frames <+: frames := by
  induction frames generalizing limit s with
  | nil => exact List.prefix_refl []
  | cons frame rest ih =>
    rw [received, List.prefix_cons_inj]
    split
    · exact ih ..
    · exact ih ..
    · split
      · exact List.nil_prefix
      · exact ih ..
    · exact List.nil_prefix

/-- Whether a greeting is accepted before it is refused. -/
def isAcknowledged (heard : List Frame) : Bool :=
  (heard.takeWhile fun frame => !frame.refuses).any Frame.acknowledges

/-- Whether the server ends a subscription behind the first acknowledgement. -/
def isEnded (id : String) (heard : List Frame) : Bool :=
  (heard.dropWhile fun frame => !frame.acknowledges).tail.any (Frame.ends id)

/-- What is sent behind the greeting while certain frames are received: the start if the greeting
was accepted, a stop if the subscription was started and still runs, and the farewell. Nothing is
sent to take leave when the connection is gone. -/
def sequel (id : String) (body : Datum) (heard : List Frame) : List Message :=
  (if isAcknowledged heard then [.start id body] else []) ++
    Socket.farewell (heard.any Frame.isGone)
      (if isAcknowledged heard && !isEnded id heard then some id else none)

theorem sequel_refused (refuses : frame.refuses = true) (id : String) (body : Datum) :
    sequel id body [frame] = Socket.farewell frame.isGone none := by
  simp [sequel, isAcknowledged, refuses]

theorem sequel_passed (refuses : frame.refuses = false) (acknowledges : frame.acknowledges = false)
    (kept : frame.isGone = false) (id : String) (body : Datum) (rest : List Frame) :
    sequel id body (frame :: rest) = sequel id body rest := by
  simp [sequel, isAcknowledged, isEnded, refuses, acknowledges, kept]

theorem sequel_acknowledged (refuses : frame.refuses = false)
    (acknowledges : frame.acknowledges = true) (kept : frame.isGone = false) (id : String)
    (body : Datum) (rest : List Frame) :
    sequel id body (frame :: rest) = .start id body :: Socket.farewell (rest.any Frame.isGone)
      (if rest.any (Frame.ends id) then none else some id) := by
  have accepted : isAcknowledged (frame :: rest) = true := by
    simp [isAcknowledged, refuses, acknowledges]
  have ended : isEnded id (frame :: rest) = rest.any (Frame.ends id) := by
    simp [isEnded, acknowledges]
  rw [sequel, accepted, ended, List.any_cons, kept]
  cases rest.any (Frame.ends id) <;> rfl

variable {fault : Option (Nat × Failure)} {sent : List Message}

/-- Taking leave behind a frame sends the farewell that is due if the connection is not gone. -/
theorem leave_after (known : s.socket.HasSent fault sent) (frame : Frame) (isRunning : Bool) :
    ((s.after frame).leave isRunning).1.HasLeft fault
      (sent ++ Socket.farewell frame.isGone (if isRunning then some s.id else none)) := by
  cases gone : frame.isGone with
  | false =>
    rw [after_eq gone]
    exact known.leave _
  | true =>
    rw [after, gone, if_pos rfl]
    exact known.leave_gone _

theorem ended_hasLeft (known : s.socket.HasSent fault sent) :
    s.ended.socket.HasLeft fault
      (sent ++ Socket.farewell false (if s.stage = .started then some s.id else none)) := by
  simpa [ended, cancel, leave] using known.leave (if s.stage = .started then some s.id else none)

/-- A started subscription is told to stop at its end, whatever brings that about, unless the server
has ended it. -/
theorem follow_started (known : s.socket.HasSent fault sent) (stage : s.stage = .started)
    (limit : Option Nat) (frames : List Frame) :
    (s.follow limit frames).socket.HasLeft fault
      (sent ++ Socket.farewell ((s.received limit frames).any Frame.isGone)
        (if (s.received limit frames).any (Frame.ends s.id) then none else some s.id)) := by
  induction frames generalizing limit with
  -- It is left while it waits for a frame.
  | nil => simpa [follow, received, stage] using ended_hasLeft known
  | cons frame rest ih =>
    rcases receive_started stage frame with
      ⟨ends, completed | ⟨e, failed⟩⟩ | ⟨continues, e, failed⟩ |
        ⟨continues, kept, waiting | ⟨e, more, yielded⟩⟩
    · have left := leave_after known frame false
      simpa [follow, received, completed, complete, ResultEvent.completion, ended, cancel, leave,
        SubscriptionRun.addEvent, ends] using left
    · have left := leave_after known frame false
      simpa [follow, received, failed, fail, ends] using left
    · have left := leave_after known frame true
      simpa [follow, received, failed, fail, continues] using left
    · simpa [follow, received, waiting, continues, kept] using ih limit
    · by_cases stops : (limit == some 1) = true
      · have left := ended_hasLeft known
        simpa [follow, received, yielded, more, stops, continues, kept, stage,
          SubscriptionRun.addEvent] using left
      · have left := ih (limit.map (· - 1))
        simpa [follow, received, yielded, more, stops, continues, kept,
          SubscriptionRun.addEvent] using left

/-- Starting sends the start and opens the subscription, or it fails and nothing more is sent. -/
theorem start_cases (known : s.socket.HasSent fault sent)
    (writable : (Message.start s.id s.body).IsWritable) :
    (∃ next, s.start = .opened next ∧ next.id = s.id ∧ next.stage = .started ∧
      next.socket.HasSent fault (sent ++ [.start s.id s.body])) ∨
    ∃ e socket, s.start = .ended (some e) socket ∧ ∀ later, socket.HasLeft fault (sent ++ later) := by
  rcases known.send_cases writable with ⟨socket, isSent, further⟩ | ⟨e, fails, _, prefixOnly⟩
  · left
    exact ⟨{ s with socket, stage := .started }, by simp [start, isSent], rfl, rfl, further⟩
  · right
    refine ⟨_, (s.leave false).1, by simp [start, fails, fail]; rfl, ?_⟩
    intro later
    have left := known.leave none
    rw [Socket.HasLeft, prefixOnly] at left
    rw [Socket.HasLeft, prefixOnly]
    exact left

/-- Before the acknowledgement, what follows on the greeting is decided by the frames received. -/
theorem follow_greeted (known : s.socket.HasSent fault sent) (stage : s.stage = .greeted)
    (limit : Option Nat) (frames : List Frame)
    (writable : ∀ m ∈ sequel s.id s.body (s.received limit frames), m.IsWritable) :
    (s.follow limit frames).socket.HasLeft fault
      (sent ++ sequel s.id s.body (s.received limit frames)) := by
  induction frames generalizing limit with
  | nil => simpa [follow, received, stage, sequel, isAcknowledged] using ended_hasLeft known
  | cons frame rest ih =>
    rcases receive_greeted stage frame with ⟨refuses, denies, e, failed⟩ | ⟨accepts, kept, step⟩
    · have left := leave_after known frame false
      simpa [follow, received, failed, fail, sequel_refused refuses] using left
    · cases acknowledges : frame.acknowledges with
      | false =>
        have passed : s.receive frame = .waiting s := by simpa [acknowledges] using step
        simp only [follow, received, passed,
          sequel_passed accepts acknowledges kept] at writable ⊢
        exact ih limit writable
      | true =>
        have starts : s.receive frame = s.start := by simpa [acknowledges] using step
        have writes : (Message.start s.id s.body).IsWritable := by
          apply writable
          rw [received, sequel_acknowledged accepts acknowledges kept]
          exact List.mem_cons_self ..
        rcases start_cases known writes with
          ⟨next, opened, sameId, started, further⟩ | ⟨e, socket, ended, left⟩
        · have left := follow_started further started limit rest
          rw [sameId, List.append_assoc, List.singleton_append] at left
          simpa only [follow, received, starts, opened, SubscriptionRun.addOpening,
            sequel_acknowledged accepts acknowledges kept] using left
        · simpa only [follow, received, starts, ended] using left _

/-- The frames that are received on a new connection: none if greeting the server fails. -/
def heard (request : Request) (id : String) (limit : Option Nat) (socket : Socket)
    (frames : List Frame) : List Frame :=
  match greet request id socket with
  | .waiting s | .opened s | .event _ s => s.received limit frames
  | .ended .. => []

/-- All that is sent on a connection where certain frames are received. -/
def conversation (request : Request) (id : String) (heard : List Frame) : List Message :=
  .greeting ((request.endpoint.map (·.connectionParams)).getD []) :: sequel id request.body heard

/-- A subscription over a new connection sends the conversation that the frames received call for,
as far as sending does not fail, and closes the connection once, behind all it sends. The frames may
stop coming anywhere, and the subscription may be left at any of its events. -/
theorem runOver_conversation (request : Request) (id : String) (limit : Option Nat)
    (socket : Socket) (frames : List Frame) (fresh : socket.actions = [])
    (isOpen : socket.isClosed = false)
    (loss : ∀ count e, socket.fault = some (count, e) → Socket.isLoss e = true)
    (writable : ∀ m ∈ conversation request id (heard request id limit socket frames),
      m.IsWritable) :
    heard request id limit socket frames <+: frames ∧
    (runOver request id limit socket frames).socket.actions =
      (Socket.delivered socket.fault
        (conversation request id (heard request id limit socket frames))).map .sent ++
          [.closed] := by
  have known : socket.HasSent socket.fault [] :=
    ⟨fresh, isOpen, rfl, loss, fun count e _ => Nat.zero_le count⟩
  have greets := writable _ (List.mem_cons_self ..)
  rcases known.send_cases greets with ⟨next, isSent, further⟩ | ⟨e, fails, _, prefixOnly⟩
  · have greeted : greet request id socket = .waiting ⟨id, request.body, .greeted, next⟩ := by
      simp [greet, isSent]
    simp only [heard, runOver, greeted] at writable ⊢
    refine ⟨received_isPrefix .., ?_⟩
    exact follow_greeted further rfl limit frames fun m member =>
      writable m (List.mem_cons_of_mem _ member)
  · have left := known.leave none
    have ended : greet request id socket =
        .ended (some (((socket.leave none).2).getD (explained e))) (socket.leave none).1 := by
      simp [greet, fails, fail, leave]
    simp only [heard, runOver, ended]
    rw [Socket.HasLeft, prefixOnly] at left
    refine ⟨List.nil_prefix, left.trans ?_⟩
    rw [← List.nil_append (conversation request id []), prefixOnly]

/-- A server that accepts, keeps alive and sends one result before it completes. -/
def oneResult : List Frame := [
  .text "\x7b\"type\":\"connection_ack\"\x7d",
  .text "\x7b\"type\":\"ka\"\x7d",
  .text "\x7b\"type\":\"data\",\"payload\":\x7b\"data\":1\x7d\x7d",
  .text "\x7b\"type\":\"complete\"\x7d"]

/-- A connection that is lost behind three messages. -/
def lostSocket : Socket :=
  ⟨[], some (3, { kind := .connectionReset, message := "Cannot write" }), [], false⟩

/-- The subscription is left at the result, and the connection is lost behind the stop. -/
theorem runOver_conversation_lost :
    (runOver default "1" (some 1) lostSocket oneResult).socket.actions =
      [.sent (.greeting []), .sent (.start "1" (default : Request).body), .sent (.stop "1"),
        .closed] := by
  have whole : heard default "1" (some 1) lostSocket oneResult = oneResult.take 3 := by
    decide +kernel
  have accepted : isAcknowledged (oneResult.take 3) = true := by decide +kernel
  have running : isEnded "1" (oneResult.take 3) = false := by decide +kernel
  have kept : (oneResult.take 3).any Frame.isGone = false := by decide +kernel
  have said : conversation default "1" (heard default "1" (some 1) lostSocket oneResult) =
      [.greeting [], .start "1" (default : Request).body, .stop "1", .terminate] := by
    rw [whole, conversation, sequel, accepted, running, kept]
    rfl
  have loss : ∀ count e, lostSocket.fault = some (count, e) → Socket.isLoss e = true := by
    simp [lostSocket, Socket.isLoss]
  have writable : ∀ m ∈ conversation default "1" (heard default "1" (some 1) lostSocket oneResult),
      m.IsWritable := by
    simp only [said, List.forall_mem_cons]
    exact ⟨rfl, rfl, rfl, rfl, by simp⟩
  have held :=
    (runOver_conversation default "1" (some 1) lostSocket oneResult rfl rfl loss writable).2
  rw [said] at held
  exact held

end Subscription
end InlineQuery
