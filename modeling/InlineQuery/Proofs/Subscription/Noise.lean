import InlineQuery.Proofs.Data.Digits
import InlineQuery.Proofs.Json.Accepting
import InlineQuery.Proofs.Subscription.Receive

/-!
Frames that mean nothing to a subscription. Whether a message means something depends on where it
stands: before the acknowledgement only the answers to the greeting do, and behind it only what the
server says about this subscription.
-/

namespace InlineQuery

/-- A frame carries a message: its text is read as an object of JSON. -/
def Frame.Carries (frame : Frame) (message : Datum) : Prop :=
  ∃ content entries, frame = .text content ∧ message = .map entries ∧
    Json.read content.toList = .ok message

/-- Frames that mean nothing where they stand, before or behind the acknowledgement: those without
text, messages that keep the connection alive, early messages that do not answer the greeting, and
later ones that are about another subscription or of a type that says nothing about one. -/
inductive Frame.IsNoise (id : String) : Bool → Frame → Prop
  | silent {isAccepted : Bool} : IsNoise id isAccepted .other
  | alive {isAccepted : Bool} {frame : Frame} {message : Datum} : frame.Carries message →
      Subscription.isType message "ka" = true → IsNoise id isAccepted frame
  | early {frame : Frame} {message : Datum} : frame.Carries message →
      Subscription.isType message "connection_ack" = false →
      Subscription.isType message "connection_error" = false → IsNoise id false frame
  | foreign {frame : Frame} {message : Datum} : frame.Carries message →
      Frame.concerns id message = false → IsNoise id true frame
  | unknown {frame : Frame} {message : Datum} : frame.Carries message →
      (∀ type ∈ ["data", "complete", "error", "connection_error"],
        Subscription.isType message type = false) → IsNoise id true frame

/-- The second list is the first one with noise in it. The greeting counts as accepted from the first
acknowledgement on. -/
inductive HasNoise (id : String) : Bool → List Frame → List Frame → Prop
  | nil {isAccepted : Bool} : HasNoise id isAccepted [] []
  | noise {isAccepted : Bool} {frame : Frame} {frames noisy : List Frame} :
      frame.IsNoise id isAccepted → HasNoise id isAccepted frames noisy →
      HasNoise id isAccepted frames (frame :: noisy)
  | frame {isAccepted : Bool} {frame : Frame} {frames noisy : List Frame} :
      HasNoise id (isAccepted || frame.acknowledges) frames noisy →
      HasNoise id isAccepted (frame :: frames) (frame :: noisy)

theorem Frame.Carries.ofFrame {frame : Frame} {message : Datum} (carries : frame.Carries message) :
    Signal.ofFrame frame = .ok (.message message) := by
  obtain ⟨content, entries, rfl, rfl, read⟩ := carries
  simp [Signal.ofFrame, Signal.ofText, read]

namespace Subscription

variable {s : Subscription} {frame : Frame} {frames noisy : List Frame}

theorem receive_silent (frame_eq : frame = .other) (going : s.stage ≠ .completed) :
    s.receive frame = .waiting s := by
  subst frame_eq
  unfold receive
  cases stage : s.stage with
  | completed => exact absurd stage going
  | greeted | started => rfl

/-- How a message is received that is not answered by closing the connection. -/
theorem receive_message {message : Datum} (carries : frame.Carries message) :
    (s.stage = .greeted → s.receive frame = s.receiveGreeted (.message message)) ∧
      (s.stage = .started → s.receive frame = s.receiveStarted (.message message)) := by
  have kept := Frame.isGone_of_message carries.ofFrame
  constructor <;> intro stage <;> simp [receive, stage, carries.ofFrame, after_eq kept]

/-- The stage of a subscription that is not over. -/
def stageOf (isAccepted : Bool) : Stage := if isAccepted then .started else .greeted

/-- A subscription passes over noise. -/
theorem receive_noise {isAccepted : Bool} (noise : frame.IsNoise s.id isAccepted)
    (stage : s.stage = stageOf isAccepted) : s.receive frame = .waiting s := by
  cases noise with
  | silent =>
    refine receive_silent rfl ?_
    rw [stage]
    cases isAccepted <;> simp [stageOf]
  | @alive _ _ message carries alive =>
    have types (other : String) : isType message other = ("ka" == other) := isType_unique alive
    cases isAccepted with
    | false =>
      rw [(receive_message carries).1 stage]
      simp [receiveGreeted, types]
    | true =>
      rw [(receive_message carries).2 stage]
      simp [receiveStarted, types]
  | early carries noAnswer noRefusal =>
    rw [(receive_message carries).1 stage]
    simp [receiveGreeted, noAnswer, noRefusal]
  | foreign carries other =>
    rw [(receive_message carries).2 stage]
    simp [receiveStarted, isForeign_eq, other]
  | unknown carries silent =>
    rw [(receive_message carries).2 stage]
    simp [receiveStarted, silent]

/-- Starting opens the subscription or ends it. -/
theorem start_opens_or_ends (s : Subscription) :
    (∃ socket, s.start = .opened { s with socket, stage := .started }) ∨
      ∃ failure socket, s.start = .ended failure socket := by
  unfold start
  split
  · exact .inl ⟨_, rfl⟩
  · exact .inr ⟨_, _, rfl⟩

/-- Noise is passed over wherever it stands, and every other frame is received as without it. -/
theorem follow_noise {id : String} {isAccepted : Bool}
    (inserted : HasNoise id isAccepted frames noisy) (name : s.id = id)
    (stage : s.stage = stageOf isAccepted) (limit : Option Nat) :
    s.follow limit noisy = s.follow limit frames := by
  induction inserted generalizing s limit with
  | nil => rfl
  | noise noise _ ih =>
    subst name
    rw [follow, receive_noise noise stage]
    exact ih rfl stage limit
  | @frame isAccepted frame frames noisy _ ih =>
    rw [follow, follow]
    cases isAccepted with
    | false =>
      rcases receive_greeted stage frame with ⟨_, _, e, failed⟩ | ⟨_, _, step⟩
      · rw [failed]
        rfl
      · rw [step]
        cases acknowledges : frame.acknowledges with
        | false =>
          have rest := ih name (by simpa [acknowledges] using stage) limit
          simpa using rest
        | true =>
          rcases start_opens_or_ends s with ⟨socket, opened⟩ | ⟨failure, socket, ended⟩
          · have rest := ih (s := { s with socket, stage := .started }) name
              (by simp [acknowledges, stageOf]) limit
            simp [opened, rest]
          · simp [ended]
    | true =>
      have further := ih name stage
      rcases receive_started stage frame with
        ⟨_, completed | ⟨e, failed⟩⟩ | ⟨_, e, failed⟩ | ⟨_, _, waiting | ⟨e, more, yielded⟩⟩
      · rw [completed]
        rfl
      · rw [failed]
        rfl
      · rw [failed]
        rfl
      · rw [waiting]
        exact further limit
      · rw [yielded]
        dsimp only
        rw [further]

theorem greet_cases (request : Request) (id : String) (socket : Socket) :
    (∃ s, greet request id socket = .waiting s ∧ s.id = id ∧ s.stage = .greeted) ∨
      ∃ failure closed, greet request id socket = .ended failure closed := by
  unfold greet
  dsimp only
  split
  · exact .inl ⟨_, rfl, rfl, rfl⟩
  · exact .inr ⟨_, _, rfl⟩

/-- A subscription over a new connection yields the same events, has the same outcome, and sends the
same messages when noise comes between the frames. -/
theorem runOver_noise (request : Request) (id : String) (limit : Option Nat) (socket : Socket)
    (inserted : HasNoise id false frames noisy) :
    runOver request id limit socket noisy = runOver request id limit socket frames := by
  unfold runOver
  rcases greet_cases request id socket with ⟨s, greeted, name, stage⟩ | ⟨failure, closed, ended⟩
  · rw [greeted]
    exact follow_noise inserted name stage limit
  · rw [ended]

/-- A result that comes too early, a message that keeps the connection alive, and one about another
subscription. -/
theorem runOver_noise_oneResult :
    let accepted : Frame := .text "\x7b\"type\":\"connection_ack\"\x7d"
    let completed : Frame := .text "\x7b\"type\":\"complete\"\x7d"
    let early : Frame := .text "\x7b\"type\":\"data\"\x7d"
    let alive : Frame := .text "\x7b\"type\":\"ka\"\x7d"
    let foreign : Frame := .text "\x7b\"type\":\"complete\",\"id\":\"2\"\x7d"
    runOver default "1" none default [early, accepted, alive, foreign, .other, completed] =
      runOver default "1" none default [accepted, completed] := by
  intro accepted completed early alive foreign
  have earlyRead : early.Carries (.object [("type", .text "data")]) :=
    ⟨_, _, rfl, rfl, Json.read_ofPlain [(⟨"type", by decide⟩, ⟨"data", by decide⟩)] (by decide)
      (by decide)⟩
  have aliveRead : alive.Carries (.object [("type", .text "ka")]) :=
    ⟨_, _, rfl, rfl, Json.read_ofPlain [(⟨"type", by decide⟩, ⟨"ka", by decide⟩)] (by decide)
      (by decide)⟩
  have foreignRead : foreign.Carries (.object [("type", .text "complete"), ("id", .text "2")]) :=
    ⟨_, _, rfl, rfl, Json.read_ofPlain [(⟨"type", by decide⟩, ⟨"complete", by decide⟩),
      (⟨"id", by decide⟩, ⟨"2", by decide⟩)] (by decide) (by decide)⟩
  have acknowledged : accepted.acknowledges = true := by decide +kernel
  apply runOver_noise default "1" none default
  refine .noise (.early earlyRead (by decide) (by decide)) (.frame ?_)
  rw [acknowledged]
  exact .noise (.alive aliveRead (by decide))
    (.noise (.foreign foreignRead (by decide)) (.noise .silent (.frame .nil)))

end Subscription

namespace Json

/-- An integer of too many digits is not read, whatever follows. -/
theorem readNumber_nines {n : Nat} (long : digitLimit < n + 1) (offset : Nat) (rest : List Char) :
    readNumber ⟨offset, '9' :: (List.replicate n '9' ++ ',' :: rest)⟩ = .error (.huge ⟨n + 1⟩) := by
  have whole : integerLength ('9' :: (List.replicate n '9' ++ ',' :: rest)) = n + 1 := by
    simp [integerLength]
  have behind : (List.replicate n '9' ++ ',' :: rest).drop n = ',' :: rest :=
    List.drop_left' List.length_replicate
  have taken : (List.replicate n '9' ++ ',' :: rest).take n = List.replicate n '9' :=
    List.take_left' List.length_replicate
  have noFraction : fractionLength (',' :: rest) = 0 := rfl
  have noExponent : exponentLength (',' :: rest) = 0 := rfl
  simp [readNumber, whole, behind, noFraction, noExponent, taken, integerOf_nines long]

theorem readValue_nines {n : Nat} (long : digitLimit < n + 1) (fuel offset : Nat)
    (rest : List Char) :
    readValue (fuel + 1) ⟨offset, '9' :: (List.replicate n '9' ++ ',' :: rest)⟩ =
      .error (.huge ⟨n + 1⟩) := by
  simp [readValue, named, readNumber_nines long, List.find?, List.isPrefixOf]

theorem read_nines {n : Nat} (long : digitLimit < n + 1) (rest : List Char) :
    read ('{' :: '"' :: 'n' :: '"' :: ':' :: '9' :: (List.replicate n '9' ++ ',' :: rest)) =
      .error (.huge ⟨n + 1⟩) := by
  have value (fuel : Nat) := readValue_nines long fuel 5 rest
  have noGap : ('9' :: (List.replicate n '9' ++ ',' :: rest)).takeWhile isGap = [] := rfl
  generalize '9' :: (List.replicate n '9' ++ ',' :: rest) = number at value noGap ⊢
  have key : readString ⟨1, '"' :: 'n' :: '"' :: ':' :: number⟩ = .ok ("n", ⟨4, ':' :: number⟩) :=
    rfl
  have member (fuel : Nat) :
      members (fuel + 2) ⟨1, '"' :: 'n' :: '"' :: ':' :: number⟩ = .error (.huge ⟨n + 1⟩) := by
    simp [members, key, Rest.skipGap, Rest.drop, isGap, value, noGap, bind, Except.bind]
  have enough : 2 * ('{' :: '"' :: 'n' :: '"' :: ':' :: number).length + 2 =
      2 * number.length + 9 + 2 + 1 := by
    simp only [List.length_cons]
    omega
  rw [read, enough]
  simp [readValue, Rest.skipGap, Rest.drop, isGap, member, bind, Except.bind, Except.map]

end Json

@[simp] theorem SubscriptionRun.addOpening_failure (r : SubscriptionRun) :
    r.addOpening.failure = r.failure := rfl

namespace Subscription

theorem ofText_huge {content : String} {integer : HugeInteger}
    (unread : Json.read content.toList = .error (.huge integer)) :
    Signal.ofText content = .error (.value integer.message) := by
  simp [Signal.ofText, unread]

/-- A message that keeps the connection alive and has an integer of one digit more than `n`. -/
def aliveWith (n : Nat) : String :=
  String.ofList ('{' :: '"' :: 'n' :: '"' :: ':' :: '9' :: (List.replicate n '9' ++
    ',' :: "\"type\":\"ka\"\x7d".toList))

theorem ofFrame_aliveWith {n : Nat} (long : digitLimit < n + 1) :
    Signal.ofFrame (.text (aliveWith n)) = .error (.value (HugeInteger.mk (n + 1)).message) := by
  refine ofText_huge ?_
  rw [aliveWith, String.toList_ofList]
  exact Json.read_nines long _

/-- A subscription that was started fails with a frame that is not read. -/
theorem follow_unread {s : Subscription} {frame : Frame} {e : Failure}
    (unread : Signal.ofFrame frame = .error e) (stage : s.stage = .started) (limit : Option Nat)
    (rest : List Frame) :
    (s.follow limit (frame :: rest)).failure =
      some (((s.after frame).leave true).2.getD (explained e)) := by
  simp [follow, receive, stage, unread, fail]

/-- An integer of too many digits makes every message unreadable, those that keep the connection
alive too. -/
theorem runOver_longInteger :
    let accepted : Frame := .text "\x7b\"type\":\"connection_ack\"\x7d"
    let completed : Frame := .text "\x7b\"type\":\"complete\"\x7d"
    (runOver default "1" none default [accepted, completed]).failure = none ∧
      (runOver default "1" none default
        [accepted, .text (aliveWith 4300), completed]).failure.map (·.kind) = some .value := by
  intro accepted completed
  let started : Subscription := ⟨"1", (default : Request).body, .started,
    ⟨[], none, [.sent (.greeting []), .sent (.start "1" (default : Request).body)], false⟩⟩
  have opened (rest : List Frame) : runOver default "1" none default (accepted :: rest) =
      (started.follow none rest).addOpening := by
    have greeted : greet default "1" default = .waiting
      { started with stage := .greeted, socket := ⟨[], none, [.sent (.greeting [])], false⟩ } := rfl
    have acknowledged : Subscription.receive
      { started with stage := .greeted, socket := ⟨[], none, [.sent (.greeting [])], false⟩ }
      accepted = .opened started := receive_acknowledged rfl (by decide +kernel)
    simp only [runOver, greeted, follow, acknowledged]
  refine ⟨by decide +kernel, ?_⟩
  have failed := follow_unread (s := started) (ofFrame_aliveWith (n := 4300) (by decide)) rfl none
    [completed]
  have remains : (started.leave true).2 = none := rfl
  rw [after_eq rfl, remains] at failed
  rw [opened, SubscriptionRun.addOpening_failure, failed]
  rfl

end Subscription
end InlineQuery
