import InlineQuery.Execution.Subscription

namespace InlineQuery

namespace Frame

/-- Whether the server accepts the greeting. -/
def acknowledges (frame : Frame) : Bool :=
  match Signal.ofFrame frame with
  | .ok (.message m) => Subscription.isType m "connection_ack"
  | _ => false

/-- Whether a greeting that has not been accepted yet is refused: by the server, or because the
connection ends or fails. -/
def refuses (frame : Frame) : Bool :=
  match Signal.ofFrame frame with
  | .ok (.message m) => Subscription.isType m "connection_error"
  | .ok .silence => false
  | .ok .closed => true
  | .error _ => true

/-- Whether a message is about a subscription: it names that one or none. -/
def concerns (id : String) (message : Datum) : Bool :=
  match message.field? "id" with
  | none | some .null => true
  | some (.text named) => named == id
  | some _ => false

/-- Whether a message completes a subscription or reports an error of it. -/
def concludes (id : String) (message : Datum) : Bool :=
  concerns id message && ["complete", "error", "connection_error"].any (Subscription.isType message)

/-- Whether the server ends a subscription that has been started, by a message or because it closes
the connection as usual. -/
def ends (id : String) (frame : Frame) : Bool :=
  match Signal.ofFrame frame with
  | .ok (.message m) => concludes id m
  | .ok .closed => true
  | _ => false

theorem isGone_cases {frame : Frame} (gone : frame.isGone = true) :
    Signal.ofFrame frame = .ok .closed ∨ ∃ e, Signal.ofFrame frame = .error e := by
  cases frame with
  | closing code =>
    cases code with
    | none => exact .inl rfl
    | some n =>
      simp only [Signal.ofFrame]
      split
      · exact .inl rfl
      · exact .inr ⟨_, rfl⟩
  | error | failure => exact .inr ⟨_, rfl⟩
  | text | other => cases gone

theorem isGone_of_message {frame : Frame} {m : Datum}
    (heard : Signal.ofFrame frame = .ok (.message m)) : frame.isGone = false := by
  cases gone : frame.isGone with
  | false => rfl
  | true => rcases isGone_cases gone with other | ⟨e, other⟩ <;> simp [heard] at other

theorem isGone_of_silence {frame : Frame} (heard : Signal.ofFrame frame = .ok .silence) :
    frame.isGone = false := by
  cases gone : frame.isGone with
  | false => rfl
  | true => rcases isGone_cases gone with other | ⟨e, other⟩ <;> simp [heard] at other

end Frame

theorem Envelope.isFinal_event {envelope : Datum} {isFinal : Bool} {e : ResultEvent}
    (made : Envelope.event envelope isFinal = .ok e) : e.isFinal = isFinal := by
  simp only [Envelope.event, bind, Except.bind, pure, Except.pure, throw, throwThe,
    MonadExceptOf.throw] at made
  split at made
  · cases made
  · split at made
    · split at made
      · cases made
      · cases made
        rfl
    · cases made
      rfl

namespace Subscription

/-- A message has one type. -/
theorem isType_unique {message : Datum} {type other : String}
    (known : isType message type = true) : isType message other = (type == other) := by
  simp only [isType] at known ⊢
  split at known
  · rw [beq_iff_eq.mp known]
  · cases known

theorem isForeign_eq (s : Subscription) (message : Datum) :
    s.isForeign message = !Frame.concerns s.id message := by
  simp only [isForeign, Frame.concerns]
  split <;> simp_all [bne]

theorem after_eq {frame : Frame} (kept : frame.isGone = false) (s : Subscription) :
    s.after frame = s := by
  rw [after, kept, if_neg (by simp)]

variable {s : Subscription} {frame : Frame}

/-- Before the acknowledgement a frame ends the subscription, starts it, or is passed over. -/
theorem receive_greeted (stage : s.stage = .greeted) (frame : Frame) :
    (frame.refuses = true ∧ frame.acknowledges = false ∧
      ∃ e, s.receive frame = (s.after frame).fail false e) ∨
    (frame.refuses = false ∧ frame.isGone = false ∧
      s.receive frame = if frame.acknowledges then s.start else .waiting s) := by
  cases heard : Signal.ofFrame frame with
  | error e =>
    left
    refine ⟨by simp [Frame.refuses, heard], by simp [Frame.acknowledges, heard], e, ?_⟩
    simp [receive, stage, heard]
  | ok signal =>
    cases signal with
    | closed =>
      left
      refine ⟨by simp [Frame.refuses, heard], by simp [Frame.acknowledges, heard],
        .transport "Websocket closed before connection_ack", ?_⟩
      simp [receive, stage, heard, receiveGreeted]
    | silence =>
      right
      have kept := Frame.isGone_of_silence heard
      refine ⟨by simp [Frame.refuses, heard], kept, ?_⟩
      simp [receive, stage, heard, receiveGreeted, Frame.acknowledges, after_eq kept]
    | message m =>
      have kept := Frame.isGone_of_message heard
      cases refuses : isType m "connection_error" with
      | true =>
        left
        have denies : isType m "connection_ack" = false := isType_unique refuses
        refine ⟨by simp [Frame.refuses, heard, refuses],
          by simp [Frame.acknowledges, heard, denies], reported m, ?_⟩
        simp [receive, stage, heard, receiveGreeted, after_eq kept, refuses, denies]
      | false =>
        right
        refine ⟨by simp [Frame.refuses, heard, refuses], kept, ?_⟩
        simp [receive, stage, heard, receiveGreeted, Frame.acknowledges, after_eq kept, refuses]

theorem receive_acknowledged (stage : s.stage = .greeted) {frame : Frame}
    (acknowledges : frame.acknowledges = true) : s.receive frame = s.start := by
  rcases receive_greeted stage frame with ⟨-, denies, -⟩ | ⟨-, -, step⟩
  · rw [denies] at acknowledges
    cases acknowledges
  · rw [step, if_pos acknowledges]

/-- After the acknowledgement a message is passed over if its type or its subscription is another,
and data that make no event break the subscription. -/
theorem receiveStarted_message (s : Subscription) (message : Datum) :
    (Frame.concludes s.id message = true ∧ (s.receiveStarted (.message message) = s.complete ∨
      ∃ e, s.receiveStarted (.message message) = s.fail false e)) ∨
    (Frame.concludes s.id message = false ∧
      ∃ e, s.receiveStarted (.message message) = s.fail true e) ∨
    (Frame.concludes s.id message = false ∧ (s.receiveStarted (.message message) = .waiting s ∨
      ∃ e, e.isFinal = false ∧ s.receiveStarted (.message message) = .event e s)) := by
  cases foreign : s.isForeign message with
  | true =>
    have other : Frame.concerns s.id message = false := by simpa [isForeign_eq] using foreign
    right; right
    exact ⟨by simp [Frame.concludes, other], .inl (by simp [receiveStarted, foreign])⟩
  | false =>
    have own : Frame.concerns s.id message = true := by simpa [isForeign_eq] using foreign
    simp only [receiveStarted, foreign, Bool.or_false, Frame.concludes, own, Bool.true_and,
      List.any_cons, List.any_nil]
    by_cases keeps : isType message "ka" = true
    · have types (other : String) : isType message other = ("ka" == other) := isType_unique keeps
      right; right
      simp [types]
    by_cases data : isType message "data" = true
    · have types (other : String) : isType message other = ("data" == other) := isType_unique data
      simp only [types]
      right
      cases made : Envelope.event ((message.field? "payload").getD .null) false with
      | ok e => exact .inr ⟨by decide, .inr ⟨e, Envelope.isFinal_event made, by simp⟩⟩
      | error e => exact .inl ⟨by decide, e, by simp⟩
    by_cases completes : isType message "complete" = true
    · left
      simp [keeps, data, completes]
    by_cases fails : (isType message "error" || isType message "connection_error") = true
    · refine .inl ⟨by simpa [completes] using fails, .inr ⟨reported message, ?_⟩⟩
      simp [keeps, data, completes, fails]
    · right; right
      simp [keeps, data, completes, fails]

/-- After the acknowledgement a frame of the server ends the subscription by an event or a failure,
or it breaks it, or an event comes of it or nothing, and none of these is final. -/
theorem receive_started (stage : s.stage = .started) (frame : Frame) :
    (frame.ends s.id = true ∧
      (s.receive frame = (s.after frame).complete ∨
        ∃ e, s.receive frame = (s.after frame).fail false e)) ∨
    (frame.ends s.id = false ∧ ∃ e, s.receive frame = (s.after frame).fail true e) ∨
    (frame.ends s.id = false ∧ frame.isGone = false ∧
      (s.receive frame = .waiting s ∨
        ∃ e, e.isFinal = false ∧ s.receive frame = .event e s)) := by
  cases heard : Signal.ofFrame frame with
  | error e =>
    refine .inr (.inl ⟨by simp [Frame.ends, heard], e, ?_⟩)
    simp [receive, stage, heard]
  | ok signal =>
    cases signal with
    | closed =>
      refine .inl ⟨by simp [Frame.ends, heard], .inl ?_⟩
      simp [receive, stage, heard, receiveStarted]
    | silence =>
      have kept := Frame.isGone_of_silence heard
      refine .inr (.inr ⟨by simp [Frame.ends, heard], kept, .inl ?_⟩)
      simp [receive, stage, heard, receiveStarted, after_eq kept]
    | message m =>
      have kept := Frame.isGone_of_message heard
      have opened : s.receive frame = s.receiveStarted (.message m) := by
        simp [receive, stage, heard, after_eq kept]
      have told : frame.ends s.id = Frame.concludes s.id m := by simp [Frame.ends, heard]
      rw [opened, told, after_eq kept]
      simpa only [kept, true_and] using receiveStarted_message s m

end Subscription
end InlineQuery
