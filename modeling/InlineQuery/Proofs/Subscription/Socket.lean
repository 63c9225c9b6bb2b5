import InlineQuery.Execution.Subscription

namespace InlineQuery

/-- A message that JSON can express. -/
def Message.IsWritable (message : Message) : Prop := Json.unwritable? message.datum = none

theorem Message.isWritable_stop (id : String) : (Message.stop id).IsWritable := rfl

theorem Message.isWritable_terminate : Message.terminate.IsWritable := rfl

namespace Socket

/-- Of messages to be sent, those that are sent before sending begins to fail. -/
def delivered (fault : Option (Nat × Failure)) (messages : List Message) : List Message :=
  match fault with
  | none => messages
  | some (limit, _) => messages.take limit

/-- An open connection over which messages were sent, all before sending begins to fail. Failures to
send say that the other end may be gone. -/
structure HasSent (s : Socket) (fault : Option (Nat × Failure)) (messages : List Message) : Prop where
  actions : s.actions = messages.map .sent
  isOpen : s.isClosed = false
  fault_eq : s.fault = fault
  loss : ∀ limit e, fault = some (limit, e) → isLoss e = true
  reached : ∀ limit e, fault = some (limit, e) → messages.length ≤ limit

variable {s : Socket} {fault : Option (Nat × Failure)} {sent rest : List Message} {message : Message}

theorem messages_of_actions (actions : s.actions = sent.map .sent) : s.messages = sent := by
  rw [messages, actions, List.filterMap_map]
  exact List.filterMap_some

theorem send_writable (writable : message.IsWritable) : s.send message =
    match s.obstacle? with
    | some e => .error e
    | none => .ok { s with actions := s.actions ++ [.sent message] } := by
  have compact : Json.compact message.datum = .ok (Json.line message.datum) := by
    rw [Message.IsWritable] at writable
    simp [Json.compact, writable]
  rw [send, Json.sent, compact]
  rfl

theorem HasSent.obstacle?_eq (known : s.HasSent fault sent) : s.obstacle? =
    fault.bind fun limited => if limited.1 ≤ sent.length then some limited.2 else none := by
  rw [obstacle?, known.isOpen, known.fault_eq, messages_of_actions known.actions]
  cases fault <;> rfl

theorem HasSent.push (known : s.HasSent fault sent)
    (room : ∀ limit e, fault = some (limit, e) → sent.length < limit) :
    HasSent { s with actions := s.actions ++ [.sent message] } fault (sent ++ [message]) where
  actions := by simp [known.actions]
  isOpen := known.isOpen
  fault_eq := known.fault_eq
  loss := known.loss
  reached limit e same := by
    have below := room limit e same
    simp only [List.length_append, List.length_singleton]
    omega

/-- A message is sent, or sending has begun to fail. -/
theorem HasSent.send_cases (known : s.HasSent fault sent) (writable : message.IsWritable) :
    (∃ next, s.send message = .ok next ∧ next.HasSent fault (sent ++ [message])) ∨
      ∃ e, s.send message = .error e ∧ isLoss e = true ∧
        ∀ later, delivered fault (sent ++ later) = sent := by
  rw [send_writable writable, known.obstacle?_eq]
  cases fault with
  | none => exact .inl ⟨_, rfl, known.push (by simp)⟩
  | some limited =>
    obtain ⟨limit, e⟩ := limited
    by_cases exhausted : limit ≤ sent.length
    · right
      refine ⟨e, by simp [exhausted], known.loss limit e rfl, fun later => ?_⟩
      have exactly : limit = sent.length := Nat.le_antisymm exhausted (known.reached limit e rfl)
      simp [delivered, exactly]
    · left
      refine ⟨{ s with actions := s.actions ++ [.sent message] }, by simp [exhausted],
        known.push fun l f same => ?_⟩
      cases same
      exact Nat.lt_of_not_le exhausted

theorem HasSent.delivered_eq (known : s.HasSent fault sent) : delivered fault sent = sent := by
  cases isFault : fault with
  | none => rfl
  | some limited => exact List.take_of_length_le (known.reached limited.1 limited.2 isFault)

/-- Messages are sent one after the other until one fails. -/
theorem HasSent.sendAll (known : s.HasSent fault sent) (writable : ∀ m ∈ rest, m.IsWritable) :
    ∃ next failure, s.sendAll rest = (next, failure) ∧
      next.actions = (delivered fault (sent ++ rest)).map .sent ∧
      ∀ e, failure = some e → isLoss e = true := by
  induction rest generalizing s sent with
  | nil =>
    refine ⟨s, none, rfl, ?_, by simp⟩
    rw [List.append_nil, known.delivered_eq, known.actions]
  | cons message rest ih =>
    rcases known.send_cases (writable message (List.mem_cons_self ..)) with
      ⟨next, isSent, further⟩ | ⟨e, fails, loss, prefixOnly⟩
    · obtain ⟨last, failure, steps, actions, lossy⟩ :=
        ih further fun m member => writable m (List.mem_cons_of_mem _ member)
      refine ⟨last, failure, ?_, ?_, lossy⟩
      · rw [Socket.sendAll, isSent]
        exact steps
      · rw [actions, List.append_assoc, List.singleton_append]
    · refine ⟨s, some e, ?_, ?_, ?_⟩
      · rw [Socket.sendAll, fails]
      · rw [prefixOnly, known.actions]
      · intro f same
        cases same
        exact loss

/-- What is sent to take leave, unless the connection is closed. -/
def farewell (isGone : Bool) (subscription : Option String) : List Message :=
  if isGone then [] else (subscription.map Message.stop).toList ++ [.terminate]

theorem mem_farewell_isWritable {isGone : Bool} {subscription : Option String}
    (member : message ∈ farewell isGone subscription) : message.IsWritable := by
  unfold farewell at member
  split at member
  · exact absurd member List.not_mem_nil
  · rcases List.mem_append.mp member with stops | terminates
    · obtain ⟨id, _, rfl⟩ := Option.map_eq_some_iff.mp (Option.mem_toList.mp stops)
      exact Message.isWritable_stop id
    · rw [List.mem_singleton.mp terminates]
      exact Message.isWritable_terminate

/-- A connection that was closed at last, and once, behind those of the messages that were sent
before sending began to fail. -/
def HasLeft (s : Socket) (fault : Option (Nat × Failure)) (messages : List Message) : Prop :=
  s.actions = (delivered fault messages).map .sent ++ [.closed]

/-- Taking leave of an open connection sends the farewell and closes the connection last. -/
theorem HasSent.leave (known : s.HasSent fault sent) (subscription : Option String) :
    (s.leave subscription).1.HasLeft fault (sent ++ farewell false subscription) := by
  have writable : ∀ m ∈ farewell false subscription, m.IsWritable :=
    fun m member => mem_farewell_isWritable member
  obtain ⟨next, failure, steps, actions, lossy⟩ := known.sendAll writable
  have isFarewell :
      (subscription.map Message.stop).toList ++ [.terminate] = farewell false subscription := rfl
  simp only [Socket.leave, known.isOpen, Bool.false_eq_true, if_false, isFarewell, steps]
  cases failure with
  | none => simp [HasLeft, close, actions]
  | some e => simp [HasLeft, lossy e rfl, close, actions]

/-- Taking leave of a connection that the server has closed only closes it. -/
theorem HasSent.leave_gone (known : s.HasSent fault sent) (subscription : Option String) :
    ({ s with isClosed := true }.leave subscription).1.HasLeft fault
      (sent ++ farewell true subscription) := by
  have nothing : farewell true subscription = [] := rfl
  rw [HasLeft, nothing, List.append_nil, known.delivered_eq]
  simp [Socket.leave, close, known.actions]

end Socket
end InlineQuery
