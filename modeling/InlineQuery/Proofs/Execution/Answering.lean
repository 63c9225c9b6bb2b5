import InlineQuery.Proofs.Data.Except
import InlineQuery.Proofs.Execution.Announcement
import InlineQuery.Proofs.Operation.Index

/-!
How a query or mutation ends. Most of what a server can answer becomes a final event or a failure of
the transport. What does not is listed here: a refusal whose body cannot be decoded, a body that the
platform gives up on, an integer of too many digits, an error whose message is no text, and a
connection that is lost where the network client does not say so itself.
-/

namespace InlineQuery

/-- A final event, or a failure of the transport. -/
def IsSettled : Except Failure ResultEvent → Prop
  | .ok event => event.isFinal = true
  | .error e => e.kind = .transport

instance : DecidablePred IsSettled
  | .ok _ => inferInstanceAs (Decidable (_ = _))
  | .error _ => inferInstanceAs (Decidable (_ = _))

namespace Envelope

/-- Errors that are no list are a single one. -/
def itemsOf : Datum → List Datum
  | .list items => items
  | single => [single]

/-- The errors that an envelope reports. -/
def reported (envelope : Datum) : List Datum :=
  match envelope.field? "errors" with
  | none => []
  | some errors => if errors.isTruthy then itemsOf errors else []

/-- If an error has a message, it is a text. -/
def HasTextMessage (e : Datum) : Prop := ∀ message, e.field? "message" = some message →
  ∃ text, message = .text text

theorem exists_errorMessage_iff (e : Datum) :
    (∃ text, errorMessage e = .text text) ↔ HasTextMessage e := by
  have noField {e : Datum} (message : errorMessage e = .text e.display)
      (none : e.field? "message" = none) :
      (∃ text, errorMessage e = .text text) ↔ HasTextMessage e := by
    refine ⟨fun _ found isFound => ?_, fun _ => ⟨_, message⟩⟩
    rw [none] at isFound
    cases isFound
  cases e with
  | map entries =>
    cases isField : (Datum.map entries).field? "message" with
    | none => exact noField (by rw [errorMessage, isField, Option.getD_none]) isField
    | some message =>
      rw [errorMessage, isField, Option.getD_some, HasTextMessage, isField]
      exact ⟨fun isText found same => Option.some.inj same ▸ isText, fun all => all message rfl⟩
  | _ => exact noField rfl rfl

/-- Joining fails with a failure of its own when a message is no text. -/
theorem joinMessages_cases (messages : List Datum) :
    ((∀ m ∈ messages, ∃ text, m = .text text) ∧ ∃ text, joinMessages messages = .ok text) ∨
    ((∃ m ∈ messages, ¬ ∃ text, m = .text text) ∧
      ∃ e, joinMessages messages = .error e ∧ e.kind = .type) := by
  unfold joinMessages
  generalize isStep : (fun x : Datum × Nat => _) = step
  have steps (m : Datum) (i : Nat) : (∃ text, m = .text text ∧ step (m, i) = .ok text) ∨
      (¬ ∃ text, m = .text text) ∧ ∃ e, step (m, i) = .error e ∧ e.kind = .type := by
    rw [← isStep]
    cases m with
    | text s => exact .inl ⟨s, rfl, rfl⟩
    | _ => exact .inr ⟨nofun, _, rfl, rfl⟩
  cases each : messages.zipIdx.mapM step with
  | ok texts =>
    refine .inl ⟨fun m member => ?_, _, rfl⟩
    obtain ⟨i, atIndex⟩ := List.mem_iff_getElem?.mp member
    have made := exists_mapM_ok_iff.mp ⟨texts, each⟩ (m, i)
      (List.mem_zipIdx_iff_getElem?.mpr atIndex)
    rcases steps m i with ⟨text, isText, -⟩ | ⟨-, e, failed, -⟩
    · exact ⟨text, isText⟩
    · rw [failed] at made
      obtain ⟨_, made⟩ := made
      cases made
  | error e =>
    obtain ⟨⟨m, i⟩, member, failed⟩ := exists_mem_of_mapM_error each
    rcases steps m i with ⟨text, -, made⟩ | ⟨noText, e', failed', kind⟩
    · cases made.symm.trans failed
    · cases failed'.symm.trans failed
      exact .inr ⟨⟨m, List.fst_mem_of_mem_zipIdx member, noText⟩, e, rfl, kind⟩

/-- An envelope with errors becomes an event with their messages. -/
theorem event_reporting {envelope errors : Datum} (isErrors : envelope.field? "errors" = some errors)
    (truthy : errors.isTruthy = true) :
    event envelope true = (joinMessages ((reported envelope).map errorMessage)).map fun message =>
      ⟨(envelope.field? "data").getD .null, some ⟨"GraphQLError", message, errors⟩, true⟩ := by
  have items : reported envelope = itemsOf errors := by
    rw [reported, isErrors]
    exact if_pos truthy
  rw [event, isErrors, items, itemsOf.eq_def]
  simp only [Option.isNone_some, Bool.false_eq_true, and_false, if_false, Option.getD_some, truthy,
    if_true]
  generalize joinMessages _ = joined
  cases joined <;> rfl

/-- Without errors it becomes an event with the data, unless it has none. -/
theorem event_silent {envelope : Datum}
    (noErrors : ∀ errors, envelope.field? "errors" = some errors → errors.isTruthy = false) :
    event envelope true = .error malformed ∨
      event envelope true = .ok ⟨(envelope.field? "data").getD .null, none, true⟩ := by
  have nothing : ((envelope.field? "errors").getD .null).isTruthy = false := by
    cases isErrors : envelope.field? "errors" with
    | none => rfl
    | some errors => exact noErrors errors isErrors
  unfold event
  dsimp only
  rw [nothing]
  split
  · exact .inl rfl
  · exact .inr rfl

theorem isSettled_event_iff (envelope : Datum) :
    IsSettled (event envelope true) ↔ ∀ e ∈ reported envelope, HasTextMessage e := by
  by_cases reports : ∃ errors, envelope.field? "errors" = some errors ∧ errors.isTruthy = true
  · obtain ⟨errors, isErrors, truthy⟩ := reports
    have texts : (∀ m ∈ (reported envelope).map errorMessage, ∃ text, m = .text text) ↔
        ∀ e ∈ reported envelope, HasTextMessage e := by
      rw [List.forall_mem_map]
      exact forall₂_congr fun e _ => exists_errorMessage_iff e
    rw [event_reporting isErrors truthy, ← texts]
    rcases joinMessages_cases ((reported envelope).map errorMessage) with
      ⟨all, message, joined⟩ | ⟨⟨m, member, noText⟩, e, failed, kind⟩
    · rw [joined]
      exact ⟨fun _ => all, fun _ => rfl⟩
    · rw [failed]
      refine ⟨fun settled => ?_, fun all => absurd (all m member) noText⟩
      cases kind.symm.trans settled
  · have noErrors : ∀ errors, envelope.field? "errors" = some errors →
        errors.isTruthy = false := fun errors isErrors =>
      Bool.eq_false_iff.mpr fun truthy => reports ⟨errors, isErrors, truthy⟩
    have none : reported envelope = [] := by
      unfold reported
      split
      · rfl
      · rename_i errors isErrors
        rw [noErrors errors isErrors]
        rfl
    have settled : IsSettled (event envelope true) := by
      rcases event_silent noErrors with failed | made
      · rw [failed]
        rfl
      · rw [made]
        rfl
    rw [none]
    exact ⟨fun _ => nofun, fun _ => settled⟩

end Envelope

/-- Bytes are read with replacement in the charsets that are defined here and in those of the
platform that do so. -/
theorem Text.Decoding.exists_lenient_iff (name : String) (bytes : List UInt8)
    (foreign : Text.Decoding) : (∃ text, (named name bytes foreign).lenient = .ok text) ↔
      (Charset.ofName? name).isSome = true ∨
        Charset.isForeign name = true ∧ ∃ text, foreign.lenient = .ok text := by
  unfold named
  cases Charset.ofName? name with
  | some charset => simp [ofCharset]
  | none =>
    cases Charset.isForeign name with
    | true => simp
    | false => cases Charset.isVoid name <;> simp [failed]

namespace Response

variable {r : Response}

/-- A response that becomes a final event or a failure of the transport. The body of a refusal can be
read with what is no text replaced. That of a success is text, or it is none because its bytes are
flawed or its charset is not known; and what is read in it as JSON has no integer of too many digits
and no error whose message is no text. -/
structure IsSettling (r : Response) : Prop where
  replaces : r.isSuccess = false → ∃ text, r.replacedText = .ok text
  explains : r.isSuccess = true → ∀ e, r.text = .error e → e.kind = .decoding ∨ e.kind = .lookup
  integers : r.isSuccess = true → ∀ text integer, r.text = .ok text →
    Json.read text ≠ .error (.huge integer)
  messages : r.isSuccess = true → ∀ text envelope, r.text = .ok text →
    Json.read text = .ok envelope → ∀ e ∈ Envelope.reported envelope, Envelope.HasTextMessage e

/-- A body is read with replacement if the name of its charset holds no NUL and, unless the body is
empty, the charset is defined here or is another one of the platform's that replaces what is no
text. -/
theorem exists_replacedText_iff (r : Response) : (∃ text, r.replacedText = .ok text) ↔
    r.charsetName.toList.contains '\x00' = false ∧ (r.body = [] ∨
      (Text.Charset.ofName? r.charsetName).isSome = true ∨
      Text.Charset.isForeign r.charsetName = true ∧ ∃ text, r.foreign.lenient = .ok text) := by
  unfold replacedText textBy
  cases r.charsetName.toList.contains '\x00' with
  | true => simp
  | false =>
    cases r.body with
    | nil => simp
    | cons b bytes =>
      have read := Text.Decoding.exists_lenient_iff r.charsetName (b :: bytes) r.foreign
      simpa [mapError_eq_ok_iff] using read

/-- A charset of the far east, in which a byte that is no text is replaced. -/
example : Response.replacedText ⟨500, some "gbk", [0x80], ⟨.error (.flawed ""), .ok ['\ufffd']⟩⟩ =
    .ok ['\ufffd'] := rfl

/-- A body that cannot be read is no failure of the transport by itself. -/
theorem kind_of_textBy {way : Text.Decoding → Except Text.Undecoded (List Char)} {e : Failure}
    (failed : r.textBy way = .error e) : e.kind ≠ .transport := by
  unfold textBy at failed
  split at failed
  · cases failed
    simp [Failure.value]
  · split at failed
    · cases failed
    · cases undecoded : way (.named r.charsetName r.body r.foreign) with
      | ok text =>
        rw [undecoded] at failed
        cases failed
      | error cause =>
        rw [undecoded] at failed
        cases failed
        cases cause <;> simp [Text.Undecoded.failure]

theorem kind_refusal_iff (r : Response) :
    r.refusal.kind = .transport ↔ ∃ text, r.replacedText = .ok text := by
  unfold refusal
  cases read : r.replacedText with
  | error e => exact iff_of_false (kind_of_textBy read) (by simp)
  | ok text => exact iff_of_true rfl ⟨text, rfl⟩

/-- That the body of a success has no text is a failure of the transport if it is explained. -/
theorem kind_undecoded_iff {e : Failure} (undecoded : r.text = .error e) :
    (r.undecoded e).kind = .transport ↔ e.kind = .decoding ∨ e.kind = .lookup := by
  have other : e.kind ≠ .transport := kind_of_textBy undecoded
  unfold Response.undecoded
  split
  · rename_i known
    exact iff_of_true rfl (by simpa using known)
  · rename_i unknown
    exact iff_of_false other (by simpa using unknown)

theorem isSettling_iff_of_refused (refused : r.isSuccess = false) :
    r.IsSettling ↔ ∃ text, r.replacedText = .ok text := by
  have noText (P : Prop) (other : r.isSuccess = true) : P := by
    cases refused.symm.trans other
  exact ⟨fun settling => settling.replaces refused,
    fun read => ⟨fun _ => read, noText _, noText _, noText _⟩⟩

theorem isSettling_iff_of_undecoded (success : r.isSuccess = true) {e : Failure}
    (undecoded : r.text = .error e) : r.IsSettling ↔ e.kind = .decoding ∨ e.kind = .lookup := by
  refine ⟨fun settling => settling.explains success e undecoded, fun known => ⟨fun refused => ?_,
    fun _ other same => ?_, fun _ text integer decoded => ?_, fun _ text envelope decoded => ?_⟩⟩
  · cases success.symm.trans refused
  · cases undecoded.symm.trans same
    exact known
  · cases undecoded.symm.trans decoded
  · cases undecoded.symm.trans decoded

theorem isSettling_iff_of_text (success : r.isSuccess = true) {text : List Char}
    (decoded : r.text = .ok text) : r.IsSettling ↔
      (∀ integer, Json.read text ≠ .error (.huge integer)) ∧ ∀ envelope,
        Json.read text = .ok envelope → ∀ e ∈ Envelope.reported envelope, Envelope.HasTextMessage e := by
  constructor
  · exact fun settling => ⟨fun integer => settling.integers success text integer decoded,
      fun envelope => settling.messages success text envelope decoded⟩
  · rintro ⟨integers, messages⟩
    refine ⟨fun refused => ?_, fun _ e undecoded => ?_, fun _ other integer same => ?_,
      fun _ other envelope same => ?_⟩
    · cases success.symm.trans refused
    · cases decoded.symm.trans undecoded
    · cases decoded.symm.trans same
      exact integers integer
    · cases decoded.symm.trans same
      exact messages envelope

theorem isSettled_event_iff (r : Response) : IsSettled r.event ↔ r.IsSettling := by
  cases success : r.isSuccess with
  | false =>
    have refused : r.event = .error r.refusal := by
      rw [event, success]
      rfl
    rw [refused, isSettling_iff_of_refused success]
    exact kind_refusal_iff r
  | true =>
    cases decoded : r.text with
    | error e =>
      have failed : r.event = .error (r.undecoded e) := by
        rw [event, success, decoded]
        rfl
      rw [failed, isSettling_iff_of_undecoded success decoded]
      exact kind_undecoded_iff decoded
    | ok text =>
      have went : r.event = r.value text >>= fun envelope => Envelope.event envelope true := by
        rw [event, success, decoded]
        rfl
      rw [went, value, isSettling_iff_of_text success decoded]
      cases read : Json.read text with
      | error fault =>
        cases fault with
        | huge integer =>
          refine iff_of_false (fun settled => ?_) fun settling => settling.1 integer rfl
          cases settled
        | malformed =>
          refine iff_of_true rfl ⟨fun integer huge => ?_, fun envelope made => ?_⟩
          · cases huge
          · cases made
      | ok envelope =>
        refine (Envelope.isSettled_event_iff envelope).trans
          ⟨fun texts => ⟨fun integer huge => ?_, fun other made => ?_⟩,
            fun settling => settling.2 envelope rfl⟩
        · cases huge
        · cases made
          exact texts

end Response

/-- A reply that becomes a final event or a failure of the transport. -/
def Reply.IsSettling : Reply → Prop
  | .response r => r.IsSettling
  | .failure e => e.kind.isClient = true ∨ e.kind = .transport
  | .silence => False

theorem Reply.isSettled_unreached_iff (url : String) (e : Failure) :
    IsSettled (.error (unreached url e)) ↔ e.kind.isClient = true ∨ e.kind = .transport := by
  unfold unreached
  split
  · rename_i isClient
    exact ⟨fun _ => .inl isClient, fun _ => rfl⟩
  · rename_i other
    exact ⟨.inr, fun either => either.resolve_left other⟩

theorem Reply.exists_outcome_iff (reply : Reply) (url : String) :
    (∃ result ∈ reply.outcome? url, IsSettled result) ↔ reply.IsSettling := by
  have only (result : Except Failure ResultEvent) :
      (∃ outcome ∈ some result, IsSettled outcome) ↔ IsSettled result := by simp
  cases reply with
  | response r => exact (only r.event).trans r.isSettled_event_iff
  | failure e => exact (only _).trans (isSettled_unreached_iff url e)
  | silence => exact ⟨nofun, False.elim⟩

/-- A request to an endpoint ends in a final event or in a failure of the transport exactly if what
it sends can be written and the reply is none of those that escape. -/
theorem Request.post_settles_iff (r : Request) (net : Network) {endpoint : Endpoint}
    (given : r.endpoint = some endpoint) :
    (∃ result ∈ (r.post net).1, IsSettled result) ↔
      Json.unwritable? r.body = none ∧ (net.replies.headD net.lastReply).IsSettling := by
  rw [← Reply.exists_outcome_iff (net.replies.headD net.lastReply) endpoint.url]
  rw [post, given]
  dsimp only
  unfold Json.sent Json.compact
  cases unwritable : Json.unwritable? r.body with
  | some fault =>
    refine ⟨fun ⟨result, same, settled⟩ => ?_, nofun⟩
    cases same
    cases fault <;> cases settled
  | none => exact ⟨fun settles => ⟨rfl, settles⟩, And.right⟩

/-- A query that is sent to an endpoint. -/
def Request.plain : Request := { (default : Request) with endpoint := some default }

def Network.answering (reply : Reply) : Network := { (default : Network) with replies := [reply] }

def Response.ofText (status : Int) (charset : Option String) (body : String) : Response :=
  { status, charset, body := body.toUTF8.toList }

theorem Request.post_settles_iff_answered :
    let net := Network.answering (.response (.ofText 200 none "\x7b\"data\": 1\x7d"))
    (∃ result ∈ (Request.plain.post net).1, IsSettled result) ∧
      Json.unwritable? Request.plain.body = none ∧ (net.replies.headD net.lastReply).IsSettling := by
  intro net
  have settles : ∃ result ∈ (Request.plain.post net).1, IsSettled result := by decide +kernel
  exact ⟨settles, (Request.post_settles_iff Request.plain net rfl).mp settles⟩

/-- A reply that becomes something else, when it answers that query. -/
def Reply.Escapes (reply : Reply) : Prop :=
  ¬ ∃ result ∈ (Request.plain.post (.answering reply)).1, IsSettled result

instance : DecidablePred Reply.Escapes := fun reply =>
  inferInstanceAs (Decidable (¬ ∃ result ∈ (Request.plain.post (.answering reply)).1, _))

/-- A refusal in an unknown charset, a lost connection, and an error with a number for its message. -/
theorem Reply.escapes_unexplained :
    (Reply.response (.ofText 500 (some "nope") "x")).Escapes ∧
      (Reply.failure { kind := .connectionReset, message := "reset" }).Escapes ∧
      (Reply.response (.ofText 200 none "\x7b\"errors\": [\x7b\"message\": 1\x7d]\x7d")).Escapes := by
  decide +kernel

end InlineQuery
