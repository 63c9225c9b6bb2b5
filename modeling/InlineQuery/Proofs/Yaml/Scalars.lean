import InlineQuery.Data.Yaml.Document

/-!
Scalars whose text names no value: which of them there are, and that their failures are none of a
configuration.
-/

namespace InlineQuery.Yaml

/-- Whether no failure to read a value is one of a configuration. -/
structure FailsApart {α : Type} (x : Except Fault α) : Prop where
  apart : ∀ failure, x = .error (.value failure) → failure.kind.isConfiguration = false

namespace FailsApart

variable {α β : Type} {x : Except Fault α}

theorem ok (a : α) : FailsApart (.ok a) := ⟨nofun⟩

theorem malformed : FailsApart (.error .malformed : Except Fault α) := ⟨nofun⟩

theorem value {e : Failure} (apart : e.kind.isConfiguration = false) :
    FailsApart (.error (.value e) : Except Fault α) :=
  ⟨fun _ failed => Fault.value.inj (Except.error.inj failed) ▸ apart⟩

theorem bind {k : α → Except Fault β} (first : FailsApart x) (rest : ∀ a, FailsApart (k a)) :
    FailsApart (x.bind k) := by
  cases x with
  | error fault => exact ⟨fun e failed => first.apart e (congrArg _ (Except.error.inj failed))⟩
  | ok a => exact rest a

theorem map (f : α → β) (first : FailsApart x) : FailsApart (x.map f) := by
  cases x with
  | error fault => exact ⟨fun e failed => first.apart e (congrArg _ (Except.error.inj failed))⟩
  | ok a => exact ok _

theorem ite {c : Prop} [Decidable c] {y : Except Fault α} (one : FailsApart x)
    (other : FailsApart y) : FailsApart (if c then x else y) := by
  split
  · exact one
  · exact other

theorem mapM {f : β → Except Fault α} (each : ∀ b, FailsApart (f b)) (bs : List β) :
    FailsApart (bs.mapM f) := by
  induction bs with
  | nil => exact ok _
  | cons b bs ih =>
    rw [List.mapM_cons]
    exact (each b).bind fun _ => ih.bind fun _ => ok _

theorem foldlM {f : α → β → Except Fault α} (each : ∀ a b, FailsApart (f a b)) (a : α)
    (bs : List β) : FailsApart (bs.foldlM f a) := by
  induction bs generalizing a with
  | nil => exact ok a
  | cons b bs ih =>
    rw [List.foldlM_cons]
    exact (each a b).bind fun next => ih next

theorem unsigned (cs : List Char) : FailsApart (Scalar.unsigned cs) := by
  unfold Scalar.unsigned
  split
  · exact value rfl
  · exact ok _

theorem inBase (base : Nat) (shown : List Char) : FailsApart (Scalar.inBase base shown) :=
  ite (value rfl) (ok _)

theorem decimal (shown : List Char) : FailsApart (Scalar.decimal shown) := by
  unfold Scalar.decimal
  refine ite (value rfl) (map _ ?_)
  generalize integerOf _ = read
  cases read with
  | error e => exact value rfl
  | ok n => exact ok n

theorem integer (text : String) : FailsApart (Scalar.integer text) := by
  unfold Scalar.integer
  refine (unsigned _).bind fun (negative, body) => ?_
  have signed (n : Int) : FailsApart (.ok (if negative then -n else n) : Except Fault Int) := ok _
  dsimp only
  split
  · exact signed 0
  · exact (inBase ..).bind signed
  · exact (inBase ..).bind signed
  · exact (inBase ..).bind signed
  · exact value rfl
  · exact ite ((mapM decimal _).bind fun parts => signed (Scalar.sexagesimal parts))
      ((decimal _).bind signed)

theorem number (shown : List Char) : FailsApart (Scalar.number shown) := by
  unfold Scalar.number
  dsimp only
  split
  · exact ok _
  · exact value rfl

theorem sixtieths (place : Nat) : FailsApart (Scalar.sixtieths place) := by
  unfold Scalar.sixtieths
  split
  · exact value rfl
  · exact ok _

theorem sexagesimalSum (parts : List Double) : FailsApart (Scalar.sexagesimalSum parts) :=
  foldlM (fun _ (_, place) => (sixtieths place).bind fun _ => ok _) _ _

theorem float (text : String) : FailsApart (Scalar.float text) := by
  unfold Scalar.float
  refine (unsigned _).bind fun (negative, body) => ?_
  have signed (x : Double) : FailsApart (.ok (if negative then x.neg else x) : Except Fault Double) :=
    ok _
  dsimp only
  split
  · exact signed _
  · exact signed _
  · exact ite ((mapM number _).bind fun parts => (sexagesimalSum parts).bind signed)
      ((number _).bind signed)

end FailsApart

/-- What refuses a timestamp: a flaw of its zone, of its date or of its clock, in this order. -/
def Timestamp.flaw? (t : Timestamp) : Option String :=
  match t.clock with
  | none => dateFlaw? t.date
  | some c => ((c.zone.map zoneSeconds).bind zoneFlaw?).or ((dateFlaw? t.date).or (clockFlaw? c))

theorem Timestamp.datum_error_iff {t : Timestamp} {e : Failure} :
    t.datum = .error e ↔ ∃ message, t.flaw? = some message ∧ e = .value message := by
  unfold datum flaw?
  cases t.clock with
  | none => cases dateFlaw? t.date <;> simp [bind, Except.bind, pure, Except.pure, eq_comm]
  | some c =>
    dsimp only
    cases (c.zone.map zoneSeconds).bind zoneFlaw? <;> cases dateFlaw? t.date <;>
      cases clockFlaw? c <;> simp [bind, Except.bind, pure, Except.pure, eq_comm]

theorem failsApart_scalarDatum (tag : Tag) (text : String) : FailsApart (scalarDatum tag text) := by
  unfold scalarDatum
  split
  · exact .ok _
  · split
    · exact .ok _
    · exact .value rfl
  · exact (FailsApart.integer text).map _
  · exact (FailsApart.float text).map _
  · split
    · exact .ite (.ok _) .malformed
    · exact .malformed
  · split
    · rename_i t _
      cases built : t.datum with
      | ok d => exact .ok d
      | error e =>
        obtain ⟨_, _, rfl⟩ := Timestamp.datum_error_iff.mp built
        exact .value rfl
    · exact .value rfl
  · exact .ok _
  · exact .malformed

mutual

theorem failsApart_text (n : Node) : FailsApart n.text := by
  cases n with
  | scalar tag text => exact .ok text
  | sequence tag items => exact .malformed
  | mapping tag entries => exact failsApart_entriesText entries
  | again anchor tag => exact .value rfl

theorem failsApart_entriesText (entries : List (Node × Node)) :
    FailsApart (Node.entriesText entries) := by
  match entries with
  | [] => exact .malformed
  | (k, v) :: rest => exact .ite (failsApart_text v) (failsApart_entriesText rest)

end

theorem failsApart_namedDatum (tag : Tag) (entries : List (Node × Node)) :
    FailsApart (namedDatum tag entries) := by
  unfold namedDatum
  split
  · exact .malformed
  · exact .malformed
  · exact .malformed
  · exact (failsApart_entriesText entries).bind fun text =>
      .ite (.value rfl) (failsApart_scalarDatum tag text)

end InlineQuery.Yaml
