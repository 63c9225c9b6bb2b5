import InlineQuery.Proofs.Query.Reading

/-!
Reading the same tokens with other tokens behind them. Two readers of one construct run side by
side, until each has only its own rest left. They return the same as long as neither looks beyond
the shared tokens, or all it finds there is a token that could not go on with the construct. A
reader that goes into its own rest is lost: whatever it returns, it has not read the construct alone.
-/

namespace InlineQuery.Query

/-- Whether a token may go on with a definition that could also end before it. -/
def Lexeme.continues : Lexeme → Bool
  | mark _ | name "implements" => true
  | _ => false

namespace Cursor

/-- The tokens are all of a text that can be read to its end. -/
def IsReadable (s : Cursor) : Prop := ∃ t, s.ending = .ok t ∧ t.lexeme = .eof

theorem IsReadable.isSound {s : Cursor} (readable : s.IsReadable) : s.IsSound := by
  obtain ⟨t, ends, isEnd⟩ := readable
  intro u same
  cases ends.symm.trans same
  exact isEnd

end Cursor

/-- What stands behind the tokens that two readers share, and the size by which the second bounds
its lists. -/
structure Seam where
  rest : List Token
  rest' : List Token
  size : Nat

namespace Seam

/-- No token behind the shared ones continues what stands before it. -/
def IsQuiet (k : Seam) : Prop :=
  ∀ t, t ∈ k.rest.head? ∨ t ∈ k.rest'.head? → t.lexeme.continues = false

/-- What a reader has to know that may look at the rest: nothing if it need not be right then. -/
def Ends (k : Seam) (closed : Bool) : Prop := closed = true → k.IsQuiet

/-- Both readers have the same tokens before them, and then each its rest. -/
structure Agrees (k : Seam) (s t : Cursor) : Prop where
  shared : ∃ us us', s.tokens = us ++ k.rest ∧ t.tokens = us' ++ k.rest' ∧
    us.map (·.lexeme) = us'.map (·.lexeme)
  readable : s.IsReadable
  readable' : t.IsReadable
  fits : t.tokens.length < k.size

/-- The same tokens, with another bound. -/
def within (k : Seam) (size : Nat) : Seam := { k with size := size }

theorem Agrees.length {k : Seam} {s t : Cursor} (agrees : k.Agrees s t) :
    t.tokens.length + k.rest.length = s.tokens.length + k.rest'.length := by
  obtain ⟨us, us', tokens, tokens', same⟩ := agrees.shared
  have length := congrArg List.length same
  rw [List.length_map, List.length_map] at length
  rw [tokens, tokens', List.length_append, List.length_append]
  omega

theorem Agrees.resize {k : Seam} {s t : Cursor} (agrees : k.Agrees s t) {size : Nat}
    (fits : t.tokens.length < size) : (k.within size).Agrees s t :=
  ⟨agrees.shared, agrees.readable, agrees.readable', fits⟩

/-- The first reader is in its own rest, or, if it need not be closed, may also have looked at it. -/
def IsLost (k : Seam) (closed : Bool) (s : Cursor) : Prop :=
  s.tokens.length < k.rest.length + (if closed then 0 else 1)

theorem IsLost.of_lt {k : Seam} {s : Cursor} (lt : s.tokens.length < k.rest.length)
    (closed : Bool) : k.IsLost closed s := by
  unfold IsLost
  omega

theorem IsLost.of_le {k : Seam} {s : Cursor} (le : s.tokens.length ≤ k.rest.length) :
    k.IsLost false s := by
  unfold IsLost
  rw [if_neg Bool.false_ne_true]
  omega

theorem IsLost.mono {k : Seam} {closed : Bool} {s next : Cursor} (lost : k.IsLost closed s)
    (le : next.tokens.length ≤ s.tokens.length) : k.IsLost closed next := Nat.lt_of_le_of_lt le lost

/-- Behind a look at the rest, a reader that takes a token takes it from there. -/
theorem IsLost.close {k : Seam} {s next : Cursor} (lost : k.IsLost false s)
    (lt : next.tokens.length < s.tokens.length) (closed : Bool) : k.IsLost closed next := by
  unfold IsLost at lost
  rw [if_neg Bool.false_ne_true] at lost
  exact .of_lt (by omega) closed

end Seam

namespace Parser

variable {α β : Type} {k : Seam} {closed : Bool}

/-- Where `x` comes next, the parser never goes back when it succeeds. -/
def ShrinksAt (x : Token) (p : Parser α) : Prop :=
  ∀ ⦃s a next⦄, s.IsReadable → peek s = .ok (x, s) → p s = .ok (a, next) →
    next.IsReadable ∧ next.tokens.length ≤ s.tokens.length

/-- Where `x` comes next, it takes a token. -/
def ConsumesAt (x : Token) (p : Parser α) : Prop :=
  ∀ ⦃s a next⦄, s.IsReadable → peek s = .ok (x, s) → p s = .ok (a, next) →
    next.tokens.length < s.tokens.length

/-- When the first parser succeeds where `x` comes next, the second one does the same where `y`
comes next, unless the first is lost. -/
structure FrameAt (k : Seam) (closed : Bool) (x y : Token) (p q : Parser α) : Prop where
  shrinks : ShrinksAt x p
  goes : ∀ ⦃s t a next⦄, k.Agrees s t → peek s = .ok (x, s) → peek t = .ok (y, t) →
    p s = .ok (a, next) →
      (∃ next', q t = .ok (a, next') ∧ k.Agrees next next') ∨ k.IsLost closed next

/-- The same for a parser that always takes a token. -/
structure FirmAt (k : Seam) (closed : Bool) (x y : Token) (p q : Parser α) : Prop
    extends FrameAt k closed x y p q where
  consumes : ConsumesAt x p

/-- Whatever comes next. -/
def Frame (k : Seam) (closed : Bool) (p q : Parser α) : Prop := ∀ x y, FrameAt k closed x y p q

def Firm (k : Seam) (closed : Bool) (p q : Parser α) : Prop := ∀ x y, FirmAt k closed x y p q

theorem Firm.frame {p q : Parser α} (firm : Firm k closed p q) : Frame k closed p q :=
  fun x y => (firm x y).toFrameAt

theorem exists_peek {s : Cursor} (readable : s.IsReadable) : ∃ t, peek s = .ok (t, s) := by
  obtain ⟨t, ends, -⟩ := readable
  unfold peek
  split
  · exact ⟨_, rfl⟩
  · rw [ends]
    exact ⟨t, rfl⟩

section
variable {p q : Parser α} {f g : α → Parser β} {x y : Token}

theorem Frame.shrinks (frame : Frame k closed p q) {s next : Cursor} {a : α}
    (readable : s.IsReadable) (ran : p s = .ok (a, next)) :
    next.IsReadable ∧ next.tokens.length ≤ s.tokens.length := by
  obtain ⟨x, peeked⟩ := exists_peek readable
  exact (frame x x).shrinks readable peeked ran

theorem Frame.goes (frame : Frame k closed p q) {s t next : Cursor} {a : α} (agrees : k.Agrees s t)
    (ran : p s = .ok (a, next)) :
    (∃ next', q t = .ok (a, next') ∧ k.Agrees next next') ∨ k.IsLost closed next := by
  obtain ⟨x, peeked⟩ := exists_peek agrees.readable
  obtain ⟨y, peeked'⟩ := exists_peek agrees.readable'
  exact (frame x y).goes agrees peeked peeked' ran

theorem Firm.consumes (firm : Firm k closed p q) {s next : Cursor} {a : α}
    (readable : s.IsReadable) (ran : p s = .ok (a, next)) :
    next.tokens.length < s.tokens.length := by
  obtain ⟨x, peeked⟩ := exists_peek readable
  exact (firm x x).consumes readable peeked ran

theorem bind_of_ok {s next : Cursor} {a : α} (ran : p s = .ok (a, next)) :
    (p >>= f) s = f a next := by
  simp only [bind, StateT.bind, ran, Except.bind]

/-! ### One after the other -/

theorem ShrinksAt.bind (first : ShrinksAt x p) (second : ∀ a y, ShrinksAt y (f a)) :
    ShrinksAt x (p >>= f) := by
  intro s b next readable peeked ran
  obtain ⟨a, middle, ranFirst, ranSecond⟩ := bind_ok ran
  obtain ⟨readable, le⟩ := first readable peeked ranFirst
  obtain ⟨z, peeked⟩ := exists_peek readable
  obtain ⟨readable, le'⟩ := second a z readable peeked ranSecond
  exact ⟨readable, Nat.le_trans le' le⟩

theorem ConsumesAt.bind (first : ConsumesAt x p) (shrinks : ShrinksAt x p)
    (second : ∀ a y, ShrinksAt y (f a)) : ConsumesAt x (p >>= f) := by
  intro s b next readable peeked ran
  obtain ⟨a, middle, ranFirst, ranSecond⟩ := bind_ok ran
  have lt := first readable peeked ranFirst
  obtain ⟨readable, -⟩ := shrinks readable peeked ranFirst
  obtain ⟨z, peeked⟩ := exists_peek readable
  exact Nat.lt_of_le_of_lt (second a z readable peeked ranSecond).2 lt

theorem ShrinksAt.before (first : ShrinksAt x p) (second : ∀ a y, ConsumesAt y (f a)) :
    ConsumesAt x (p >>= f) := by
  intro s b next readable peeked ran
  obtain ⟨a, middle, ranFirst, ranSecond⟩ := bind_ok ran
  obtain ⟨readable, le⟩ := first readable peeked ranFirst
  obtain ⟨z, peeked⟩ := exists_peek readable
  exact Nat.lt_of_lt_of_le (second a z readable peeked ranSecond) le

/-- A reader that has been lost before a parser is lost behind it. `wide` says for what it had to be
closed before. -/
def KeepsLost (k : Seam) (wide closed : Bool) (p : Parser α) : Prop :=
  ∀ ⦃s a next⦄, s.IsReadable → p s = .ok (a, next) → k.IsLost wide s → k.IsLost closed next

theorem Frame.keepsLost (frame : Frame k closed p q) : KeepsLost k closed closed p :=
  fun _ _ _ readable ran lost => lost.mono (frame.shrinks readable ran).2

/-- It may have looked ahead before a parser that takes a token. -/
theorem Firm.keepsLost (firm : Firm k closed p q) : KeepsLost k false closed p :=
  fun _ _ _ readable ran lost => lost.close (firm.consumes readable ran) closed

/-- Behind a first parser the readers go on as the second one does, or the first reader stays
lost. -/
theorem goes_bind {wide : Bool} {s t next : Cursor} {b : β}
    (first : ∀ ⦃a middle⦄, p s = .ok (a, middle) → middle.IsReadable ∧
      ((∃ middle', q t = .ok (a, middle') ∧ k.Agrees middle middle') ∨ k.IsLost wide middle))
    (second : ∀ a, Frame k closed (f a) (g a)) (keeps : ∀ a, KeepsLost k wide closed (f a))
    (ran : (p >>= f) s = .ok (b, next)) :
    (∃ next', (q >>= g) t = .ok (b, next') ∧ k.Agrees next next') ∨ k.IsLost closed next := by
  obtain ⟨a, middle, ranFirst, ranSecond⟩ := bind_ok ran
  obtain ⟨readable, ⟨middle', ranFirst', agrees⟩ | lost⟩ := first ranFirst
  · rw [bind_of_ok ranFirst']
    exact (second a).goes agrees ranSecond
  · exact .inr (keeps a readable ranSecond lost)

theorem FrameAt.followed {wide : Bool} (first : FrameAt k wide x y p q)
    (second : ∀ a, Frame k closed (f a) (g a)) (keeps : ∀ a, KeepsLost k wide closed (f a)) :
    FrameAt k closed x y (p >>= f) (q >>= g) where
  shrinks := first.shrinks.bind fun a z => (second a z z).shrinks
  goes _ _ _ _ agrees peeked peeked' :=
    goes_bind (fun _ _ ran => ⟨(first.shrinks agrees.readable peeked ran).1,
      first.goes agrees peeked peeked' ran⟩) second keeps

theorem FrameAt.bind (first : FrameAt k closed x y p q) (second : ∀ a, Frame k closed (f a) (g a)) :
    FrameAt k closed x y (p >>= f) (q >>= g) :=
  first.followed second fun a => (second a).keepsLost

/-- A parser that may look ahead, before one that takes a token. -/
theorem FrameAt.before (first : FrameAt k false x y p q) (second : ∀ a, Firm k closed (f a) (g a)) :
    FirmAt k closed x y (p >>= f) (q >>= g) where
  toFrameAt := first.followed (fun a => (second a).frame) fun a => (second a).keepsLost
  consumes := first.shrinks.before fun a z => (second a z z).consumes

theorem FirmAt.bind (first : FirmAt k closed x y p q) (second : ∀ a, Frame k closed (f a) (g a)) :
    FirmAt k closed x y (p >>= f) (q >>= g) where
  toFrameAt := first.toFrameAt.bind second
  consumes := first.consumes.bind first.shrinks fun a z => (second a z z).shrinks

theorem Frame.bind (first : Frame k closed p q) (second : ∀ a, Frame k closed (f a) (g a)) :
    Frame k closed (p >>= f) (q >>= g) := fun x y => (first x y).bind second

theorem Frame.before (first : Frame k false p q) (second : ∀ a, Firm k closed (f a) (g a)) :
    Firm k closed (p >>= f) (q >>= g) := fun x y => (first x y).before second

theorem Firm.bind (first : Firm k closed p q) (second : ∀ a, Frame k closed (f a) (g a)) :
    Firm k closed (p >>= f) (q >>= g) := fun x y => (first x y).bind second

theorem Frame.pure {a : α} : Frame k closed (Pure.pure a) (Pure.pure a) := fun x y => {
  shrinks := fun s b next readable _ ran => by
    cases ran
    exact ⟨readable, Nat.le_refl _⟩
  goes := fun s t b next agrees _ _ ran => by
    cases ran
    exact .inl ⟨t, rfl, agrees⟩ }

/-- A parser that never succeeds. -/
theorem Firm.refuse (refuses : ∀ s a next, p s ≠ .ok (a, next)) : Firm k closed p q :=
  fun _ _ => {
    shrinks := fun s a next _ _ ran => absurd ran (refuses s a next)
    goes := fun s _ a next _ _ _ ran => absurd ran (refuses s a next)
    consumes := fun s a next _ _ ran => absurd ran (refuses s a next) }

theorem Firm.fail {position : Nat} {fault : Fault} : Firm k closed (fail position fault) q :=
  .refuse fun _ _ _ ran => by cases ran

theorem Firm.unexpectedToken {t : Token} : Firm k closed (unexpectedToken t) q := .fail

theorem Firm.unexpected : Firm k closed unexpected q := .refuse fun _ _ _ ran => by
  obtain ⟨_, _, -, ran⟩ := bind_ok ran
  cases ran

theorem Firm.tooDeep : Firm k closed tooDeep q := .refuse fun _ _ _ ran => by
  obtain ⟨_, _, -, ran⟩ := bind_ok ran
  cases ran

end

/-! ### Looking at the next token -/

theorem eq_of_peek {s : Cursor} {t x : Token} {ts : List Token} (isCons : s.tokens = t :: ts)
    (peeked : peek s = .ok (x, s)) : x = t := by
  unfold peek at peeked
  rw [isCons] at peeked
  cases peeked
  rfl

/-- Readers that agree see the same token, or each has only its rest. -/
theorem peeks_of_agrees {s t : Cursor} {x y : Token} (agrees : k.Agrees s t)
    (peeked : peek s = .ok (x, s)) (peeked' : peek t = .ok (y, t)) :
    x.lexeme = y.lexeme ∨ (s.tokens = k.rest ∧ t.tokens = k.rest') := by
  obtain ⟨us, us', tokens, tokens', same⟩ := agrees.shared
  match us, us', same with
  | [], [], _ => exact .inr ⟨tokens, tokens'⟩
  | u :: us, u' :: us', same =>
    rw [eq_of_peek tokens peeked, eq_of_peek tokens' peeked']
    exact .inl (List.cons.inj same).1

theorem continues_of_peek {s : Cursor} {x : Token} (readable : s.IsReadable)
    (peeked : peek s = .ok (x, s)) (quiet : ∀ t ∈ s.tokens.head?, t.lexeme.continues = false) :
    x.lexeme.continues = false := by
  rcases tokens_of_peek readable.isSound peeked with ⟨ts, isCons⟩ | ⟨-, -, isEnd⟩
  · exact quiet x (by rw [isCons]; rfl)
  · rw [isEnd]
    rfl

section
variable {f g : Token → Parser α}

theorem Frame.look (same : ∀ x y, x.lexeme = y.lexeme → FrameAt k false x y (f x) (g y)) :
    Frame k false (peek >>= f) (peek >>= g) := fun x y => {
  shrinks := fun s a next readable peeked ran => by
    rw [bind_of_ok peeked] at ran
    exact (same x x rfl).shrinks readable peeked ran
  goes := fun s t a next agrees peeked peeked' ran => by
    rw [bind_of_ok peeked] at ran
    rw [bind_of_ok peeked']
    rcases peeks_of_agrees agrees peeked peeked' with alike | ⟨atEnd, -⟩
    · exact (same x y alike).goes agrees peeked peeked' ran
    · have le := ((same x x rfl).shrinks agrees.readable peeked ran).2
      exact .inr (.of_le (by rwa [atEnd] at le)) }

/-- Where the next token may be the first of the rest, it has to be one that does not matter. -/
theorem Frame.peek (ends : k.Ends closed)
    (same : ∀ x y, x.lexeme = y.lexeme → FrameAt k closed x y (f x) (g y))
    (quiet : ∀ x y, x.lexeme.continues = false → y.lexeme.continues = false →
      FrameAt k closed x y (f x) (g y)) : Frame k closed (peek >>= f) (peek >>= g) := by
  cases closed with
  | false => exact .look same
  | true =>
    have isQuiet := ends rfl
    refine fun x y => {
      shrinks := fun s a next readable peeked ran => by
        rw [bind_of_ok peeked] at ran
        exact (same x x rfl).shrinks readable peeked ran
      goes := fun s t a next agrees peeked peeked' ran => by
        rw [bind_of_ok peeked] at ran
        rw [bind_of_ok peeked']
        rcases peeks_of_agrees agrees peeked peeked' with alike | ⟨atEnd, atEnd'⟩
        · exact (same x y alike).goes agrees peeked peeked' ran
        · have first := continues_of_peek agrees.readable peeked fun t member =>
            isQuiet t (.inl (atEnd ▸ member))
          have second := continues_of_peek agrees.readable' peeked' fun t member =>
            isQuiet t (.inr (atEnd' ▸ member))
          exact (quiet x y first second).goes agrees peeked peeked' ran }

/-- Where it is known what comes next. -/
theorem FirmAt.peek {x y : Token} (next : FirmAt k closed x y (f x) (g y)) :
    FirmAt k closed x y (peek >>= f) (peek >>= g) where
  shrinks s a next' readable peeked ran := by
    rw [bind_of_ok peeked] at ran
    exact next.shrinks readable peeked ran
  consumes s a next' readable peeked ran := by
    rw [bind_of_ok peeked] at ran
    exact next.consumes readable peeked ran
  goes s t a next' agrees peeked peeked' ran := by
    rw [bind_of_ok peeked] at ran
    rw [bind_of_ok peeked']
    exact next.goes agrees peeked peeked' ran

theorem Firm.peek (same : ∀ x y, x.lexeme = y.lexeme → FirmAt k closed x y (f x) (g y)) :
    Firm k closed (peek >>= f) (peek >>= g) := fun x y => {
  shrinks := fun s a next readable peeked ran => by
    rw [bind_of_ok peeked] at ran
    exact (same x x rfl).shrinks readable peeked ran
  consumes := fun s a next readable peeked ran => by
    rw [bind_of_ok peeked] at ran
    exact (same x x rfl).consumes readable peeked ran
  goes := fun s t a next agrees peeked peeked' ran => by
    rw [bind_of_ok peeked] at ran
    rw [bind_of_ok peeked']
    rcases peeks_of_agrees agrees peeked peeked' with alike | ⟨atEnd, -⟩
    · exact (same x y alike).goes agrees peeked peeked' ran
    · have lt := (same x x rfl).consumes agrees.readable peeked ran
      exact .inr (.of_lt (by rwa [atEnd] at lt) closed) }

end

theorem advance_ok {s next : Cursor} {x : Token} (readable : s.IsReadable)
    (peeked : Parser.peek s = .ok (x, s)) (notEnd : x.lexeme ≠ .eof)
    (ran : advance s = .ok ((), next)) : ∃ ts, s.tokens = x :: ts ∧ next = ⟨ts, s.ending, x.stop⟩ := by
  obtain ⟨ts, isCons⟩ | ⟨-, -, isEnd⟩ := tokens_of_peek readable.isSound peeked
  · refine ⟨ts, isCons, ?_⟩
    obtain ⟨t, ends, -⟩ := readable
    unfold advance at ran
    rw [isCons] at ran
    dsimp only at ran
    rw [ends] at ran ⊢
    split at ran <;> cases ran <;> rfl
  · exact absurd isEnd notEnd

theorem advance_cons {s : Cursor} {t : Token} {ts : List Token} (readable : s.IsReadable)
    (isCons : s.tokens = t :: ts) : advance s = .ok ((), ⟨ts, s.ending, t.stop⟩) := by
  obtain ⟨u, ends, -⟩ := readable
  unfold advance
  rw [isCons]
  dsimp only
  rw [ends]
  split <;> rfl

/-- Takes the token that comes next. -/
theorem FirmAt.advance {x y : Token} {f g : Unit → Parser α} (notEnd : x.lexeme ≠ .eof)
    (second : Frame k closed (f ()) (g ())) :
    FirmAt k closed x y (Parser.advance >>= f) (Parser.advance >>= g) := by
  have took {s next : Cursor} {a : α} (readable : s.IsReadable)
      (peeked : Parser.peek s = .ok (x, s)) (ran : (Parser.advance >>= f) s = .ok (a, next)) :
      next.IsReadable ∧ next.tokens.length < s.tokens.length := by
    obtain ⟨_, middle, ranFirst, ranSecond⟩ := bind_ok ran
    obtain ⟨ts, isCons, rfl⟩ := advance_ok readable peeked notEnd ranFirst
    have advanced : Cursor.IsReadable ⟨ts, s.ending, x.stop⟩ := readable
    obtain ⟨readable, le⟩ := second.shrinks advanced ranSecond
    rw [isCons]
    exact ⟨readable, Nat.lt_succ_of_le le⟩
  exact {
    shrinks := fun s a next readable peeked ran =>
      ⟨(took readable peeked ran).1, Nat.le_of_lt (took readable peeked ran).2⟩
    consumes := fun s a next readable peeked ran => (took readable peeked ran).2
    goes := fun s t a next agrees peeked peeked' ran => by
      obtain ⟨us, us', tokens, tokens', same⟩ := agrees.shared
      match us, us', same with
      | [], [], _ =>
        have lt := (took agrees.readable peeked ran).2
        rw [tokens] at lt
        exact .inr (.of_lt lt closed)
      | u :: us, u' :: us', same =>
        obtain ⟨_, middle, ranFirst, ranSecond⟩ := bind_ok ran
        obtain ⟨ts, isCons, rfl⟩ := advance_ok agrees.readable peeked notEnd ranFirst
        cases tokens.symm.trans isCons
        rw [bind_of_ok (advance_cons agrees.readable' tokens')]
        have fits := agrees.fits
        rw [tokens', List.length_append, List.length_cons] at fits
        have advanced : k.Agrees ⟨us ++ k.rest, s.ending, x.stop⟩ ⟨us' ++ k.rest', t.ending, u'.stop⟩ :=
          { shared := ⟨us, us', rfl, rfl, (List.cons.inj same).2⟩
            readable := agrees.readable
            readable' := agrees.readable'
            fits := by
              rw [List.length_append]
              omega }
        exact second.goes advanced ranSecond }

/-! ### Smaller bounds -/

section
variable {p q : Parser α} {f g : α → Parser β} {x y : Token} {size : Nat}

theorem FrameAt.within (frame : FrameAt k closed x y p q) (le : size ≤ k.size) :
    FrameAt (k.within size) closed x y p q where
  shrinks := frame.shrinks
  goes s t a next agrees peeked peeked' ran := by
    have larger : k.Agrees s t :=
      ⟨agrees.shared, agrees.readable, agrees.readable', Nat.lt_of_lt_of_le agrees.fits le⟩
    refine (frame.goes larger peeked peeked' ran).imp_left fun ⟨next', ran', agrees'⟩ => ?_
    refine ⟨next', ran', agrees'.resize ?_⟩
    have before := larger.length
    have after := agrees'.length
    have shrinks := (frame.shrinks agrees.readable peeked ran).2
    have fits : t.tokens.length < size := agrees.fits
    omega

theorem Frame.within (frame : Frame k closed p q) (le : size ≤ k.size) :
    Frame (k.within size) closed p q := fun x y => (frame x y).within le

theorem Firm.within (firm : Firm k closed p q) (le : size ≤ k.size) :
    Firm (k.within size) closed p q :=
  fun x y => { toFrameAt := (firm x y).toFrameAt.within le, consumes := (firm x y).consumes }

/-- Nothing is shared where nothing fits. -/
theorem Frame.at_zero {k' : Seam} {closed' : Bool} {q' : Parser α} (frame : Frame k' closed' p q') :
    Frame (k.within 0) closed p q := fun x _ => {
  shrinks := (frame x x).shrinks
  goes := fun _ _ _ _ agrees => absurd agrees.fits (Nat.not_lt_zero _) }

theorem Firm.at_zero {k' : Seam} {closed' : Bool} {q' : Parser α} (firm : Firm k' closed' p q') :
    Firm (k.within 0) closed p q := fun x y => {
  toFrameAt := firm.frame.at_zero x y
  consumes := (firm x x).consumes }

/-- A parser that takes a token leaves room for fewer. -/
theorem FirmAt.goes_within (firm : FirmAt (k.within (size + 1)) closed x y p q) {s t next : Cursor}
    {a : α} (agrees : (k.within (size + 1)).Agrees s t) (peeked : Parser.peek s = .ok (x, s))
    (peeked' : Parser.peek t = .ok (y, t)) (ran : p s = .ok (a, next)) :
    (∃ next', q t = .ok (a, next') ∧ (k.within size).Agrees next next') ∨
      (k.within size).IsLost closed next := by
  refine (firm.goes agrees peeked peeked' ran).imp_left fun ⟨next', ran', agrees'⟩ => ?_
  refine ⟨next', ran', agrees'.resize (k := k.within (size + 1)) ?_⟩
  have before := agrees.length
  have after := agrees'.length
  have consumes := firm.consumes agrees.readable peeked ran
  have fits : t.tokens.length < size + 1 := agrees.fits
  omega

theorem FirmAt.followed_within {wide : Bool} (first : FirmAt (k.within (size + 1)) wide x y p q)
    (second : ∀ a, Frame (k.within size) closed (f a) (g a))
    (keeps : ∀ a, KeepsLost (k.within size) wide closed (f a)) :
    FirmAt (k.within (size + 1)) closed x y (p >>= f) (q >>= g) where
  shrinks := first.shrinks.bind fun a z => (second a z z).shrinks
  consumes := first.consumes.bind first.shrinks fun a z => (second a z z).shrinks
  goes _ _ _ _ agrees peeked peeked' ran := by
    have goes := goes_bind (fun _ _ ranFirst => ⟨(first.shrinks agrees.readable peeked ranFirst).1,
      first.goes_within agrees peeked peeked' ranFirst⟩) second keeps ran
    refine goes.imp_left fun ⟨next', ran', agrees'⟩ => ⟨next', ran', ?_⟩
    exact agrees'.resize (Nat.lt_succ_of_lt agrees'.fits)

theorem FirmAt.bind_within (first : FirmAt (k.within (size + 1)) closed x y p q)
    (second : ∀ a, Frame (k.within size) closed (f a) (g a)) :
    FirmAt (k.within (size + 1)) closed x y (p >>= f) (q >>= g) :=
  first.followed_within second fun a => (second a).keepsLost

theorem FirmAt.before_within (first : FirmAt (k.within (size + 1)) false x y p q)
    (second : ∀ a, Firm (k.within size) closed (f a) (g a)) :
    FirmAt (k.within (size + 1)) closed x y (p >>= f) (q >>= g) :=
  first.followed_within (fun a => (second a).frame) fun a => (second a).keepsLost

theorem Firm.bind_within (first : Firm (k.within (size + 1)) closed p q)
    (second : ∀ a, Frame (k.within size) closed (f a) (g a)) :
    Firm (k.within (size + 1)) closed (p >>= f) (q >>= g) := fun x y => (first x y).bind_within second

theorem Firm.before_within (first : Firm (k.within (size + 1)) false p q)
    (second : ∀ a, Firm (k.within size) closed (f a) (g a)) :
    Firm (k.within (size + 1)) closed (p >>= f) (q >>= g) :=
  fun x y => (first x y).before_within second

end

end Parser

end InlineQuery.Query
