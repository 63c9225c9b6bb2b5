import InlineQuery.Proofs.Yaml.Plain

/-!
The tokens inside brackets. There indentation does not count, and a token that might have started a
key is given up without a fault.
-/

namespace InlineQuery

/-- What a list of entries holds after one was put is that one's value or was held before. -/
theorem Assoc.of_mem_put {α β : Type} [BEq α] {entries : List (α × β)} {key : α} {value : β}
    {e : α × β} (member : e ∈ put entries key value) : e ∈ entries ∨ e.2 = value := by
  unfold put at member
  split at member
  · obtain ⟨before, held, rfl⟩ := List.mem_map.mp member
    split
    · exact .inr rfl
    · exact .inl held
  · rcases List.mem_append.mp member with held | single
    · exact .inl held
    · rw [List.mem_singleton.mp single]
      exact .inr rfl

namespace Yaml.Layout

open Json (Quotation)

variable {s t u : Layout} {r : List Char}

/-- No block collection is open, no key has to follow, and the text has not ended. -/
structure IsCalm (s : Layout) : Prop where
  free : s.indents = []
  going : s.isDone = false
  optional : ∀ e ∈ s.keys, e.2.isRequired = false

/-- Behind the spacing the next token is read from the second state. -/
structure Nears (s t : Layout) : Prop where
  reads : (toNextToken s.place.rest.length s).dropStale = .ok t
  stays : t.unwind (some t.column) = t
  calm : t.IsCalm
  left : t.place.rest = ahead s.place.rest
  tokens : t.tokens = s.tokens
  depth : t.depth = s.depth
  allowsKey : s.allowsKey = true → t.allowsKey = true

theorem exists_toNextToken {fuel : Nat} (enough : s.place.rest.length ≤ fuel)
    (visible : ∀ c ∈ (ahead s.place.rest).head?, c ≠ '#' ∧ isBreak c = false) :
    ∃ p allows, toNextToken fuel s = { s with place := p, allowsKey := allows } ∧
      p.rest = ahead s.place.rest ∧ (s.allowsKey = true → allows = true) := by
  induction fuel generalizing s with
  | zero =>
    have nothing : s.place.rest = [] := List.eq_nil_of_length_eq_zero (Nat.le_zero.mp enough)
    exact ⟨s.place, s.allowsKey, rfl, by rw [nothing]; rfl, id⟩
  | succ fuel ih =>
    rcases Place.lineEnd?_skipSpaces (fun c first => (visible c first).2) with
      ⟨ended, behind⟩ | ⟨ended, behind, same⟩
    · have notComment : s.place.skipSpaces.peek? ≠ some '#' := by
        intro comment
        rw [Place.peek?, behind] at comment
        exact (visible '#' comment).1 rfl
      exact ⟨s.place.skipSpaces, s.allowsKey, by simp only [toNextToken, if_neg notComment, ended],
        behind, id⟩
    · have notComment : s.place.skipSpaces.peek? ≠ some '#' := by
        rw [Place.peek?, behind]
        simp
      have shorter : s.place.skipSpaces.next.rest.length ≤ fuel := by
        have length := (Place.Reaches.skipSpaces s.place).length_le
        rw [behind, List.length_cons] at length
        omega
      obtain ⟨p, allows, reads, left, grows⟩ := ih
        (s := { s with place := s.place.skipSpaces.next, allowsKey := s.allowsKey || !s.isFlow })
        shorter (by rw [same]; exact visible)
      refine ⟨p, allows, ?_, left.trans same, fun already => grows (by simp [already])⟩
      simp only [toNextToken, if_neg notComment, ended]
      exact reads

theorem IsCalm.dropStale (calm : IsCalm s) :
    s.dropStale = .ok { s with keys := s.keys.filter fun (_, k) => !s.isStale k } := by
  have optional : (s.keys.any fun (_, k) => s.isStale k && k.isRequired) = false := by
    rw [List.any_eq_false]
    intro e member
    simp [calm.optional e member]
  rw [Layout.dropStale, optional]
  rfl

theorem unwind_of_free (free : s.indents = []) (column : Option Nat) : s.unwind column = s := by
  unfold unwind
  split
  · rfl
  · simp [free]
    rw [← free]

/-- A state behind the spacing without the keys that are stale there. -/
def fresh (s : Layout) (p : Place) (allows : Bool) : Layout :=
  { s with
    place := p
    allowsKey := allows
    keys := s.keys.filter fun (_, k) => !{ s with place := p, allowsKey := allows }.isStale k }

theorem IsCalm.nears (calm : IsCalm s) {p : Place} {allows : Bool}
    (reads : toNextToken s.place.rest.length s = { s with place := p, allowsKey := allows })
    (left : p.rest = ahead s.place.rest) (grows : s.allowsKey = true → allows = true) :
    Nears s (s.fresh p allows) := by
  have passed : IsCalm { s with place := p, allowsKey := allows } :=
    ⟨calm.free, calm.going, calm.optional⟩
  have free : (s.fresh p allows).indents = [] := calm.free
  exact ⟨(congrArg Layout.dropStale reads).trans passed.dropStale, unwind_of_free free _,
    ⟨calm.free, calm.going, fun e member => calm.optional e (List.mem_filter.mp member).1⟩, left, rfl,
    rfl, grows⟩

/-- From a calm state the next token can be read. -/
theorem IsCalm.exists_nears (calm : IsCalm s) {cs : List Char} (starts : ahead s.place.rest = cs)
    (visible : ∀ c ∈ cs.head?, c ≠ '#' ∧ isBreak c = false) :
    ∃ t, Nears s t ∧ t.place.rest = cs := by
  obtain ⟨p, allows, reads, left, grows⟩ :=
    exists_toNextToken (Nat.le_refl _) (by rw [starts]; exact visible)
  exact ⟨_, calm.nears reads left grows, left.trans starts⟩

/-! ### What a calm state does with the next token -/

/-- A token that might have started a key is given up. -/
theorem IsCalm.exists_forgetKey (calm : IsCalm s) :
    ∃ keys, s.forgetKey = .ok { s with keys := keys } ∧ ∀ e ∈ keys, e.2.isRequired = false := by
  unfold forgetKey
  cases held : Assoc.get? s.keys s.depth with
  | none => exact ⟨s.keys, rfl, calm.optional⟩
  | some k =>
    obtain ⟨e, found, rfl⟩ := Option.map_eq_some_iff.mp held
    have optional := calm.optional e (List.mem_of_find?_eq_some found)
    exact ⟨Assoc.erase s.keys s.depth, by simp [optional],
      fun e member => calm.optional e (List.mem_filter.mp member).1⟩

/-- The token that is read next, should it start a key. -/
def nextKey (s : Layout) : SimpleKey where
  before := s.tokens.length
  isRequired := false
  index := s.place.index
  line := s.place.line
  column := s.column

/-- Where a key may stand, the next token is noted for one. -/
theorem IsCalm.exists_noteKey (calm : IsCalm s) :
    ∃ keys, s.noteKey = .ok { s with keys := keys } ∧ (∀ e ∈ keys, e.2.isRequired = false) ∧
      (s.allowsKey = true → Assoc.get? keys s.depth = some s.nextKey) := by
  unfold noteKey
  by_cases allowed : s.allowsKey = true
  · obtain ⟨keys, forgets, optional⟩ := calm.exists_forgetKey
    have required : (!s.isFlow && s.indents.head? == some s.column) = false := by
      simp [calm.free]
    refine ⟨Assoc.put keys s.depth s.nextKey, ?_, fun e member => ?_, fun _ => ?_⟩
    · rw [if_neg (by simp [allowed]), forgets]
      change Except.ok _ = _
      simp only [isFlow, column] at required ⊢
      simp only [required]
      rfl
    · rcases Assoc.of_mem_put member with held | noted
      · exact optional e held
      · rw [noted]
        rfl
    · rw [Assoc.get?_put]
      simp
  · exact ⟨s.keys, by rw [if_pos (by simp [allowed])], calm.optional, fun h => absurd h allowed⟩

/-! ### Which token comes next -/

/-- The brackets that open a collection, with their tokens. -/
def openings : List (Char × Token) := [('[', .flowSequenceStart), ('\x7b', .flowMappingStart)]

/-- The brackets that close one. -/
def closings : List (Char × Token) := [(']', .flowSequenceEnd), ('\x7d', .flowMappingEnd)]

/-- A text that starts like a word or a number does. -/
def StartsWord (cs : List Char) : Prop :=
  ∃ c r, cs = c :: r ∧ (c.isAlphanum = true ∨ c = '-' ∧ ∃ d ∈ r.head?, d.isDigit = true)

section Step

variable (near : Nears s t)

include near

theorem step_opening {c : Char} {token : Token} (opens : (c, token) ∈ openings)
    (starts : t.place.rest = c :: r) : s.step = t.openFlow token := by
  simp only [openings, List.mem_cons, List.not_mem_nil, or_false, Prod.mk.injEq] at opens
  rcases opens with ⟨rfl, rfl⟩ | ⟨rfl, rfl⟩ <;>
    simp [step, near.reads, near.stays, starts, Place.atMark, bind, Except.bind]

theorem step_closing {c : Char} {token : Token} (closes : (c, token) ∈ closings)
    (starts : t.place.rest = c :: r) : s.step = t.closeFlow token := by
  simp only [closings, List.mem_cons, List.not_mem_nil, or_false, Prod.mk.injEq] at closes
  rcases closes with ⟨rfl, rfl⟩ | ⟨rfl, rfl⟩ <;>
    simp [step, near.reads, near.stays, starts, Place.atMark, bind, Except.bind]

theorem step_flowEntry (starts : t.place.rest = ',' :: r) : s.step = t.flowEntry := by
  simp [step, near.reads, near.stays, starts, Place.atMark, bind, Except.bind]

theorem step_valueMark (inside : t.isFlow = true) (starts : t.place.rest = ':' :: r) :
    s.step = t.valueMark := by
  simp [step, near.reads, near.stays, starts, inside, Place.atMark, bind, Except.bind]

theorem step_quotedScalar (starts : t.place.rest = '"' :: r) : s.step = t.quotedScalar '"' := by
  simp [step, near.reads, near.stays, starts, Place.atMark, bind, Except.bind]

theorem step_finish (ended : t.place.rest = []) : s.step = t.finish := by
  simp [step, near.reads, near.stays, ended, bind, Except.bind]

theorem step_plainScalar (starts : StartsWord t.place.rest) : s.step = t.plainScalar := by
  obtain ⟨c, r, starts, alphanumeric | ⟨rfl, d, first, digit⟩⟩ := starts
  · have apart (m : Char) (other : m.isAlphanum = false) : c ≠ m := by
      rintro rfl
      rw [alphanumeric] at other
      cases other
    have plain : startsPlain t.isFlow c r.head? = true := by
      have marks : ("-?:,[]\x7b\x7d#&*!|>'\"%@\x60".toList.all fun m => !m.isAlphanum) = true := by
        decide
      have noMark : "-?:,[]\x7b\x7d#&*!|>'\"%@\x60".toList.contains c = false := by
        rw [List.contains_eq_mem, decide_eq_false_iff_not]
        exact fun member => apart c (by simpa using List.all_eq_true.mp marks c member) rfl
      have visible : isSpacing c = false := by
        simp [isSpacing, isBreak, apart ' ' rfl, apart '\t' rfl, apart '\n' rfl, apart '\x85' rfl,
          apart '\u2028' rfl, apart '\u2029' rfl]
      rw [startsPlain, noMark, visible]
      rfl
    have noMark (m : Char) (other : m.isAlphanum = false) : t.place.atMark m = false := by
      simp [Place.atMark, starts, (apart m other).symm]
    simp [step, near.reads, near.stays, starts, noMark, plain, bind, Except.bind, apart]
  · obtain ⟨r, rfl⟩ := List.head?_eq_some_iff.mp first
    have apart (m : Char) (other : m.isDigit = false) : d ≠ m := by
      rintro rfl
      rw [digit] at other
      cases other
    have visible : isSpacing d = false := by
      simp [isSpacing, isBreak, apart ' ' rfl, apart '\t' rfl, apart '\n' rfl, apart '\x85' rfl,
        apart '\u2028' rfl, apart '\u2029' rfl]
    simp [step, near.reads, near.stays, starts, Place.atMark, bind, Except.bind, Place.isGap, visible,
      startsPlain, (apart '-' rfl).symm]

end Step

/-! ### What reading leads to -/

/-- Whether reading from one state comes to another. Every token takes a character. -/
def Leads (s u : Layout) : Prop :=
  ∃ n, n + u.place.rest.length ≤ s.place.rest.length ∧ ∀ fuel, run (n + fuel) s = run fuel u

theorem Leads.refl (s : Layout) : Leads s s := ⟨0, by omega, fun fuel => by rw [Nat.zero_add]⟩

theorem Leads.trans (first : Leads s t) (second : Leads t u) : Leads s u := by
  obtain ⟨m, shorter, goes⟩ := first
  obtain ⟨n, shorter', goes'⟩ := second
  exact ⟨m + n, by omega, fun fuel => by rw [Nat.add_assoc, goes, goes']⟩

theorem Leads.of_step (calm : s.IsCalm) (steps : s.step = .ok u)
    (shorter : u.place.rest.length < s.place.rest.length) : Leads s u :=
  ⟨1, by omega, fun fuel => by rw [Nat.add_comm, run, calm.going, steps]; rfl⟩

/-- Reading these tokens leads to a calm state at a depth and ahead of a text. -/
structure Passes (s : Layout) (ts : List Token) (depth : Nat) (r : List Char) (u : Layout) : Prop where
  leads : Leads s u
  calm : u.IsCalm
  tokens : u.tokens = ts.reverse ++ s.tokens
  depth : u.depth = depth
  left : ahead u.place.rest = ahead r

theorem Passes.refl (calm : s.IsCalm) (left : ahead s.place.rest = ahead r) :
    Passes s [] s.depth r s :=
  ⟨.refl s, calm, rfl, rfl, left⟩

theorem Passes.trans {ts more : List Token} {m n : Nat} {r' : List Char} (first : Passes s ts m r t)
    (second : Passes t more n r' u) : Passes s (ts ++ more) n r' u where
  leads := first.leads.trans second.leads
  calm := second.calm
  tokens := by rw [second.tokens, first.tokens, List.reverse_append, List.append_assoc]
  depth := second.depth
  left := second.left

theorem length_ahead_le (cs : List Char) : (ahead cs).length ≤ cs.length :=
  (List.dropWhile_suffix _).length_le

/-- A step reads a token. -/
theorem Nears.passes {token : Token} (near : Nears s t) (calm : s.IsCalm) (steps : s.step = .ok u)
    (next : u.IsCalm) (tokens : u.tokens = token :: t.tokens) (left : ahead u.place.rest = ahead r)
    (shorter : u.place.rest.length < t.place.rest.length) : Passes s [token] u.depth r u where
  leads := .of_step calm steps (Nat.lt_of_lt_of_le shorter (near.left ▸ length_ahead_le _))
  calm := next
  tokens := by rw [tokens, near.tokens]; rfl
  depth := rfl
  left := left

theorem exists_opening (calm : s.IsCalm) {c : Char} {token : Token} (opens : (c, token) ∈ openings)
    (starts : ahead s.place.rest = c :: r) :
    ∃ u, Passes s [token] (s.depth + 1) r u ∧ u.allowsKey = true := by
  have visible : ∀ e ∈ openings, e.1 ≠ '#' ∧ isBreak e.1 = false := by decide
  obtain ⟨t, near, here⟩ := calm.exists_nears starts (by rintro _ ⟨⟩; exact visible _ opens)
  obtain ⟨keys, notes, optional, _⟩ := near.calm.exists_noteKey
  have steps := step_opening near opens here
  rw [openFlow, notes] at steps
  have passes := near.passes (r := r) calm steps ⟨near.calm.free, near.calm.going, optional⟩ rfl
    (by simp [here]) (by simp [here])
  rw [← near.depth]
  exact ⟨_, passes, rfl⟩

theorem exists_closing (calm : s.IsCalm) {depth : Nat} (inside : s.depth = depth + 1) {c : Char}
    {token : Token} (closes : (c, token) ∈ closings) (starts : ahead s.place.rest = c :: r) :
    ∃ u, Passes s [token] depth r u := by
  have visible : ∀ e ∈ closings, e.1 ≠ '#' ∧ isBreak e.1 = false := by decide
  obtain ⟨t, near, here⟩ := calm.exists_nears starts (by rintro _ ⟨⟩; exact visible _ closes)
  obtain ⟨keys, forgets, optional⟩ := near.calm.exists_forgetKey
  have steps := step_closing near closes here
  have deep : t.depth = depth + 1 := near.depth.trans inside
  have notOut : ¬ t.depth = 0 := by omega
  simp only [closeFlow, forgets, bind, Except.bind, notOut, if_false] at steps
  have passes := near.passes (r := r) calm steps ⟨near.calm.free, near.calm.going, optional⟩ rfl
    (by simp [here]) (by simp [here])
  have outer : t.depth - 1 = depth := by omega
  exact ⟨_, outer ▸ passes⟩

theorem exists_flowEntry (calm : s.IsCalm) (starts : ahead s.place.rest = ',' :: r) :
    ∃ u, Passes s [.flowEntry] s.depth r u ∧ u.allowsKey = true := by
  obtain ⟨t, near, here⟩ := calm.exists_nears starts (by rintro _ ⟨⟩; decide)
  obtain ⟨keys, forgets, optional⟩ := near.calm.exists_forgetKey
  have steps := step_flowEntry near here
  rw [flowEntry, forgets] at steps
  have passes := near.passes (r := r) calm steps ⟨near.calm.free, near.calm.going, optional⟩ rfl
    (by simp [here]) (by simp [here])
  rw [← near.depth]
  exact ⟨_, passes, rfl⟩

theorem isFlow_of_ne (inside : s.depth ≠ 0) : s.isFlow = true := by
  simp [isFlow, inside]

/-- Inside brackets a word is a plain scalar. -/
theorem exists_word (calm : s.IsCalm) (inside : s.depth ≠ 0) {cs : List Char}
    (word : Scalar.IsWord cs) (begins : StartsWord cs) (starts : ahead s.place.rest = cs ++ r)
    (stops : Stops r) : ∃ u, Passes s [.scalar (String.ofList cs) true] s.depth r u := by
  obtain ⟨c, tail, rfl, shape⟩ := begins
  have visible := word.plain c (List.mem_cons_self ..)
  have notBreak : isBreak c = false := by
    have both := visible.1
    rw [isSpacing, Bool.or_eq_false_iff] at both
    exact both.2
  obtain ⟨t, near, here⟩ := calm.exists_nears starts (by
    rintro _ ⟨⟩
    exact ⟨visible.2.2.2, notBreak⟩)
  have flow : t.isFlow = true := isFlow_of_ne (near.depth.trans_ne inside)
  obtain ⟨keys, notes, optional, _⟩ := near.calm.exists_noteKey
  obtain ⟨broken, q, reads, left⟩ := Scalar.plain_word word here stops t.contentColumn
  have starts : StartsWord t.place.rest := by
    refine ⟨c, tail ++ r, here, ?_⟩
    rcases shape with alphanumeric | ⟨dash, d, first, digit⟩
    · exact .inl alphanumeric
    · refine .inr ⟨dash, d, ?_, digit⟩
      rw [List.head?_append, first]
      rfl
  have steps := step_plainScalar near starts
  have content : { t with keys := keys }.contentColumn = t.contentColumn := rfl
  have isFlow : { t with keys := keys }.isFlow = true := flow
  simp only [plainScalar, notes, bind, Except.bind, isFlow, content, reads] at steps
  have shorter : q.rest.length < t.place.rest.length := by
    have := length_ahead_le r
    rw [left, here, List.length_append, List.length_cons]
    omega
  have passes := near.passes (r := r) calm steps ⟨near.calm.free, near.calm.going, optional⟩ rfl
    ((congrArg ahead left).trans (ahead_ahead r)) shorter
  rw [← near.depth]
  exact ⟨_, passes⟩

/-- A portable string is a token, which is noted for a key where one may stand. -/
theorem exists_quotedScalar (calm : s.IsCalm) {q : Quotation} (portable : q.IsPortable)
    (starts : ahead s.place.rest = q.text ++ r) :
    ∃ t u, Nears s t ∧ t.place.rest = q.text ++ r ∧ s.step = .ok u ∧ u.IsCalm ∧
      u.tokens = .scalar q.value false :: s.tokens ∧ u.depth = s.depth ∧
      u.place = t.place.skip q.text.length ∧
      (s.allowsKey = true → Assoc.get? u.keys s.depth = some t.nextKey) := by
  obtain ⟨t, near, here⟩ := calm.exists_nears starts (by rintro _ ⟨⟩; decide)
  obtain ⟨keys, notes, optional, noted⟩ := near.calm.exists_noteKey
  have steps := step_quotedScalar near here
  simp only [quotedScalar, word, notes, bind, Except.bind, Scalar.quoted_text portable here,
    Except.map] at steps
  refine ⟨t, _, near, here, steps, ⟨near.calm.free, near.calm.going, optional⟩, ?_, near.depth, rfl,
    fun allows => ?_⟩
  · rw [push, near.tokens]
    rfl
  · rw [← near.depth]
    exact noted (near.allowsKey allows)

theorem length_text_pos (q : Quotation) : 0 < q.text.length := by simp [Quotation.text]

theorem exists_quoted (calm : s.IsCalm) {q : Quotation} (portable : q.IsPortable)
    (starts : ahead s.place.rest = q.text ++ r) :
    ∃ u, Passes s [.scalar q.value false] s.depth r u := by
  obtain ⟨t, u, near, here, steps, next, tokens, depth, place, _⟩ :=
    exists_quotedScalar calm portable starts
  have left : u.place.rest = r := by rw [place, Place.rest_skip, here, List.drop_left]
  have shorter : u.place.rest.length < t.place.rest.length := by
    have := length_text_pos q
    rw [left, here, List.length_append]
    omega
  rw [← depth]
  exact ⟨u, near.passes calm steps next (by rw [tokens, near.tokens]) (by rw [left]) shorter⟩

/-- Text on one line leads to a place on the same line. -/
theorem skip_inline {p : Place} {cs : List Char} (starts : p.rest = cs ++ r)
    (inline : ∀ c ∈ cs, isBreak c = false) :
    (p.skip cs.length).line = p.line ∧ (p.skip cs.length).index = p.index + cs.length := by
  induction cs generalizing p with
  | nil => exact ⟨rfl, rfl⟩
  | cons c cs ih =>
    have here := inline c (List.mem_cons_self ..)
    have next : p.next.line = p.line ∧ p.next.index = p.index + 1 := by
      simp [Place.next, starts, here]
    obtain ⟨line, index⟩ := ih (p := p.next) (by simp [starts])
      fun c member => inline c (List.mem_cons_of_mem _ member)
    exact ⟨line.trans next.1, by rw [List.length_cons, Place.skip, index, next.2]; omega⟩

/-- The colon behind a string that was noted for a key makes it one. -/
theorem valueMark_of_noted {k : SimpleKey} {token : Token} {tokens : List Token}
    (inside : s.isFlow = true) (noted : Assoc.get? s.keys s.depth = some k)
    (held : s.tokens = token :: tokens) (before : k.before = tokens.length) :
    s.valueMark = .ok { s with
      keys := Assoc.erase s.keys s.depth
      allowsKey := false
      tokens := .value :: token :: .key :: tokens
      place := s.place.next } := by
  have size : tokens.length + 1 - k.before = 1 := by omega
  have flow : (!decide (s.depth ≠ 0)) = false := by rw [Bool.not_eq_false']; exact inside
  simp only [valueMark, noted, insertAt, held, List.length_cons, size, isFlow, flow, Bool.false_and,
    Bool.false_eq_true, if_false]
  rfl

theorem get?_filter {α β : Type} [BEq α] {entries : List (α × β)} {key : α} {value : β}
    {f : α × β → Bool} (found : Assoc.get? entries key = some value)
    (kept : ∀ e : α × β, e.2 = value → f e = true) :
    Assoc.get? (entries.filter f) key = some value := by
  obtain ⟨e, first, rfl⟩ := Option.map_eq_some_iff.mp found
  obtain ⟨isKey, before, behind, rfl, apart⟩ := List.find?_eq_some_iff_append.mp first
  have later : (before.filter f).find? (fun e => e.1 == key) = none := by
    rw [List.find?_eq_none]
    intro other member
    simpa using apart other (List.mem_filter.mp member).1
  simp [Assoc.get?, List.filter_append, kept e rfl, List.find?_append, later, isKey]

/-- The token that was noted is a key if a colon follows on its line and not too far away. -/
theorem exists_colon (calm : s.IsCalm) (inside : s.depth ≠ 0) {k : SimpleKey} {token : Token}
    {tokens : List Token} (noted : Assoc.get? s.keys s.depth = some k)
    (held : s.tokens = token :: tokens) (before : k.before = tokens.length)
    {gap : List Char} (spaces : ∀ c ∈ gap, c = ' ') (left : s.place.rest = gap ++ ':' :: r)
    (line : k.line = s.place.line) (short : s.place.index + gap.length ≤ k.index + Json.keyLimit) :
    ∃ u, s.step = .ok u ∧ u.IsCalm ∧ u.tokens = .value :: token :: .key :: tokens ∧
      u.depth = s.depth ∧ u.place.rest = r := by
  have spaced : s.place.rest.takeWhile (· == ' ') = gap := by
    rw [left, List.takeWhile_append_of_pos (by simpa using spaces)]
    simp
  have skipped : s.place.skipSpaces = s.place.skip gap.length := by
    rw [Place.skipSpaces, Place.snd_span, spaced]
  have colon : (s.place.skip gap.length).rest = ':' :: r := by
    rw [Place.rest_skip, left, List.drop_left]
  have notComment : (s.place.skip gap.length).peek? ≠ some '#' := by
    rw [Place.peek?, colon]
    simp
  have notEnd : (s.place.skip gap.length).lineEnd? = none := by
    refine Place.lineEnd?_eq_none ?_
    rw [colon]
    rintro _ ⟨⟩
    decide
  have reads : toNextToken s.place.rest.length s =
      { s with place := s.place.skip gap.length, allowsKey := s.allowsKey } := by
    rw [left, List.length_append, List.length_cons, ← Nat.add_assoc, toNextToken]
    simp only [skipped, if_neg notComment, notEnd]
  have blank : ahead s.place.rest = ':' :: r := by
    have all : ∀ c ∈ gap, isBlank c = true := fun c member => by simp [isBlank, spaces c member]
    rw [left, ahead, List.dropWhile_append_of_pos all]
    rfl
  obtain ⟨sameLine, index⟩ := skip_inline left fun c member => by rw [spaces c member]; rfl
  have near := calm.nears reads (colon.trans blank.symm) id
  have current : Assoc.get? (s.fresh (s.place.skip gap.length) s.allowsKey).keys s.depth = some k := by
    refine get?_filter noted fun e same => ?_
    have inReach : ¬ k.index + 1024 < (s.place.skip gap.length).index := by
      rw [index]
      exact Nat.not_lt.mpr short
    simp [isStale, same, sameLine, line, inReach]
  generalize s.fresh (s.place.skip gap.length) s.allowsKey = t at near current
  have flow : t.isFlow = true := isFlow_of_ne (near.depth.trans_ne inside)
  have here := near.left.trans blank
  have steps := step_valueMark near flow here
  rw [valueMark_of_noted flow (by rw [near.depth]; exact current) (near.tokens.trans held) before]
    at steps
  exact ⟨_, steps, ⟨near.calm.free, near.calm.going, fun e member =>
    near.calm.optional e (List.mem_filter.mp member).1⟩, rfl, near.depth, by simp [here]⟩

/-- A string with a colon behind it on its line and not too far away is a key. -/
theorem exists_key (calm : s.IsCalm) (inside : s.depth ≠ 0) (allows : s.allowsKey = true)
    {q : Quotation} (portable : q.IsPortable) (inline : ∀ c ∈ q.text, isBreak c = false)
    {gap : List Char} (spaces : ∀ c ∈ gap, c = ' ')
    (short : q.text.length + gap.length ≤ Json.keyLimit)
    (starts : ahead s.place.rest = q.text ++ (gap ++ ':' :: r)) :
    ∃ u, Passes s [.key, .scalar q.value false, .value] s.depth r u := by
  obtain ⟨t, u, near, here, steps, calm', tokens, depth, place, noted⟩ :=
    exists_quotedScalar calm portable starts
  have left : u.place.rest = gap ++ ':' :: r := by rw [place, Place.rest_skip, here, List.drop_left]
  obtain ⟨line, index⟩ := skip_inline here inline
  rw [← place] at line index
  obtain ⟨v, steps', calm'', tokens', depth', left'⟩ := exists_colon calm' (depth.trans_ne inside)
    (k := t.nextKey) (by rw [depth]; exact noted allows) tokens (by rw [← near.tokens]; rfl) spaces left
    line.symm (by rw [index]; exact (Nat.add_assoc ..).trans_le (Nat.add_le_add_left short _))
  have shorter : u.place.rest.length < s.place.rest.length := by
    have enough := length_ahead_le s.place.rest
    have := length_text_pos q
    rw [starts, List.length_append] at enough
    rw [left]
    omega
  have shorter' : v.place.rest.length < u.place.rest.length := by
    rw [left', left, List.length_append, List.length_cons]
    omega
  exact ⟨v, (Leads.of_step calm steps shorter).trans (.of_step calm' steps' shorter'), calm'', tokens',
    depth'.trans depth, by rw [left']⟩

end Yaml.Layout

end InlineQuery
