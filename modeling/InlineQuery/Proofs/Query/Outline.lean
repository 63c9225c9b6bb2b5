import InlineQuery.Proofs.Query.Reading

/-!
What of a definition shows from outside: the tokens that no brackets enclose, which of them read
like a keyword, and how the definition begins and ends.
-/

namespace InlineQuery.Query

/-- The tokens outside all brackets. -/
def outside (depth : Nat) : List Token → List Token
  | [] => []
  | t :: ts =>
    if t.lexeme.opens then outside (depth + 1) ts
    else if t.lexeme.closes then outside (depth - 1) ts
    else if depth = 0 then t :: outside 0 ts
    else outside depth ts

/-- Whether a token reads like the start of a definition. A name right behind the sign of a
directive does not. -/
def isLoose (before t : Token) : Bool :=
  t.lexeme.isKeyword && !(before.lexeme == .mark .at && before.stop == t.start)

/-- Whether a token behind the first reads like the start of a definition. -/
def hasLooseKeyword : List Token → Bool
  | before :: t :: ts => isLoose before t || hasLooseKeyword (t :: ts)
  | _ => false

theorem outside_plain {t : Token} (plain : t.lexeme.isBracket = false) (ts : List Token) :
    outside 0 (t :: ts) = t :: outside 0 ts := by
  obtain ⟨opens, closes⟩ := Bool.or_eq_false_iff.mp plain
  rw [outside, opens, closes]
  rfl

theorem outside_nested {inner : List Token} (nested : IsNested inner) (depth : Nat)
    (ts : List Token) : outside (depth + 1) (inner ++ ts) = outside (depth + 1) ts := by
  induction nested generalizing depth ts with
  | nil => rfl
  | cons opens closes _ ih =>
    rw [List.cons_append, outside, opens, closes]
    exact ih depth ts
  | group opens _ closes _ inside after =>
    rw [List.cons_append, outside, opens, List.append_assoc, if_pos rfl, inside, List.cons_append,
      outside, Lexeme.opens_of_closes closes, closes, if_neg Bool.false_ne_true, if_pos rfl]
    exact after depth ts

theorem outside_group {opening closing : Punctuator} {group : List Token}
    (isGroup : IsGroup opening closing group) (opens : (Lexeme.mark opening).opens = true)
    (closes : (Lexeme.mark closing).closes = true) (ts : List Token) :
    outside 0 (group ++ ts) = outside 0 ts := by
  obtain ⟨first, inner, last, rfl, isFirst, nested, isLast⟩ := isGroup
  rw [← isFirst] at opens
  rw [← isLast] at closes
  rw [List.cons_append, outside, opens, List.append_assoc, if_pos rfl, outside_nested nested,
    List.singleton_append, outside, Lexeme.opens_of_closes closes, closes,
    if_neg Bool.false_ne_true, if_pos rfl]

theorem IsHeader.outside_append {header : List Token} (isHeader : IsHeader header)
    (ts : List Token) : outside 0 (header ++ ts) = outside 0 header ++ outside 0 ts := by
  induction isHeader with
  | nil => rfl
  | @name t _ _ isName _ ih =>
    have plain : t.lexeme.isBracket = false := by rw [isName]; rfl
    rw [List.cons_append, outside_plain plain, outside_plain plain, ih, List.cons_append]
  | @sign t _ isSign _ ih =>
    have plain : t.lexeme.isBracket = false := by
      simp only [List.mem_cons, List.not_mem_nil, or_false] at isSign
      rcases isSign with same | same | same <;> rw [same] <;> rfl
    rw [List.cons_append, outside_plain plain, outside_plain plain, ih, List.cons_append]
  | @directive sign t _ _ isSign isName _ ih =>
    have plainSign : sign.lexeme.isBracket = false := by rw [isSign]; rfl
    have plain : t.lexeme.isBracket = false := by rw [isName]; rfl
    simp only [List.cons_append, outside_plain plainSign, outside_plain plain, ih]
  | arguments isGroup _ ih =>
    rw [List.append_assoc, outside_group isGroup rfl rfl, outside_group isGroup rfl rfl, ih]

/-- Whether the last token closes a block. -/
def endsInBlock (ts : List Token) : Bool := ts.getLast?.any (·.lexeme == .mark .braceR)

theorem endsInBlock_append {ts us : List Token} (more : us ≠ []) :
    endsInBlock (ts ++ us) = endsInBlock us := by
  rw [endsInBlock, endsInBlock, List.getLast?_append, List.getLast?_eq_some_getLast more]
  rfl

theorem IsGroup.endsInBlock {opening closing : Punctuator} {group : List Token}
    (isGroup : IsGroup opening closing group) :
    Query.endsInBlock group = (Lexeme.mark closing == .mark .braceR) := by
  obtain ⟨first, inner, last, rfl, -, -, isLast⟩ := isGroup
  rw [← List.cons_append, endsInBlock_append (List.cons_ne_nil _ _), ← isLast]
  rfl

theorem IsHeader.endsInBlock {header : List Token} (isHeader : IsHeader header) :
    Query.endsInBlock header = false := by
  have step {t : Token} {ts : List Token} (first : (t.lexeme == .mark .braceR) = false)
      (later : Query.endsInBlock ts = false) : Query.endsInBlock (t :: ts) = false := by
    by_cases more : ts = []
    · rw [more]
      exact first
    · rw [← List.singleton_append, endsInBlock_append more, later]
  induction isHeader with
  | nil => rfl
  | name isName _ ih => exact step (by rw [isName]; rfl) ih
  | sign isSign _ ih =>
    simp only [List.mem_cons, List.not_mem_nil, or_false] at isSign
    rcases isSign with same | same | same <;> exact step (by rw [same]; rfl) ih
  | directive isSign isName _ ih =>
    exact step (by rw [isSign]; rfl) (step (by rw [isName]; rfl) ih)
  | @arguments group ts isGroup _ ih =>
    by_cases more : ts = []
    · rw [more, List.append_nil, isGroup.endsInBlock]
      rfl
    · rw [endsInBlock_append more, ih]

theorem isLoose_of_ne {before : Token} (notAt : before.lexeme ≠ .mark .at) (t : Token) :
    isLoose before t = t.lexeme.isKeyword := by
  rw [isLoose, beq_false_of_ne notAt, Bool.false_and, Bool.not_false, Bool.and_true]

/-- Every token that comes before all brackets is one that the splitter sees. -/
def StartsPlain : List Token → Prop
  | [] => True
  | t :: ts => t.lexeme.isBracket = true ∨ t.lexeme.isInner = false ∧ StartsPlain ts

theorem StartsPlain.tail {t : Token} {ts : List Token} (starts : StartsPlain (t :: ts))
    (plain : t.lexeme.isBracket = false) : StartsPlain ts := by
  rcases starts with isBracket | ⟨-, later⟩
  · rw [plain] at isBracket
    cases isBracket
  · exact later

theorem not_isInner_of_startsPlain {run rest : List Token} (starts : StartsPlain (run ++ rest))
    (plain : ∀ t ∈ run, t.lexeme.isBracket = false) : ∀ t ∈ run, t.lexeme.isInner = false := by
  induction run with
  | nil => nofun
  | cons t run ih =>
    obtain ⟨first, others⟩ := List.forall_mem_cons.mp plain
    rcases starts with isBracket | ⟨notInner, later⟩
    · rw [first] at isBracket
      cases isBracket
    · exact List.forall_mem_cons.mpr ⟨notInner, ih later others⟩

theorem IsGroup.startsPlain {opening closing : Punctuator} {ts : List Token} (rest : List Token)
    (opens : (Lexeme.mark opening).opens = true) (group : IsGroup opening closing ts) :
    StartsPlain (ts ++ rest) := by
  obtain ⟨first, inner, last, rfl, isFirst, -⟩ := group
  exact .inl (by rw [isFirst, Lexeme.isBracket, opens, Bool.true_or])

theorem IsHeader.startsPlain {header rest : List Token} (isHeader : IsHeader header)
    (later : StartsPlain rest) : StartsPlain (header ++ rest) := by
  induction isHeader with
  | nil => exact later
  | name isName _ ih => exact .inr ⟨by rw [isName]; rfl, ih⟩
  | sign isSign _ ih =>
    simp only [List.mem_cons, List.not_mem_nil, or_false] at isSign
    rcases isSign with same | same | same <;> exact .inr ⟨by rw [same]; rfl, ih⟩
  | directive isSign isName _ ih =>
    exact .inr ⟨by rw [isSign]; rfl, .inr ⟨by rw [isName]; rfl, ih⟩⟩
  | arguments isGroup _ _ => rw [List.append_assoc]; exact isGroup.startsPlain _ rfl

theorem IsBody.startsPlain {body rest : List Token} (isBody : IsBody body)
    (later : StartsPlain rest) : StartsPlain (body ++ rest) := by
  obtain ⟨header, block, rfl, isHeader, isBlock⟩ := isBody
  rw [List.append_assoc]
  refine isHeader.startsPlain ?_
  rcases isBlock with rfl | isGroup
  · exact later
  · exact isGroup.startsPlain _ rfl

theorem Lexeme.not_isInner_of_isKeyword {lexeme : Lexeme} (isKeyword : lexeme.isKeyword = true) :
    lexeme.isInner = false := by
  obtain ⟨text, rfl⟩ := name_of_isKeyword isKeyword
  rfl

theorem IsDefinition.startsPlain {part rest : List Token} (isDefinition : IsDefinition part)
    (later : StartsPlain rest) : StartsPlain (part ++ rest) := by
  cases isDefinition with
  | shorthand isGroup => exact isGroup.startsPlain _ rfl
  | plain isKeyword _ isBody =>
    exact .inr ⟨Lexeme.not_isInner_of_isKeyword isKeyword, isBody.startsPlain later⟩
  | @described description _ _ isString isKeyword _ isBody =>
    refine .inr ⟨?_, .inr ⟨Lexeme.not_isInner_of_isKeyword isKeyword, isBody.startsPlain later⟩⟩
    cases lexeme : description.lexeme <;> rw [lexeme] at isString <;> cases isString <;> rfl
  | extension isExtend isKeyword _ isBody =>
    exact .inr ⟨by rw [isExtend]; rfl,
      .inr ⟨Lexeme.not_isInner_of_isKeyword isKeyword, isBody.startsPlain later⟩⟩

theorem startsPlain_flatten {parts : List (List Token)} (all : ∀ p ∈ parts, IsDefinition p) :
    StartsPlain parts.flatten := by
  induction parts with
  | nil => trivial
  | cons p parts ih =>
    obtain ⟨first, rest⟩ := List.forall_mem_cons.mp all
    exact first.startsPlain (ih rest)

/-! ### How a definition begins and where it lies -/

def isDescribed (ts : List Token) : Bool := ts.head?.any (·.lexeme.isString)

/-- Whether some tokens are the mere selections of a query. -/
def isShorthand (ts : List Token) : Bool := ts.head?.any (·.lexeme == .mark .braceL)

theorem IsGroup.isDescribed {ts : List Token} (isGroup : IsGroup .braceL .braceR ts) :
    Query.isDescribed ts = false := by
  obtain ⟨first, inner, last, rfl, isFirst, -⟩ := isGroup
  rw [Query.isDescribed, List.head?_cons, Option.any_some, isFirst]
  rfl

theorem IsGroup.isShorthand {ts : List Token} (isGroup : IsGroup .braceL .braceR ts) :
    Query.isShorthand ts = true := by
  obtain ⟨first, inner, last, rfl, isFirst, -⟩ := isGroup
  rw [Query.isShorthand, List.head?_cons, Option.any_some, isFirst]
  rfl

/-- What stands in the open from the keyword on, behind a description or the word that introduces an
extension. -/
def fromKeyword (ts : List Token) : List Token :=
  (outside 0 ts).dropWhile fun t => t.lexeme.isString || t.lexeme == .name "extend"

/-- Whether the start of a definition can be told from the one before it: it has no description, and
selections without a keyword follow a block. -/
def isSeparate (before ts : List Token) : Bool :=
  !isDescribed ts && (!isShorthand ts || endsInBlock before)

def startOf (ts : List Token) : Nat := (ts.head?.map (·.start)).getD 0

def spanOf (ts : List Token) : Span := ⟨startOf ts, lastStop 0 ts⟩

theorem Lexeme.not_isString_of_isKeyword {lexeme : Lexeme} (isKeyword : lexeme.isKeyword = true) :
    lexeme.isString = false := by
  obtain ⟨text, rfl⟩ := name_of_isKeyword isKeyword
  rfl

theorem Lexeme.not_isBracket_of_isKeyword {lexeme : Lexeme} (isKeyword : lexeme.isKeyword = true) :
    lexeme.isBracket = false := by
  obtain ⟨text, rfl⟩ := name_of_isKeyword isKeyword
  rfl

theorem fromKeyword_key {key : Token} (isKeyword : key.lexeme.isKeyword = true)
    (introduces : key.lexeme ≠ .name "extend") (body : List Token) :
    fromKeyword (key :: body) = key :: outside 0 body := by
  rw [fromKeyword, outside_plain (Lexeme.not_isBracket_of_isKeyword isKeyword),
    List.dropWhile_cons_of_neg (by
      simp [Lexeme.not_isString_of_isKeyword isKeyword, introduces])]

theorem fromKeyword_cons {t : Token} (opening : t.lexeme.isString = true ∨
    t.lexeme = .name "extend") (ts : List Token) : fromKeyword (t :: ts) = fromKeyword ts := by
  have plain : t.lexeme.isBracket = false := by
    rcases opening with isString | isExtend
    · exact Lexeme.isBracket_of_isString isString
    · rw [isExtend]; rfl
  rw [fromKeyword, outside_plain plain, List.dropWhile_cons_of_pos (by simpa using opening),
    fromKeyword]

theorem endsInBlock_key {key : Token} (isKeyword : key.lexeme.isKeyword = true)
    (body : List Token) : endsInBlock (key :: body) = endsInBlock body := by
  by_cases more : body = []
  · obtain ⟨text, isName⟩ := Lexeme.name_of_isKeyword isKeyword
    rw [more, endsInBlock, List.getLast?_singleton, Option.any_some, isName]
    rfl
  · rw [← List.singleton_append, endsInBlock_append more]

end InlineQuery.Query
