import InlineQuery.Literal.Definitions
import InlineQuery.Query.Lexer

/-!
How the tokens of a definition are laid out, as far as brackets and keywords go. Everything inside
brackets is only known to have matching brackets.
-/

namespace InlineQuery.Query

namespace Lexeme

def opens : Lexeme → Bool
  | mark .parenL | mark .bracketL | mark .braceL => true
  | _ => false

def closes : Lexeme → Bool
  | mark .parenR | mark .bracketR | mark .braceR => true
  | _ => false

def isString : Lexeme → Bool
  | string _ | blockString _ => true
  | _ => false

/-- Whether a token occurs in brackets only and is cut otherwise by the splitter. -/
def isInner : Lexeme → Bool
  | mark .dollar | mark .spread | int _ | float _ => true
  | _ => false

def isBracket (lexeme : Lexeme) : Bool := lexeme.opens || lexeme.closes

/-- Whether a token is a name that reads like the start of a definition. -/
def isKeyword : Lexeme → Bool
  | name text => Definitions.keywords.contains text.toList
  | _ => false

theorem name_of_isKeyword {lexeme : Lexeme} (isKeyword : lexeme.isKeyword = true) :
    ∃ text, lexeme = name text := by
  cases lexeme with
  | name text => exact ⟨text, rfl⟩
  | _ => cases isKeyword

theorem ne_at_of_name {lexeme : Lexeme} {text : String} (isName : lexeme = name text) :
    lexeme ≠ mark .at := by
  rw [isName]
  nofun

theorem opens_of_closes {lexeme : Lexeme} (isClosing : lexeme.closes = true) :
    lexeme.opens = false := by
  unfold closes at isClosing
  split at isClosing <;> first | rfl | cases isClosing

theorem isBracket_of_isString {lexeme : Lexeme} (string : lexeme.isString = true) :
    lexeme.isBracket = false := by
  unfold isString at string
  split at string <;> first | rfl | cases string

end Lexeme

/-- Tokens in which every bracket that opens is closed. -/
inductive IsNested : List Token → Prop
  | nil : IsNested []
  | cons {t : Token} {ts : List Token} (opens : t.lexeme.opens = false)
      (closes : t.lexeme.closes = false) (rest : IsNested ts) : IsNested (t :: ts)
  | group {first last : Token} {inner ts : List Token} (opens : first.lexeme.opens = true)
      (inside : IsNested inner) (closes : last.lexeme.closes = true) (rest : IsNested ts) :
      IsNested (first :: (inner ++ last :: ts))

/-- A pair of brackets with what lies between them. -/
def IsGroup (opening closing : Punctuator) (ts : List Token) : Prop :=
  ∃ first inner last, ts = first :: (inner ++ [last]) ∧ first.lexeme = .mark opening ∧
    IsNested inner ∧ last.lexeme = .mark closing

/-- What may stand between the keyword of a definition and its block: names, signs, directives and
arguments. -/
inductive IsHeader : List Token → Prop
  | nil : IsHeader []
  | name {t : Token} {text : String} {ts : List Token} (isName : t.lexeme = .name text)
      (rest : IsHeader ts) : IsHeader (t :: ts)
  | sign {t : Token} {ts : List Token}
      (isSign : t.lexeme ∈ [Lexeme.mark .equals, .mark .pipe, .mark .amp]) (rest : IsHeader ts) :
      IsHeader (t :: ts)
  | directive {sign t : Token} {text : String} {ts : List Token}
      (isSign : sign.lexeme = .mark .at) (isName : t.lexeme = .name text) (rest : IsHeader ts) :
      IsHeader (sign :: t :: ts)
  | arguments {group ts : List Token} (isGroup : IsGroup .parenL .parenR group)
      (rest : IsHeader ts) : IsHeader (group ++ ts)

/-- What follows the keyword of a definition. Its block comes last and may be missing. -/
def IsBody (ts : List Token) : Prop :=
  ∃ header block, ts = header ++ block ∧ IsHeader header ∧
    (block = [] ∨ IsGroup .braceL .braceR block)

/-- A keyword, which may follow a description or the word that introduces an extension, and what
belongs to it; or the mere selections of a query. -/
inductive IsDefinition : List Token → Prop
  | shorthand {ts : List Token} (isGroup : IsGroup .braceL .braceR ts) : IsDefinition ts
  | plain {key : Token} {body : List Token} (isKeyword : key.lexeme.isKeyword = true)
      (introduces : key.lexeme ≠ .name "extend") (isBody : IsBody body) :
      IsDefinition (key :: body)
  | described {description key : Token} {body : List Token}
      (isString : description.lexeme.isString = true) (isKeyword : key.lexeme.isKeyword = true)
      (introduces : key.lexeme ≠ .name "extend") (isBody : IsBody body) :
      IsDefinition (description :: key :: body)
  | extension {extend key : Token} {body : List Token} (isExtend : extend.lexeme = .name "extend")
      (isKeyword : key.lexeme.isKeyword = true) (introduces : key.lexeme ≠ .name "extend")
      (isBody : IsBody body) : IsDefinition (extend :: key :: body)

theorem IsNested.append {us vs : List Token} (first : IsNested us) (second : IsNested vs) :
    IsNested (us ++ vs) := by
  induction first with
  | nil => exact second
  | cons opens closes _ ih => exact .cons opens closes ih
  | group opens inside closes _ _ ih =>
    rw [List.cons_append, List.append_assoc, List.cons_append]
    exact .group opens inside closes ih

theorem IsGroup.isNested {opening closing : Punctuator} {ts : List Token}
    (opens : (Lexeme.mark opening).opens = true) (closes : (Lexeme.mark closing).closes = true)
    (group : IsGroup opening closing ts) : IsNested ts := by
  obtain ⟨first, inner, last, rfl, isFirst, inside, isLast⟩ := group
  exact .group (by rw [isFirst, opens]) inside (by rw [isLast, closes]) .nil

theorem IsHeader.append {us vs : List Token} (first : IsHeader us) (second : IsHeader vs) :
    IsHeader (us ++ vs) := by
  induction first with
  | nil => exact second
  | name isName _ ih => exact .name isName ih
  | sign isSign _ ih => exact .sign isSign ih
  | directive isSign isName _ ih => exact .directive isSign isName ih
  | arguments isGroup _ ih => rw [List.append_assoc]; exact .arguments isGroup ih

theorem IsHeader.isNested {ts : List Token} (header : IsHeader ts) : IsNested ts := by
  induction header with
  | nil => exact .nil
  | name isName _ ih => exact .cons (by rw [isName]; rfl) (by rw [isName]; rfl) ih
  | sign isSign _ ih =>
    simp only [List.mem_cons, List.not_mem_nil, or_false] at isSign
    rcases isSign with same | same | same <;> exact .cons (by rw [same]; rfl) (by rw [same]; rfl) ih
  | directive isSign isName _ ih =>
    exact .cons (by rw [isSign]; rfl) (by rw [isSign]; rfl)
      (.cons (by rw [isName]; rfl) (by rw [isName]; rfl) ih)
  | arguments isGroup _ ih => exact (isGroup.isNested rfl rfl).append ih

theorem IsBody.append {header body : List Token} (first : IsHeader header) (second : IsBody body) :
    IsBody (header ++ body) := by
  obtain ⟨rest, block, rfl, isHeader, isBlock⟩ := second
  exact ⟨header ++ rest, block, by rw [List.append_assoc], first.append isHeader, isBlock⟩

theorem IsDefinition.ne_nil {ts : List Token} (isDefinition : IsDefinition ts) : ts ≠ [] := by
  cases isDefinition with
  | shorthand isGroup =>
    obtain ⟨first, inner, last, rfl, -⟩ := isGroup
    exact List.cons_ne_nil _ _
  | _ => exact List.cons_ne_nil _ _

end InlineQuery.Query
