import InlineQuery.Text.Markup
import Mathlib.Data.List.TakeWhile

/-!
Markup around escaped text. Text that is escaped reads as text again, so markup fails only by its
own tags.
-/

namespace InlineQuery.Text.Markup

/-- A character that brackets a tag. -/
def isBracket (c : Char) : Bool := c == '[' || c == ']'

namespace Tag

variable {c : Char} {cs inner rest : List Char} {t : Tag}

/-- Backslashes before a tag are counted. -/
theorem read?_backslash :
    read? ('\\' :: cs) = (read? cs).map fun t => { t with backslashes := t.backslashes + 1 } := by
  have counted : ('\\' :: cs).takeWhile (· == '\\') = '\\' :: cs.takeWhile (· == '\\') := rfl
  unfold read?
  rw [counted, List.length_cons]
  dsimp only
  rw [List.drop_succ_cons]
  split
  · split
    · split <;> rfl
    · rfl
  · rfl

/-- Without a backslash or an opening bracket no tag starts. -/
theorem read?_plain (slash : c ≠ '\\') (bracket : c ≠ '[') : read? (c :: cs) = none := by
  have counted : (c :: cs).takeWhile (· == '\\') = [] :=
    List.takeWhile_cons_of_neg (by simpa using slash)
  unfold read?
  rw [counted, List.length_nil]
  dsimp only
  rw [List.drop_zero]
  split
  · rename_i same
    cases same
    exact absurd rfl bracket
  · rfl

/-- The inside of a tag: it starts with a character that may, and holds no bracket. -/
def IsInner : List Char → Prop
  | [] => False
  | c :: r => startsTag c = true ∧ ∀ d ∈ r, isBracket d = false

theorem isBracket_of_startsTag (starts : startsTag c = true) : isBracket c = false := by
  refine Bool.eq_false_iff.mpr fun bracket => ?_
  rcases (by simpa [isBracket] using bracket : c = '[' ∨ c = ']') with rfl | rfl
  · cases starts
  · cases starts

theorem IsInner.isBracket (isInner : IsInner inner) : ∀ d ∈ inner, isBracket d = false := by
  cases inner with
  | nil => exact isInner.elim
  | cons c r =>
    rintro d (_ | ⟨_, member⟩)
    · exact isBracket_of_startsTag isInner.1
    · exact isInner.2 d member

/-- A tag without backslashes is what stands between two brackets. -/
theorem read?_bracket : read? ('[' :: cs) = some t ↔
    ∃ inner rest, cs = inner ++ ']' :: rest ∧ IsInner inner ∧ t = ⟨0, inner⟩ := by
  have counted : ('[' :: cs).takeWhile (· == '\\') = [] := rfl
  have isOther : ∀ d, (d != '[' && d != ']') = true ↔ Markup.isBracket d = false := by
    simp [Markup.isBracket]
  unfold read?
  rw [counted, List.length_nil]
  dsimp only
  rw [List.drop_zero]
  constructor
  · intro read
    split at read
    · rename_i c r same
      cases same
      split at read
      · rename_i rest behind
        split at read
        · rename_i starts
          cases read
          have whole := List.prefix_iff_eq_append.mp
            (List.takeWhile_prefix (l := r) fun d => d != '[' && d != ']')
          rw [behind] at whole
          refine ⟨c :: r.takeWhile fun d => d != '[' && d != ']', rest, ?_, ?_, rfl⟩
          · rw [List.cons_append, whole]
          · exact ⟨starts, fun d member =>
              (isOther d).mp (List.all_eq_true.mp List.all_takeWhile d member)⟩
        · cases read
      · cases read
    · cases read
  · rintro ⟨inner, rest, rfl, isInner, rfl⟩
    cases inner with
    | nil => exact isInner.elim
    | cons c r =>
      obtain ⟨starts, others⟩ := isInner
      have taken : (r ++ ']' :: rest).takeWhile (fun d => d != '[' && d != ']') = r := by
        rw [List.takeWhile_append_of_pos fun d member => (isOther d).mpr (others d member)]
        simp
      simp only [List.cons_append, taken, List.drop_left, starts, if_true]

end Tag

section Escaping

variable {c : Char} {cs rest suffix inner before : List Char} {t : Tag} {position skip : Nat}

/-- A tag of a text, with its backslashes, and what follows it. -/
theorem exists_of_read? (read : Tag.read? cs = some t) : ∃ rest,
    cs = List.replicate t.backslashes '\\' ++ (t.text ++ rest) ∧ Tag.IsInner t.inner := by
  induction cs generalizing t with
  | nil => cases read
  | cons c r ih =>
    by_cases slash : c = '\\'
    · subst slash
      rw [Tag.read?_backslash] at read
      obtain ⟨u, behind, rfl⟩ := Option.map_eq_some_iff.mp read
      obtain ⟨rest, rfl, isInner⟩ := ih behind
      exact ⟨rest, rfl, isInner⟩
    · by_cases bracket : c = '['
      · subst bracket
        obtain ⟨inner, rest, rfl, isInner, rfl⟩ := Tag.read?_bracket.mp read
        exact ⟨rest, by simp [Tag.text], isInner⟩
      · rw [Tag.read?_plain slash bracket] at read
        cases read

theorem read?_replicate (n : Nat) (rest : List Char) (isInner : Tag.IsInner inner) :
    Tag.read? (List.replicate n '\\' ++ ('[' :: inner ++ [']'] ++ rest)) = some ⟨n, inner⟩ := by
  induction n with
  | zero => exact Tag.read?_bracket.mpr ⟨inner, rest, by simp, isInner, rfl⟩
  | succ n ih =>
    rw [List.replicate_succ, List.cons_append, Tag.read?_backslash, ih]
    rfl

theorem escapeFrom_skip (skipped rest : List Char) :
    escapeFrom skipped.length (skipped ++ rest) = escapeFrom 0 rest := by
  induction skipped with
  | nil => rfl
  | cons c r ih => exact ih

theorem piecesFrom_skip (before : List Char) (position : Nat) (skipped rest : List Char) :
    piecesFrom before position skipped.length (skipped ++ rest) =
      piecesFrom before (position + skipped.length) 0 rest := by
  induction skipped generalizing position with
  | nil => rfl
  | cons c r ih =>
    rw [List.length_cons, List.cons_append, piecesFrom, ih, Nat.add_assoc, Nat.add_comm 1]

/-- A tag with its backslashes is one character and what is skipped behind it. -/
theorem exists_cons_tag (t : Tag) : ∃ c r, List.replicate t.backslashes '\\' ++ t.text = c :: r ∧
    r.length = t.length - 1 := by
  obtain ⟨c, r, same⟩ := List.exists_cons_of_ne_nil
    (l := List.replicate t.backslashes '\\' ++ t.text) (by simp [Tag.text])
  refine ⟨c, r, same, ?_⟩
  have length := congrArg List.length same
  simp only [List.length_append, List.length_replicate, Tag.text, List.length_cons,
    List.length_nil] at length
  rw [Tag.length]
  omega

/-- A tag is escaped by twice its backslashes and one more. -/
theorem escapeFrom_tag (isInner : Tag.IsInner t.inner) :
    escapeFrom 0 (List.replicate t.backslashes '\\' ++ (t.text ++ rest)) =
      List.replicate (2 * t.backslashes + 1) '\\' ++ (t.text ++ escapeFrom 0 rest) := by
  have read := read?_replicate t.backslashes rest isInner
  obtain ⟨c, r, same, length⟩ := exists_cons_tag t
  rw [← Tag.text, ← List.append_assoc, same, List.cons_append] at read
  rw [← List.append_assoc, same, List.cons_append, escapeFrom]
  simp only [read]
  rw [← length, escapeFrom_skip, List.append_assoc]

/-- A tag is read as the pieces that it stands for. -/
theorem piecesFrom_tag (before : List Char) (position : Nat) (rest : List Char)
    (isInner : Tag.IsInner t.inner) :
    piecesFrom before position 0 (List.replicate t.backslashes '\\' ++ (t.text ++ rest)) =
      flush before ++ tagPieces t position ++ piecesFrom [] (position + t.length) 0 rest := by
  have read := read?_replicate t.backslashes rest isInner
  obtain ⟨c, r, same, length⟩ := exists_cons_tag t
  rw [← Tag.text, ← List.append_assoc, same, List.cons_append] at read
  rw [← List.append_assoc, same, List.cons_append, piecesFrom]
  simp only [read]
  have one : 1 ≤ t.length := by rw [Tag.length]; omega
  rw [← length, piecesFrom_skip, length, Nat.add_assoc, Nat.add_sub_cancel' one]

theorem piecesFrom_plain (none_ : Tag.read? (c :: cs) = none) :
    piecesFrom before position 0 (c :: cs) = piecesFrom (c :: before) (position + 1) 0 cs := by
  rw [piecesFrom]
  simp only [none_]

theorem read?_of_unbracketed (plain : ∀ c ∈ cs, isBracket c = false) : Tag.read? cs = none := by
  cases read : Tag.read? cs with
  | none => rfl
  | some t =>
    obtain ⟨rest, rfl, -⟩ := exists_of_read? read
    have opening := plain '[' (by simp [Tag.text])
    cases opening

/-- Escaping adds nothing in front of a closing bracket that no opening one precedes. -/
theorem exists_of_escapeFrom {r : List Char} (unbracketed : ∀ d ∈ inner, isBracket d = false)
    (plain : ∀ d ∈ suffix, isBracket d = false)
    (same : escapeFrom 0 r ++ suffix = inner ++ ']' :: rest) : ∃ behind, r = inner ++ ']' :: behind := by
  induction r generalizing inner with
  | nil =>
    have closing := plain ']' (by rw [escapeFrom, List.nil_append] at same; simp [same])
    cases closing
  | cons d r ih =>
    cases read : Tag.read? (d :: r) with
    | some t =>
      obtain ⟨behind, whole, isInner⟩ := exists_of_read? read
      rw [whole, escapeFrom_tag isInner] at same
      have first := congrArg (List.find? isBracket) same
      have none_ : inner.find? isBracket = none :=
        List.find?_eq_none.mpr fun d member => by simp [unbracketed d member]
      have slashes : (List.replicate (2 * t.backslashes + 1) '\\').find? isBracket = none :=
        List.find?_eq_none.mpr fun d member => by
          rw [List.eq_of_mem_replicate member]
          decide
      simp [List.find?_append, slashes, none_, Tag.text, isBracket] at first
    | none =>
      rw [escapeFrom] at same
      simp only [read, List.cons_append] at same
      cases inner with
      | nil =>
        cases same
        exact ⟨r, rfl⟩
      | cons e inner =>
        obtain ⟨rfl, later⟩ := List.cons.inj same
        obtain ⟨behind, rfl⟩ := ih (fun d member => unbracketed d (List.mem_cons_of_mem _ member)) later
        exact ⟨behind, rfl⟩

theorem read?_escapeFrom_of_ne {r : List Char} (plain : ∀ d ∈ suffix, isBracket d = false)
    (none_ : Tag.read? (c :: r) = none) (slash : c ≠ '\\') :
    Tag.read? (c :: (escapeFrom 0 r ++ suffix)) = none := by
  by_cases bracket : c = '['
  · subst bracket
    refine Option.eq_none_iff_forall_ne_some.mpr fun t read => ?_
    obtain ⟨inner, rest, same, isInner, -⟩ := Tag.read?_bracket.mp read
    obtain ⟨behind, whole⟩ := exists_of_escapeFrom isInner.isBracket plain same
    rw [Tag.read?_bracket.mpr ⟨inner, behind, whole, isInner, rfl⟩] at none_
    cases none_
  · exact Tag.read?_plain slash bracket

theorem escapeFrom_plain (none_ : Tag.read? (c :: cs) = none) :
    escapeFrom 0 (c :: cs) = c :: escapeFrom 0 cs := by
  rw [escapeFrom]
  simp only [none_]

/-- Where no tag starts none does when what follows is escaped. -/
theorem read?_escapeFrom {r : List Char} (plain : ∀ d ∈ suffix, isBracket d = false)
    (none_ : Tag.read? (c :: r) = none) : Tag.read? (c :: (escapeFrom 0 r ++ suffix)) = none := by
  induction r generalizing c with
  | nil =>
    by_cases slash : c = '\\'
    · subst slash
      rw [escapeFrom, List.nil_append, Tag.read?_backslash, read?_of_unbracketed plain, Option.map_none]
    · exact read?_escapeFrom_of_ne plain none_ slash
  | cons d r ih =>
    by_cases slash : c = '\\'
    · subst slash
      rw [Tag.read?_backslash, Option.map_eq_none_iff] at none_ ⊢
      rw [escapeFrom_plain none_]
      exact ih none_
    · exact read?_escapeFrom_of_ne plain none_ slash

/-- There is no tag among the pieces. -/
def AreTexts (pieces : List Piece) : Prop := ∀ p ∈ pieces, ∃ cs, p = .text cs

theorem AreTexts.append {front back : List Piece} (first : AreTexts front) (second : AreTexts back) :
    AreTexts (front ++ back) :=
  fun p member => (List.mem_append.mp member).elim (first p) (second p)

theorem areTexts_flush (before : List Char) : AreTexts (flush before) := by
  unfold flush
  split
  · exact nofun
  · rintro p (_ | ⟨_, ⟨⟩⟩)
    exact ⟨_, rfl⟩

theorem areTexts_tagPieces (odd : t.backslashes % 2 = 1) : AreTexts (tagPieces t position) := by
  unfold tagPieces
  dsimp only
  rw [if_pos odd]
  refine .append ?_ fun p member => ⟨_, List.mem_singleton.mp member⟩
  split
  · exact nofun
  · exact fun p member => ⟨_, List.mem_singleton.mp member⟩

theorem areTexts_of_unbracketed (plain : ∀ c ∈ cs, isBracket c = false) :
    AreTexts (piecesFrom before position 0 cs) := by
  induction cs generalizing before position with
  | nil => exact areTexts_flush before
  | cons c r ih =>
    rw [piecesFrom_plain (read?_of_unbracketed plain)]
    exact ih fun d member => plain d (List.mem_cons_of_mem c member)

/-- Escaped text is read as text, also in front of other text without brackets. -/
theorem areTexts_escapeFrom (text : List Char) (plain : ∀ d ∈ suffix, isBracket d = false) :
    AreTexts (piecesFrom before position 0 (escapeFrom 0 text ++ suffix)) := by
  induction length : text.length using Nat.strong_induction_on generalizing text before position with
  | _ n ih =>
    subst length
    cases text with
    | nil => exact areTexts_of_unbracketed plain
    | cons c r =>
      cases read : Tag.read? (c :: r) with
      | none =>
        rw [escapeFrom_plain read, List.cons_append, piecesFrom_plain (read?_escapeFrom plain read)]
        exact ih r.length (by simp) r rfl
      | some t =>
        obtain ⟨rest, whole, isInner⟩ := exists_of_read? read
        have shorter : rest.length < (c :: r).length := by
          rw [whole]
          simp [Tag.text]
          omega
        rw [whole, escapeFrom_tag isInner, List.append_assoc, List.append_assoc]
        have escaped := piecesFrom_tag (t := ⟨2 * t.backslashes + 1, t.inner⟩) before position
          (escapeFrom 0 rest ++ suffix) isInner
        rw [Tag.text] at escaped ⊢
        rw [escaped]
        exact ((areTexts_flush before).append (areTexts_tagPieces (by dsimp only; omega))).append
          (ih rest.length shorter rest rfl)

end Escaping

section Rendering

variable {front back : List Piece} {opened : List String} {title text suffix : List Char}
  {before : List Char} {position : Nat}

/-- Text in front of pieces that can be rendered changes nothing about that. -/
theorem exists_renderPieces_append (texts : AreTexts front)
    (rendered : ∃ cs, renderPieces opened back = .ok cs) :
    ∃ cs, renderPieces opened (front ++ back) = .ok cs := by
  induction front with
  | nil => exact rendered
  | cons p front ih =>
    obtain ⟨cs, rfl⟩ := texts p (List.mem_cons_self ..)
    obtain ⟨shown, rest⟩ := ih fun q member => texts q (List.mem_cons_of_mem _ member)
    exact ⟨_, by rw [List.cons_append, renderPieces, rest]; rfl⟩

theorem exists_renderPieces (texts : AreTexts front) : ∃ cs, renderPieces opened front = .ok cs := by
  have rendered := exists_renderPieces_append texts
    (show ∃ cs, renderPieces opened [] = .ok cs from ⟨[], rfl⟩)
  rwa [List.append_nil] at rendered

theorem piecesFrom_append (plain : ∀ c ∈ title, c ≠ '\\' ∧ c ≠ '[') (rest : List Char) :
    piecesFrom before position 0 (title ++ rest) =
      piecesFrom (title.reverse ++ before) (position + title.length) 0 rest := by
  induction title generalizing before position with
  | nil => rfl
  | cons c r ih =>
    obtain ⟨slash, bracket⟩ := plain c (List.mem_cons_self ..)
    rw [List.cons_append, piecesFrom_plain (Tag.read?_plain slash bracket),
      ih fun d member => plain d (List.mem_cons_of_mem c member)]
    simp [Nat.add_assoc, Nat.add_comm 1]

theorem exists_renderPieces_tag {inner : List Char} {styled : List String}
    (applied : applyTag opened ⟨0, inner⟩ position = .ok styled)
    (rendered : ∃ cs, renderPieces styled back = .ok cs) :
    ∃ cs, renderPieces opened (tagPieces ⟨0, inner⟩ position ++ back) = .ok cs := by
  obtain ⟨cs, rendered⟩ := rendered
  refine ⟨cs, ?_⟩
  have single : tagPieces ⟨0, inner⟩ position = [.tag ⟨0, inner⟩ position] := by simp [tagPieces]
  rw [single, List.singleton_append, renderPieces, applied]
  exact rendered

/-- Markup with a bold title and escaped text behind it can be rendered. -/
theorem exists_render_bold (text : List Char) (plain : ∀ c ∈ title, c ≠ '\\' ∧ c ≠ '[')
    (unbracketed : ∀ c ∈ suffix, isBracket c = false) : ∃ cs,
      render ("[bold]".toList ++ (title ++ ("[/bold] (".toList ++ (escapeFrom 0 text ++ suffix)))) =
        .ok cs := by
  let opening : Tag := ⟨0, ['b', 'o', 'l', 'd']⟩
  let closing : Tag := ⟨0, ['/', 'b', 'o', 'l', 'd']⟩
  have opens (rest : List Char) : "[bold]".toList ++ rest =
      List.replicate opening.backslashes '\\' ++ (opening.text ++ rest) := rfl
  have closes (rest : List Char) : "[/bold] (".toList ++ rest =
      List.replicate closing.backslashes '\\' ++ (closing.text ++ ([' ', '('] ++ rest)) := rfl
  have isOpening : Tag.IsInner opening.inner := ⟨by decide, by simp [isBracket]⟩
  have isClosing : Tag.IsInner closing.inner := ⟨by decide, by simp [isBracket]⟩
  have bold (position : Nat) : applyTag [] opening position = .ok [styleName opening.inner] := rfl
  have none_ (position : Nat) : applyTag [styleName opening.inner] closing position = .ok [] := by
    have named : closing.name = '/' :: opening.inner := rfl
    have more : (trim opening.inner).isEmpty = false := by decide
    rw [applyTag, named]
    simp [more]
  have pieces : ∃ cs, renderPieces [] (piecesFrom [] 0 0 ("[bold]".toList ++ (title ++
      ("[/bold] (".toList ++ (escapeFrom 0 text ++ suffix))))) = .ok cs := by
    rw [opens, piecesFrom_tag _ _ _ isOpening, piecesFrom_append plain, closes,
      piecesFrom_tag _ _ _ isClosing, piecesFrom_append (by simp), List.append_assoc,
      List.append_assoc]
    refine exists_renderPieces_append (areTexts_flush _) (exists_renderPieces_tag (bold _) ?_)
    refine exists_renderPieces_append (areTexts_flush _) (exists_renderPieces_tag (none_ _) ?_)
    exact exists_renderPieces (areTexts_escapeFrom text unbracketed)
  obtain ⟨cs, rendered⟩ := pieces
  exact ⟨_, by rw [render, rendered]; rfl⟩

end Rendering

end InlineQuery.Text.Markup
