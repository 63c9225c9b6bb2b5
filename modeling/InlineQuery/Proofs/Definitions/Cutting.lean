import InlineQuery.Proofs.Definitions.Splitting
import Mathlib.Data.List.Induction

/-!
How the splitter cuts the tokens of a GraphQL document. Its parts follow one another without a gap:
definitions, closing brackets outside all brackets, each together with the descriptions that it
takes away, and in the end what is not terminated. One finding is reported for each.
-/

namespace InlineQuery

open Literal (openBracket closeBracket)

/-- Whether a candidate is left out because the document ends too early. -/
def SkipReason.breaksOff : SkipReason → Bool
  | unterminatedDefinition | unterminatedBlockString => true
  | _ => false

namespace Definitions

/-! ### Brackets -/

def Kind.opens : Kind → Bool
  | mark c => openBracket c
  | _ => false

def Kind.closes : Kind → Bool
  | mark c => closeBracket c
  | _ => false

def openings (ts : List Token) : Nat := ts.countP (·.kind.opens)

def closings (ts : List Token) : Nat := ts.countP (·.kind.closes)

/-- Every closing bracket closes an earlier opening one, and all are closed. -/
structure AreBalanced (ts : List Token) : Prop where
  opened : ∀ front, front <+: ts → closings front ≤ openings front
  closed : closings ts = openings ts

/-- The depth of brackets behind a token. -/
def deepen (depth : Nat) (t : Token) : Nat :=
  if t.kind.opens then depth + 1 else if t.kind.closes then depth - 1 else depth

/-- The depth of brackets behind some tokens. A closing bracket outside all brackets leaves it. -/
def nesting (ts : List Token) : Nat := ts.foldl deepen 0

theorem closes_of_opens {kind : Kind} (opens : kind.opens = true) : kind.closes = false := by
  cases kind with
  | mark c =>
    simp only [Kind.opens, openBracket, Bool.or_eq_true, beq_iff_eq] at opens
    rcases opens with (rfl | rfl) | rfl <;> rfl
  | _ => rfl

theorem openings_concat (ts : List Token) (t : Token) :
    openings (ts ++ [t]) = openings ts + if t.kind.opens then 1 else 0 := by
  rw [openings, List.countP_append, List.countP_singleton]
  rfl

theorem closings_concat (ts : List Token) (t : Token) :
    closings (ts ++ [t]) = closings ts + if t.kind.closes then 1 else 0 := by
  rw [closings, List.countP_append, List.countP_singleton]
  rfl

/-- Where no more is closed than is open, the depth counts the brackets that are open. -/
theorem foldl_deepen {ts : List Token} {depth : Nat}
    (opened : ∀ front, front <+: ts → closings front ≤ depth + openings front) :
    ts.foldl deepen depth + closings ts = depth + openings ts := by
  induction ts using List.reverseRecOn with
  | nil => rfl
  | append_singleton ts t ih =>
    have before := ih fun front inside => opened front (inside.trans (List.prefix_append ..))
    have whole := opened (ts ++ [t]) (List.prefix_refl _)
    rw [closings_concat, openings_concat] at whole
    rw [List.foldl_append, List.foldl_cons, List.foldl_nil, closings_concat,
      openings_concat, deepen]
    cases opens : t.kind.opens with
    | true =>
      rw [opens] at whole
      simp only [closes_of_opens opens, Bool.false_eq_true, if_true, if_false]
      omega
    | false =>
      cases closes : t.kind.closes with
      | true =>
        simp only [opens, closes, Bool.false_eq_true, if_true, if_false] at whole ⊢
        omega
      | false =>
        simp only [Bool.false_eq_true, if_false]
        omega

theorem AreBalanced.foldl_deepen {ts : List Token} (balanced : AreBalanced ts) :
    ts.foldl deepen 0 = 0 := by
  have opened : ∀ front, front <+: ts → closings front ≤ 0 + openings front := by
    intro front inside
    rw [Nat.zero_add]
    exact balanced.opened front inside
  have counted := Definitions.foldl_deepen opened
  have closed := balanced.closed
  omega

theorem foldl_deepen_descriptions {run : List Token} (all : ∀ t ∈ run, t.kind = .description)
    (depth : Nat) : run.foldl deepen depth = depth := by
  induction run with
  | nil => rfl
  | cons t run ih =>
    have first : deepen depth t = depth := by
      rw [deepen, all t (List.mem_cons_self ..)]
      rfl
    rw [List.foldl_cons, first]
    exact ih fun u member => all u (List.mem_cons_of_mem _ member)

/-! ### Parts of a document -/

/-- A span reaches from the first token to the last one. -/
structure IsSpanOf (ts : List Token) (span : Span) : Prop where
  first : ts.head?.map (·.start) = some span.start
  last : ts.getLast?.map (·.stop) = some span.stop

/-- A stretch of tokens that the splitter cuts off. -/
inductive Part where
  | definition (span : Span) (ts : List Token)
  | stray (run : List Token) (bracket : Token) (c : Char)
  | tail (reason : SkipReason) (offset : Nat) (ts : List Token)

namespace Part

def tokens : Part → List Token
  | definition _ ts => ts
  | stray run bracket _ => run ++ [bracket]
  | tail _ _ ts => ts

def piece : Part → Piece
  | definition span _ => .definition span
  | stray _ bracket c => .skipped (.unbalanced c) bracket.start
  | tail reason offset _ => .skipped reason offset

/-- What a part holds. -/
def IsSound : Part → Prop
  | definition span ts => IsSpanOf ts span ∧ AreBalanced ts
  | stray run bracket c =>
    (∀ t ∈ run, t.kind = .description) ∧ bracket.kind = .mark c ∧ closeBracket c = true
  | tail reason offset ts => reason.breaksOff = true ∧ ts.head?.map (·.start) = some offset

/-- What follows a part. A definition that is not the last part is more than descriptions, and none
follows it. -/
def Ends : Part → List Token → Prop
  | definition _ ts, behind => behind = [] ∨
      (∃ t ∈ ts, t.kind ≠ .description) ∧ ∀ t ∈ behind.head?, t.kind ≠ .description
  | stray .., _ => True
  | tail .., behind => behind = []

end Part

/-- Tokens are cut into parts up to a rest. -/
inductive Cuts : List Part → List Token → List Token → Prop
  | nil (ts : List Token) : Cuts [] ts ts
  | cons {part : Part} {parts : List Part} {behind rest : List Token} (sound : part.IsSound)
      (ends : part.Ends behind) (later : Cuts parts behind rest) :
      Cuts (part :: parts) (part.tokens ++ behind) rest

namespace Cuts

variable {part : Part} {parts more front back : List Part} {ts middle rest : List Token}

theorem single (part : Part) (sound : part.IsSound) (ends : part.Ends []) :
    Cuts [part] part.tokens [] := by
  have cuts := Cuts.cons sound ends (.nil [])
  rwa [List.append_nil] at cuts

theorem append (cuts : Cuts parts ts middle) (later : Cuts more middle rest) :
    Cuts (parts ++ more) ts rest := by
  induction cuts with
  | nil => exact later
  | cons sound ends _ ih => exact .cons sound ends (ih later)

theorem eq_append (cuts : Cuts parts ts rest) : ts = parts.flatMap Part.tokens ++ rest := by
  induction cuts with
  | nil => rfl
  | cons _ _ _ ih => rw [List.flatMap_cons, List.append_assoc, ← ih]

theorem ne_nil (cuts : Cuts parts ts rest) (more : rest ≠ []) : ts ≠ [] := by
  rw [cuts.eq_append]
  exact List.append_ne_nil_of_right_ne_nil _ more

theorem exists_at (cuts : Cuts (front ++ part :: back) ts rest) : ∃ behind,
    Cuts front ts (part.tokens ++ behind) ∧ part.IsSound ∧ part.Ends behind ∧
      Cuts back behind rest := by
  induction front generalizing ts with
  | nil =>
    cases cuts with
    | @cons _ _ behind _ sound ends later => exact ⟨behind, .nil _, sound, ends, later⟩
  | cons first front ih =>
    cases cuts with
    | @cons _ _ behind _ sound ends later =>
      obtain ⟨behind, before, known⟩ := ih later
      exact ⟨behind, .cons sound ends before, known⟩

end Cuts

/-! ### The definition being read -/

/-- The state of the splitter when it has read some tokens since it last cut. -/
structure Split.IsReading (s : Split) (group : List Token) : Prop where
  nothing : s.current = none → group = []
  current : ∀ d, s.current = some d →
    IsSpanOf group d.span ∧ d.hasBody = group.any (·.kind != .description)
  opened : ∀ front, front <+: group → closings front ≤ openings front
  depth : s.depth + closings group = openings group

namespace Split.IsReading

variable {s : Split} {group : List Token} {t : Token}

theorem fresh {depth : Nat} (extending : Bool) (outside : depth = 0) :
    (Split.mk depth none extending).IsReading [] where
  nothing _ := rfl
  current := nofun
  opened front inside := by rw [List.prefix_nil.mp inside]; exact Nat.le_refl 0
  depth := outside

theorem areBalanced (reading : s.IsReading group) (outside : s.depth = 0) : AreBalanced group where
  opened := reading.opened
  closed := by
    have depth := reading.depth
    omega

theorem exists_body (reading : s.IsReading group) {d : Current} (current : s.current = some d)
    (hasBody : d.hasBody = true) : ∃ u ∈ group, u.kind ≠ .description := by
  obtain ⟨-, body⟩ := reading.current d current
  rw [hasBody] at body
  simpa using body.symm

/-- A token joins what has been read. -/
theorem join (reading : s.IsReading group) (closes extending : Bool) {depth : Nat}
    (count : depth + closings (group ++ [t]) = openings (group ++ [t])) :
    (Split.mk depth (some (extended s.current closes t)) extending).IsReading (group ++ [t]) where
  nothing := nofun
  current d isCurrent := by
    cases isCurrent
    cases current : s.current with
    | none =>
      rw [reading.nothing current]
      exact ⟨⟨rfl, rfl⟩, by simp [extended]⟩
    | some d =>
      obtain ⟨span, body⟩ := reading.current d current
      obtain ⟨first, isFirst, start⟩ := Option.map_eq_some_iff.mp span.first
      refine ⟨⟨?_, ?_⟩, ?_⟩
      · rw [List.head?_append, isFirst]
        exact congrArg some start
      · rw [List.getLast?_concat]
        rfl
      · simp [extended, body]
  opened front inside := by
    rcases List.prefix_concat_iff.mp inside with rfl | before
    · omega
    · exact reading.opened front before
  depth := count

/-- A token that starts the next definition cuts off the one before it. -/
theorem joined (reading : s.IsReading group) (t : Token) (ts : List Token) :
    ∃ parts later, Cuts parts (group ++ t :: ts) (later ++ t :: ts) ∧
      s.reported t.kind = parts.map Part.piece ∧
      (Split.mk s.depth (s.joined t.kind) s.extending).IsReading later := by
  unfold Split.reported Split.joined
  cases isEnded : s.ended t.kind with
  | none => exact ⟨[], group, .nil _, rfl, reading⟩
  | some d =>
    obtain ⟨current, starts⟩ := Option.filter_eq_some_iff.mp isEnded
    simp only [Bool.and_eq_true, beq_iff_eq] at starts
    obtain ⟨⟨outside, hasBody⟩, starts⟩ := starts
    obtain ⟨span, -⟩ := reading.current d current
    have more := reading.exists_body current hasBody
    have next : ∀ u ∈ (t :: ts).head?, u.kind ≠ .description := by
      rintro u isFirst isDescription
      cases isFirst
      rw [isDescription] at starts
      cases starts
    refine ⟨[.definition d.span group], [], ?_, rfl, fresh _ outside⟩
    exact .cons ⟨span, reading.areBalanced outside⟩ (.inr ⟨more, next⟩) (.nil _)

/-- A closing bracket outside all brackets cuts off what has been read. Descriptions alone go with
the bracket. -/
theorem cut (reading : s.IsReading group) (outside : s.depth = 0) {c : Char}
    (isMark : t.kind = .mark c) (closes : closeBracket c = true) (ts : List Token) :
    ∃ parts, Cuts parts (group ++ t :: ts) ts ∧
      ((s.current.filter (·.hasBody)).map fun d => Piece.definition d.span).toList ++
        [.skipped (.unbalanced c) t.start] = parts.map Part.piece := by
  cases isCut : s.current.filter (·.hasBody) with
  | some d =>
    obtain ⟨current, hasBody⟩ := Option.filter_eq_some_iff.mp isCut
    obtain ⟨span, -⟩ := reading.current d current
    have more := reading.exists_body current hasBody
    have next : ∀ u ∈ (t :: ts).head?, u.kind ≠ .description := by
      rintro u isFirst isDescription
      cases isFirst
      cases isMark.symm.trans isDescription
    refine ⟨[.definition d.span group, .stray [] t c], ?_, rfl⟩
    refine .cons ⟨span, reading.areBalanced outside⟩ (.inr ⟨more, next⟩) ?_
    have sound : (Part.stray [] t c).IsSound := ⟨nofun, isMark, closes⟩
    exact .cons sound trivial (.nil ts)
  | none =>
    have all : ∀ u ∈ group, u.kind = .description := by
      cases current : s.current with
      | none =>
        rw [reading.nothing current]
        nofun
      | some d =>
        obtain ⟨-, body⟩ := reading.current d current
        rw [current, Option.filter_some] at isCut
        cases hasBody : d.hasBody with
        | true => simp [hasBody] at isCut
        | false =>
          rw [hasBody] at body
          simpa using body.symm
    have whole : group ++ t :: ts = (Part.stray group t c).tokens ++ ts := by simp [Part.tokens]
    refine ⟨[.stray group t c], ?_, rfl⟩
    rw [whole]
    exact .cons ⟨all, isMark, closes⟩ trivial (.nil ts)

theorem step (reading : s.IsReading group) (t : Token) (ts : List Token) :
    ∃ parts later, Cuts parts (group ++ t :: ts) (later ++ ts) ∧
      (s.step t).2 = parts.map Part.piece ∧ (s.step t).1.IsReading later := by
  obtain ⟨parts, later, cuts, reported, joined⟩ := reading.joined t ts
  have depth : s.depth + closings later = openings later := joined.depth
  have onward {next : Split} (isNext : next.IsReading (later ++ [t])) :
      ∃ parts later, Cuts parts (group ++ t :: ts) (later ++ ts) ∧
        s.reported t.kind = parts.map Part.piece ∧ next.IsReading later := by
    refine ⟨parts, later ++ [t], ?_, reported, isNext⟩
    rwa [List.append_assoc, List.singleton_append]
  have count (depth' : Nat) (counted : depth' + (if t.kind.closes then 1 else 0) =
      s.depth + if t.kind.opens then 1 else 0) :
      depth' + closings (later ++ [t]) = openings (later ++ [t]) := by
    rw [closings_concat, openings_concat]
    omega
  unfold Split.step
  dsimp only
  split
  · rename_i c isMark
    split
    · rename_i opens
      have isOpen : t.kind.opens = true := by rw [isMark]; exact opens
      refine onward (joined.join false _ (count _ ?_))
      rw [isOpen, closes_of_opens isOpen]
      rfl
    · rename_i notOpen
      have isNotOpen : t.kind.opens = false := by rw [isMark]; exact Bool.eq_false_iff.mpr notOpen
      split
      · rename_i closes
        split
        · rename_i outside
          obtain ⟨more, cut, cutOff⟩ := joined.cut outside isMark closes ts
          refine ⟨parts ++ more, [], cuts.append cut, ?_, fresh false rfl⟩
          rw [List.map_append, ← reported, ← cutOff, List.append_assoc]
          rfl
        · rename_i inside
          have isClose : t.kind.closes = true := by rw [isMark]; exact closes
          refine onward (joined.join _ _ (count _ ?_))
          rw [isNotOpen, isClose, if_pos rfl, if_neg Bool.false_ne_true]
          omega
      · rename_i notClose
        have isNotClose : t.kind.closes = false := by
          rw [isMark]
          exact Bool.eq_false_iff.mpr notClose
        refine onward (joined.join false _ (count _ ?_))
        rw [isNotOpen, isNotClose]
  · rename_i noMark
    refine onward (joined.join false _ (count _ ?_))
    cases isKind : t.kind with
    | mark c => exact absurd isKind (noMark c)
    | _ => rfl

/-- What is reported in the end. -/
theorem finish (reading : s.IsReading group) :
    ∃ parts, Cuts parts group [] ∧ s.finish = parts.map Part.piece := by
  unfold Split.finish
  cases current : s.current with
  | none =>
    rw [reading.nothing current]
    exact ⟨[], .nil [], rfl⟩
  | some d =>
    obtain ⟨span, -⟩ := reading.current d current
    dsimp only
    split
    · refine ⟨[.tail .unterminatedDefinition d.start group], ?_, rfl⟩
      exact .single (.tail .unterminatedDefinition d.start group) ⟨rfl, span.first⟩ rfl
    · rename_i outside
      refine ⟨[.definition d.span group], ?_, rfl⟩
      have balanced := reading.areBalanced (Nat.eq_zero_of_not_pos (by omega))
      exact .single (.definition d.span group) ⟨span, balanced⟩ (.inl rfl)

theorem run (reading : s.IsReading group) (ts : List Token) :
    ∃ parts, Cuts parts (group ++ ts) [] ∧ s.run ts = parts.map Part.piece := by
  induction ts generalizing s group with
  | nil =>
    rw [List.append_nil]
    exact reading.finish
  | cons t ts ih =>
    unfold Split.run
    split
    · have start : (group ++ t :: ts).head?.map (·.start) =
          some ((s.current.map (·.start)).getD t.start) := by
        cases current : s.current with
        | none =>
          rw [reading.nothing current]
          rfl
        | some d =>
          obtain ⟨first, isFirst, isStart⟩ :=
            Option.map_eq_some_iff.mp (reading.current d current).1.first
          rw [List.head?_append, isFirst]
          exact congrArg some isStart
      refine ⟨[.tail .unterminatedBlockString _ (group ++ t :: ts)], ?_, rfl⟩
      exact .single (.tail .unterminatedBlockString _ (group ++ t :: ts)) ⟨rfl, start⟩ rfl
    · obtain ⟨parts, later, cuts, reported, next⟩ := reading.step t ts
      obtain ⟨more, cuts', reported'⟩ := ih next
      refine ⟨parts ++ more, cuts.append cuts', ?_⟩
      dsimp only
      rw [List.map_append, reported, reported']

end Split.IsReading

/-- The parts of a document, with the finding that is reported for each. -/
structure IsPartition (text : List Char) (parts : List Part) : Prop where
  cuts : Cuts parts (tokens text) []
  reported : pieces text = parts.map Part.piece

theorem exists_isPartition (text : List Char) : ∃ parts, IsPartition text parts := by
  obtain ⟨parts, cuts, reported⟩ := (Split.IsReading.fresh false rfl).run (tokens text)
  exact ⟨parts, cuts, reported⟩

end Definitions
end InlineQuery
