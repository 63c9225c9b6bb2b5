import InlineQuery.Literal.Scan
import InlineQuery.Proofs.Definitions.Cutting
import InlineQuery.Proofs.Literal.Order
import Mathlib.Data.List.Nodup

/-!
What becomes of the tokens of a GraphQL document. They belong to the parts that the splitter cuts
off, which lie one behind the other, and what is reported tells where each part stands. So every
token has exactly one fate.
-/

namespace InlineQuery

open Literal (closeBracket)

/-- Whether a candidate was left out because the document ends too early. -/
def Extraction.breaksOff : Extraction → Bool
  | found _ => false
  | skipped reason _ => reason.breaksOff

/-- Where a literal, or what was left out, starts. -/
def Extraction.place : Extraction → Nat
  | found literal => literal.start
  | skipped _ offset => offset

namespace Definitions

/-! ### Fates of tokens -/

/-- The tokens of a document that lie in one of its literals. -/
def tokensIn (text : List Char) (literal : Literal) : List Token :=
  (tokens text).filter fun t => literal.start ≤ t.start && t.stop ≤ literal.stop

/-- A closing bracket outside all brackets. It is reported once, where it stands. -/
structure IsStray (text : List Char) (before : List Token) (t : Token) : Prop where
  isToken : before ++ [t] <+: tokens text
  outside : nesting before = 0
  reported : ∃ c, t.kind = .mark c ∧ closeBracket c = true ∧
    (scan text .graphql).count (.skipped (.unbalanced c) t.start) = 1

/-- What may become of a token of a document. -/
inductive Fate where
  | found
  | stray
  | tail
  | dropped
  deriving DecidableEq, Repr

/-- Whether a token lies in a literal, or is a closing bracket outside all brackets, or lies behind
the last finding, which says that the document ends too early, or belongs to descriptions that such
a bracket follows and that nothing else stands before: they are the first tokens, or another such
bracket stands before them. -/
def IsFated (text : List Char) (t : Token) : Fate → Prop
  | .found => ∃ literal ∈ literals text .graphql, literal.start ≤ t.start ∧ t.stop ≤ literal.stop
  | .stray => ∃ before, IsStray text before t
  | .tail => ∃ front reason offset, scan text .graphql = front ++ [.skipped reason offset] ∧
      reason.breaksOff = true ∧ (∀ e ∈ front, e.breaksOff = false) ∧ offset ≤ t.start
  | .dropped => ∃ before run bracket, t ∈ run ∧ (∀ u ∈ run, u.kind = .description) ∧
      IsStray text (before ++ run) bracket ∧
      (before = [] ∨ ∃ front last, before = front ++ [last] ∧ IsStray text front last)

/-! ### Tokens one behind the other -/

section
variable {bound : Nat} {ts before behind : List Token} {span : Span} {t u v : Token}

theorem AreOrdered.middle (ordered : AreOrdered bound (before ++ (ts ++ behind))) :
    AreOrdered bound ts where
  le_start t member := ordered.le_start t (by simp [member])
  start_lt t member := ordered.start_lt t (by simp [member])
  apart := (List.pairwise_append.mp (List.pairwise_append.mp ordered.apart).2.1).1

theorem AreOrdered.eq_of_start (ordered : AreOrdered bound ts) (first : t ∈ ts) (second : u ∈ ts)
    (same : t.start = u.start) : t = u := by
  have places : (ts.map (·.start)).Nodup := by
    refine List.pairwise_map.mpr (ordered.apart.imp_of_mem fun {t u} isToken _ le => ?_)
    have wide := ordered.start_lt t isToken
    omega
  exact List.inj_on_of_nodup_map places first second same

/-- A token between two tokens of a stretch belongs to the stretch. -/
theorem AreOrdered.mem_of_between (ordered : AreOrdered bound (before ++ (ts ++ behind)))
    (member : t ∈ before ++ (ts ++ behind)) (first : u ∈ ts) (last : v ∈ ts)
    (le : u.start ≤ t.start) (lt : t.start < v.stop) : t ∈ ts := by
  obtain ⟨-, inner, apart⟩ := List.pairwise_append.mp ordered.apart
  obtain ⟨-, -, apart'⟩ := List.pairwise_append.mp inner
  have wide := ordered.start_lt t member
  rcases List.mem_append.mp member with earlier | inside
  · have le' := apart t earlier u (List.mem_append_left _ first)
    omega
  · rcases List.mem_append.mp inside with inside | later
    · exact inside
    · have le' := apart' v last t later
      omega

theorem IsSpanOf.exists_first (reaches : IsSpanOf ts span) : ∃ u ∈ ts, u.start = span.start := by
  obtain ⟨u, isFirst, start⟩ := Option.map_eq_some_iff.mp reaches.first
  exact ⟨u, List.mem_of_head? isFirst, start⟩

theorem IsSpanOf.exists_last (reaches : IsSpanOf ts span) : ∃ v ∈ ts, v.stop = span.stop := by
  obtain ⟨v, isLast, stop⟩ := Option.map_eq_some_iff.mp reaches.last
  exact ⟨v, List.mem_of_getLast? isLast, stop⟩

theorem AreOrdered.start_le (ordered : AreOrdered bound ts) {start : Nat}
    (first : ts.head?.map (·.start) = some start) (member : t ∈ ts) : start ≤ t.start := by
  obtain ⟨u, isFirst, rfl⟩ := Option.map_eq_some_iff.mp first
  obtain ⟨more, rfl⟩ := List.head?_eq_some_iff.mp isFirst
  rcases List.mem_cons.mp member with rfl | later
  · exact Nat.le_refl _
  · have le := (List.pairwise_cons.mp ordered.apart).1 t later
    have wide := ordered.start_lt u (List.mem_cons_self ..)
    omega

theorem AreOrdered.le_stop (ordered : AreOrdered bound ts) {stop : Nat}
    (last : ts.getLast?.map (·.stop) = some stop) (member : t ∈ ts) : t.stop ≤ stop := by
  obtain ⟨v, isLast, rfl⟩ := Option.map_eq_some_iff.mp last
  obtain ⟨front, rfl⟩ := List.getLast?_eq_some_iff.mp isLast
  rcases List.mem_append.mp member with earlier | same
  · have le := (List.pairwise_append.mp ordered.apart).2.2 t earlier v (by simp)
    have wide := ordered.start_lt v (by simp)
    omega
  · obtain rfl := List.mem_singleton.mp same
    exact Nat.le_refl _

/-- The tokens of a stretch are those that lie in its span. -/
theorem AreOrdered.filter_eq (ordered : AreOrdered bound (before ++ (ts ++ behind)))
    (reaches : IsSpanOf ts span) :
    (before ++ (ts ++ behind)).filter
      (fun t => span.start ≤ t.start && t.stop ≤ span.stop) = ts := by
  obtain ⟨u, isFirst, start⟩ := reaches.exists_first
  obtain ⟨v, isLast, stop⟩ := reaches.exists_last
  obtain ⟨-, inner, apart⟩ := List.pairwise_append.mp ordered.apart
  obtain ⟨-, -, apart'⟩ := List.pairwise_append.mp inner
  have none_ : before.filter (fun t => span.start ≤ t.start && t.stop ≤ span.stop) = [] := by
    refine List.filter_eq_nil_iff.mpr fun t earlier => ?_
    have le := apart t earlier u (List.mem_append_left _ isFirst)
    have wide := ordered.start_lt t (List.mem_append_left _ earlier)
    simp only [Bool.and_eq_true, decide_eq_true_eq]
    omega
  have all : ts.filter (fun t => span.start ≤ t.start && t.stop ≤ span.stop) = ts := by
    refine List.filter_eq_self.mpr fun t inside => ?_
    rw [Bool.and_eq_true, decide_eq_true_eq, decide_eq_true_eq]
    exact ⟨ordered.middle.start_le reaches.first inside, ordered.middle.le_stop reaches.last inside⟩
  have none' : behind.filter (fun t => span.start ≤ t.start && t.stop ≤ span.stop) = [] := by
    refine List.filter_eq_nil_iff.mpr fun t later => ?_
    have le := apart' v isLast t later
    have wide := ordered.start_lt t (by simp [later])
    simp only [Bool.and_eq_true, decide_eq_true_eq]
    omega
  rw [List.filter_append, List.filter_append, none_, all, none', List.nil_append, List.append_nil]

end

theorem areOrdered_tokens (text : List Char) : AreOrdered 0 (tokens text) :=
  areOrdered_tokensFrom 0 0 text

namespace IsStray

variable {text : List Char} {before : List Token} {t b : Token}

theorem isToken_self (stray : IsStray text before b) : b ∈ tokens text :=
  stray.isToken.subset (by simp)

/-- The tokens before a closing bracket are those that start before it. -/
theorem mem_iff (stray : IsStray text before b) (isToken : t ∈ tokens text) :
    t ∈ before ↔ t.start < b.start := by
  have ordered := areOrdered_tokens text
  have wide := ordered.start_lt t isToken
  have width := ordered.start_lt b stray.isToken_self
  have apart := ordered.apart
  obtain ⟨after, whole⟩ := stray.isToken
  rw [← whole] at isToken apart
  obtain ⟨upTo, -, behind⟩ := List.pairwise_append.mp apart
  obtain ⟨-, -, ahead⟩ := List.pairwise_append.mp upTo
  constructor
  · intro earlier
    have le := ahead t earlier b (List.mem_singleton_self b)
    omega
  · intro lt
    rcases List.mem_append.mp isToken with inUpTo | later
    · rcases List.mem_append.mp inUpTo with earlier | same
      · exact earlier
      · rw [List.mem_singleton.mp same] at lt
        omega
    · have le := behind b (by simp) t later
      omega

end IsStray

/-! ### Parts one behind the other -/

def Piece.place : Piece → Nat
  | definition span => span.start
  | skipped _ offset => offset

theorem place_extraction (piece : Piece) (text : List Char) (lines : LineIndex) :
    (piece.extraction text lines).place = piece.place := by
  cases piece <;> rfl

/-- Each part is reported where one of its tokens starts. -/
theorem Part.exists_place {part : Part} (sound : part.IsSound) :
    ∃ t ∈ part.tokens, t.start = part.piece.place := by
  cases part with
  | definition span ts => exact sound.1.exists_first
  | stray run bracket c => exact ⟨bracket, by simp [Part.tokens], rfl⟩
  | tail reason offset ts =>
    obtain ⟨t, isFirst, start⟩ := Option.map_eq_some_iff.mp sound.2
    exact ⟨t, List.mem_of_head? isFirst, start⟩

namespace Cuts

variable {parts : List Part} {part : Part} {ts rest : List Token}

theorem isSound (cuts : Cuts parts ts rest) (member : part ∈ parts) : part.IsSound := by
  obtain ⟨front, back, rfl⟩ := List.append_of_mem member
  obtain ⟨_, _, sound, -⟩ := cuts.exists_at
  exact sound

/-- Every part has a token. -/
theorem eq_nil (cuts : Cuts parts [] rest) : parts = [] := by
  cases parts with
  | nil => rfl
  | cons part parts =>
    obtain ⟨t, inside, -⟩ := Part.exists_place (cuts.isSound (List.mem_cons_self ..))
    have nothing := cuts.eq_append
    rw [List.flatMap_cons, List.append_assoc] at nothing
    rw [(List.append_eq_nil_iff.mp nothing.symm).1] at inside
    cases inside

/-- What is followed by something breaks nothing off. -/
theorem breaksOff_eq_false (cuts : Cuts parts ts rest) (more : rest ≠ []) (member : part ∈ parts)
    (text : List Char) (lines : LineIndex) :
    (part.piece.extraction text lines).breaksOff = false := by
  obtain ⟨front, back, rfl⟩ := List.append_of_mem member
  obtain ⟨behind, _, _, ends, later⟩ := cuts.exists_at
  cases part with
  | definition => rfl
  | stray => rfl
  | tail reason offset ts =>
    exact absurd ends (later.ne_nil more)

/-- No bracket is open behind a part that something follows. -/
theorem nesting_eq_zero (cuts : Cuts parts ts rest) (more : rest ≠ []) :
    nesting (parts.flatMap Part.tokens) = 0 := by
  induction cuts with
  | nil => rfl
  | @cons part parts behind rest sound ends later ih =>
    have alone : part.tokens.foldl deepen 0 = 0 := by
      cases part with
      | definition span ts => exact sound.2.foldl_deepen
      | stray run bracket c =>
        obtain ⟨all, isMark, closes⟩ := sound
        have shut : bracket.kind.closes = true := by rw [isMark]; exact closes
        have notOpen : bracket.kind.opens = false := by
          cases opens : bracket.kind.opens with
          | false => rfl
          | true => exact absurd (shut.symm.trans (closes_of_opens opens)) (by decide)
        rw [Part.tokens, List.foldl_append, foldl_deepen_descriptions all, List.foldl_cons,
          List.foldl_nil, deepen, notOpen, shut]
        rfl
      | tail reason offset ts =>
        exact absurd ends (later.ne_nil more)
    rw [List.flatMap_cons, nesting, List.foldl_append, alone]
    exact ih more

end Cuts

namespace IsPartition

variable {text : List Char} {parts front back : List Part} {part other : Part} {t u : Token}

theorem tokens_eq (partition : IsPartition text parts) :
    tokens text = parts.flatMap Part.tokens := by
  have whole := partition.cuts.eq_append
  rwa [List.append_nil] at whole

theorem scan_eq (partition : IsPartition text parts) :
    scan text .graphql = parts.map fun part => part.piece.extraction text (.ofText text) := by
  rw [scan, partition.reported, List.map_map]
  rfl

theorem isSound (partition : IsPartition text parts) (member : part ∈ parts) : part.IsSound :=
  partition.cuts.isSound member

theorem mem_tokens (partition : IsPartition text parts) (member : part ∈ parts)
    (inside : t ∈ part.tokens) : t ∈ tokens text := by
  rw [partition.tokens_eq]
  exact List.mem_flatMap.mpr ⟨part, member, inside⟩

theorem pairwise_apart (partition : IsPartition text parts) :
    parts.Pairwise fun p q => ∀ t ∈ p.tokens, ∀ u ∈ q.tokens, t.stop ≤ u.start := by
  have apart := (areOrdered_tokens text).apart
  rw [partition.tokens_eq] at apart
  exact (List.pairwise_flatMap.mp apart).2

/-- A token belongs to one part. -/
theorem eq_of_mem (partition : IsPartition text parts) (member : part ∈ parts)
    (member' : other ∈ parts) (inside : t ∈ part.tokens) (inside' : t ∈ other.tokens) :
    part = other := by
  have wide := (areOrdered_tokens text).start_lt t (partition.mem_tokens member inside)
  obtain ⟨front, back, rfl⟩ := List.append_of_mem member
  obtain ⟨-, later, earlier⟩ := List.pairwise_append.mp partition.pairwise_apart
  rcases List.mem_append.mp member' with before | behind
  · have le := earlier other before part (List.mem_cons_self ..) t inside' t inside
    omega
  · rcases List.mem_cons.mp behind with same | behind
    · exact same.symm
    · have le := (List.pairwise_cons.mp later).1 other behind t inside t inside'
      omega

theorem mem_of_between (partition : IsPartition text parts) (member : part ∈ parts)
    (isToken : t ∈ tokens text) {first last : Token} (isFirst : first ∈ part.tokens)
    (isLast : last ∈ part.tokens) (le : first.start ≤ t.start) (lt : t.start < last.stop) :
    t ∈ part.tokens := by
  obtain ⟨front, back, rfl⟩ := List.append_of_mem member
  obtain ⟨behind, before, -⟩ := partition.cuts.exists_at
  have whole := before.eq_append
  have ordered := areOrdered_tokens text
  rw [whole] at ordered isToken
  exact ordered.mem_of_between isToken isFirst isLast le lt

end IsPartition

/-- What is reported stands in source order. -/
theorem pairwise_place_scan (text : List Char) :
    ((scan text .graphql).map Extraction.place).Pairwise (· < ·) := by
  obtain ⟨parts, partition⟩ := exists_isPartition text
  rw [partition.scan_eq, List.map_map, List.pairwise_map]
  refine partition.pairwise_apart.imp_of_mem fun {p q} first second apart => ?_
  obtain ⟨t, inFirst, start⟩ := Part.exists_place (partition.isSound first)
  obtain ⟨u, inSecond, start'⟩ := Part.exists_place (partition.isSound second)
  have wide := (areOrdered_tokens text).start_lt t (partition.mem_tokens first inFirst)
  have le := apart t inFirst u inSecond
  simp only [Function.comp_apply, place_extraction]
  omega

theorem nodup_scan (text : List Char) : (scan text .graphql).Nodup := by
  have places := (pairwise_place_scan text).imp Nat.ne_of_lt
  exact List.Nodup.of_map Extraction.place places

/-! ### What is reported of a part -/

namespace IsPartition

variable {text : List Char} {parts front back : List Part} {before run ts : List Token}
  {bracket t : Token} {span : Span} {c : Char}

theorem mem_literals_iff (partition : IsPartition text parts) {literal : Literal} :
    literal ∈ literals text .graphql ↔ ∃ span ts, .definition span ts ∈ parts ∧
      .ofSpan text (.ofText text) span none [] = literal := by
  rw [Literal.literals_graphql, partition.reported, List.filterMap_map, List.mem_map]
  constructor
  · rintro ⟨span, member, same⟩
    obtain ⟨part, isPart, isSpan⟩ := List.mem_filterMap.mp member
    cases part with
    | definition span' ts =>
      cases isSpan
      exact ⟨span, ts, isPart, same⟩
    | stray => cases isSpan
    | tail => cases isSpan
  · rintro ⟨span, ts, isPart, same⟩
    exact ⟨span, List.mem_filterMap.mpr ⟨_, isPart, rfl⟩, same⟩

/-- The tokens in a literal are those of the part it was made of. -/
theorem tokensIn_eq (partition : IsPartition text parts) (isPart : .definition span ts ∈ parts) :
    tokensIn text (.ofSpan text (.ofText text) span none []) = ts := by
  have reaches : IsSpanOf ts span := (partition.isSound isPart).1
  obtain ⟨front, back, rfl⟩ := List.append_of_mem isPart
  obtain ⟨behind, cuts, -⟩ := partition.cuts.exists_at
  have whole : tokens text = front.flatMap Part.tokens ++ (ts ++ behind) := cuts.eq_append
  have ordered := areOrdered_tokens text
  rw [whole] at ordered
  rw [tokensIn, whole]
  exact ordered.filter_eq reaches

theorem isStray (partition : IsPartition text (front ++ .stray run bracket c :: back)) :
    IsStray text (front.flatMap Part.tokens ++ run) bracket := by
  obtain ⟨behind, cuts, sound, -⟩ := partition.cuts.exists_at
  obtain ⟨all, isMark, closes⟩ := sound
  refine ⟨?_, ?_, c, isMark, closes, ?_⟩
  · rw [cuts.eq_append, Part.tokens, ← List.append_assoc, ← List.append_assoc]
    exact List.prefix_append ..
  · have more : (Part.stray run bracket c).tokens ++ behind ≠ [] := by simp [Part.tokens]
    have outside : (front.flatMap Part.tokens).foldl deepen 0 = 0 := cuts.nesting_eq_zero more
    rw [nesting, List.foldl_append, outside, foldl_deepen_descriptions all]
  · refine List.count_eq_one_of_mem (nodup_scan text) ?_
    rw [partition.scan_eq]
    exact List.mem_map.mpr ⟨.stray run bracket c, by simp, rfl⟩

theorem exists_stray (partition : IsPartition text parts) (stray : IsStray text before t) :
    ∃ run c, .stray run t c ∈ parts := by
  obtain ⟨c, _, _, once⟩ := stray.reported
  have reported : .skipped (.unbalanced c) t.start ∈ scan text .graphql :=
    List.count_pos_iff.mp (by omega)
  rw [partition.scan_eq] at reported
  obtain ⟨part, isPart, same⟩ := List.mem_map.mp reported
  cases part with
  | definition => cases same
  | stray run bracket d =>
    have place : bracket.start = t.start := (Extraction.skipped.inj same).2
    have isToken : bracket ∈ tokens text := partition.mem_tokens isPart (by simp [Part.tokens])
    cases (areOrdered_tokens text).eq_of_start isToken stray.isToken_self place
    exact ⟨run, d, isPart⟩
  | tail reason offset ts =>
    cases same
    cases (partition.isSound isPart).1

end IsPartition

/-- What becomes of a token of a part. -/
inductive Part.Gives (t : Token) : Part → Fate → Prop
  | found {span : Span} {ts : List Token} (inside : t ∈ ts) : Gives t (.definition span ts) .found
  | stray (run : List Token) (c : Char) : Gives t (.stray run t c) .stray
  | dropped {run : List Token} (inside : t ∈ run) (bracket : Token) (c : Char) :
    Gives t (.stray run bracket c) .dropped
  | tail {reason : SkipReason} {offset : Nat} {ts : List Token} (inside : t ∈ ts) :
    Gives t (.tail reason offset ts) .tail

namespace Part.Gives

variable {part : Part} {fate other : Fate} {t : Token}

theorem of_mem (inside : t ∈ part.tokens) : ∃ fate, part.Gives t fate := by
  cases part with
  | definition => exact ⟨_, .found inside⟩
  | stray run bracket c =>
    rcases List.mem_append.mp inside with inside | isBracket
    · exact ⟨_, .dropped inside bracket c⟩
    · cases List.mem_singleton.mp isBracket
      exact ⟨_, .stray run c⟩
  | tail => exact ⟨_, .tail inside⟩

theorem mem (gives : part.Gives t fate) : t ∈ part.tokens := by
  cases gives with
  | found inside => exact inside
  | stray => simp [Part.tokens]
  | dropped inside => exact List.mem_append_left _ inside
  | tail inside => exact inside

theorem unique (sound : part.IsSound) (gives : part.Gives t fate) (gives' : part.Gives t other) :
    fate = other := by
  cases gives with
  | found => cases gives'; rfl
  | tail => cases gives'; rfl
  | stray run c =>
    cases gives' with
    | stray => rfl
    | dropped inside => cases (sound.1 t inside).symm.trans sound.2.1
  | dropped inside bracket c =>
    cases gives' with
    | stray => cases (sound.1 t inside).symm.trans sound.2.1
    | dropped => rfl

end Part.Gives

namespace IsPartition

variable {text : List Char} {parts front back : List Part} {part : Part}
  {before run : List Token} {bracket t u : Token} {c : Char} {fate : Fate}

/-- Descriptions that are dropped stand at the start of the document or behind another closing
bracket outside all brackets. -/
theorem isFated_dropped (partition : IsPartition text (front ++ .stray run bracket c :: back))
    (inside : t ∈ run) : IsFated text t .dropped := by
  have stray := partition.isStray
  obtain ⟨behind, cuts, sound, -⟩ := partition.cuts.exists_at
  refine ⟨_, run, bracket, inside, sound.1, stray, ?_⟩
  rcases List.eq_nil_or_concat front with rfl | ⟨earlier, last, rfl⟩
  · exact .inl rfl
  · right
    rw [List.concat_eq_append, List.append_assoc] at partition
    rw [List.concat_eq_append] at cuts ⊢
    obtain ⟨between, -, _, ends, later⟩ := cuts.exists_at
    cases later
    cases last with
    | definition span ts =>
      -- A definition is not followed by a description.
      obtain ⟨u, more, rfl⟩ := List.exists_cons_of_ne_nil (List.ne_nil_of_mem inside)
      rcases ends with nothing | ⟨-, next⟩
      · cases nothing
      · exact absurd (sound.1 u (List.mem_cons_self ..)) (next u rfl)
    | stray run' bracket' c' =>
      refine ⟨_, bracket', ?_, partition.isStray⟩
      simp [Part.tokens]
    | tail reason offset ts =>
      have nothing : run ++ [bracket] ++ behind = [] := ends
      simp at nothing

theorem isFated_of_gives (partition : IsPartition text parts) (isPart : part ∈ parts)
    (gives : part.Gives t fate) : IsFated text t fate := by
  have sound := partition.isSound isPart
  cases gives with
  | @found span ts inside =>
    refine ⟨_, partition.mem_literals_iff.mpr ⟨span, ts, isPart, rfl⟩, ?_⟩
    obtain ⟨front, back, rfl⟩ := List.append_of_mem isPart
    obtain ⟨behind, cuts, -⟩ := partition.cuts.exists_at
    have ordered := areOrdered_tokens text
    rw [cuts.eq_append] at ordered
    exact ⟨ordered.middle.start_le sound.1.first inside, ordered.middle.le_stop sound.1.last inside⟩
  | stray run c =>
    obtain ⟨front, back, rfl⟩ := List.append_of_mem isPart
    exact ⟨_, partition.isStray⟩
  | dropped inside bracket c =>
    obtain ⟨front, back, rfl⟩ := List.append_of_mem isPart
    exact partition.isFated_dropped inside
  | @tail reason offset ts inside =>
    obtain ⟨front, back, rfl⟩ := List.append_of_mem isPart
    obtain ⟨behind, cuts, _, ends, later⟩ := partition.cuts.exists_at
    have isEnd : behind = [] := ends
    subst isEnd
    cases later.eq_nil
    have scanned := partition.scan_eq
    rw [List.map_append] at scanned
    refine ⟨_, reason, offset, scanned, sound.1, fun e isEarlier => ?_, ?_⟩
    · obtain ⟨earlier, member, rfl⟩ := List.mem_map.mp isEarlier
      have more : (Part.tail reason offset ts).tokens ++ [] ≠ [] :=
        List.ne_nil_of_mem (List.mem_append_left _ inside)
      exact cuts.breaksOff_eq_false more member text _
    · have ordered := areOrdered_tokens text
      rw [cuts.eq_append] at ordered
      exact ordered.middle.start_le sound.2 inside

/-- A token behind one of a part belongs to the part, or something follows the part. -/
theorem mem_or_ends (partition : IsPartition text parts) (isPart : part ∈ parts)
    (inside : t ∈ part.tokens) (isToken : u ∈ tokens text) (le : t.start ≤ u.start) :
    u ∈ part.tokens ∨ ∃ behind, behind ≠ [] ∧ part.Ends behind := by
  obtain ⟨front, back, rfl⟩ := List.append_of_mem isPart
  obtain ⟨behind, cuts, _, ends, -⟩ := partition.cuts.exists_at
  have ordered := areOrdered_tokens text
  have wide := ordered.start_lt u isToken
  rw [cuts.eq_append] at ordered isToken
  rcases List.mem_append.mp isToken with earlier | isToken
  · have le' := (List.pairwise_append.mp ordered.apart).2.2 u earlier t
      (List.mem_append_left _ inside)
    omega
  · rcases List.mem_append.mp isToken with inside' | later
    · exact .inl inside'
    · exact .inr ⟨behind, List.ne_nil_of_mem later, ends⟩

/-- A closing bracket outside all brackets belongs to no other part. -/
theorem eq_stray (partition : IsPartition text parts) (isPart : part ∈ parts)
    (stray : IsStray text before t) (inside : t ∈ part.tokens) :
    ∃ run c, part = .stray run t c := by
  obtain ⟨run, c, isStray⟩ := partition.exists_stray stray
  exact ⟨run, c, partition.eq_of_mem isPart isStray inside (by simp [Part.tokens])⟩

/-- A part of which one token stands between two closing brackets outside all brackets, or in front
of the first one, lies there as a whole if it holds neither of them. -/
theorem mem_run (partition : IsPartition text parts) (isPart : part ∈ parts)
    (other : ∀ {before b}, IsStray text before b → b ∉ part.tokens)
    (stray : IsStray text (before ++ run) bracket)
    (first : before = [] ∨ ∃ front last, before = front ++ [last] ∧ IsStray text front last)
    (inside : t ∈ part.tokens) (inRun : t ∈ run) (inside' : u ∈ part.tokens) : u ∈ run := by
  have isToken := partition.mem_tokens isPart inside
  have isToken' := partition.mem_tokens isPart inside'
  have wide := (areOrdered_tokens text).start_lt t isToken
  have wide' := (areOrdered_tokens text).start_lt u isToken'
  rcases Nat.lt_or_ge u.start bracket.start with ahead | behind
  · rcases List.mem_append.mp ((stray.mem_iff isToken').mpr ahead) with earlier | inRun'
    · rcases first with rfl | ⟨front, last, rfl, strayFirst⟩
      · cases earlier
      · -- The first bracket would stand between the two tokens.
        have apart := (areOrdered_tokens text).apart.sublist stray.isToken.sublist
        have beforeRun := (List.pairwise_append.mp (List.pairwise_append.mp apart).1).2.2
        have isLast := strayFirst.isToken_self
        have width := (areOrdered_tokens text).start_lt last isLast
        have le := beforeRun last (by simp) t inRun
        have le' : u.start ≤ last.start := by
          rcases List.mem_append.mp earlier with further | same
          · exact Nat.le_of_lt ((strayFirst.mem_iff isToken').mp further)
          · obtain rfl := List.mem_singleton.mp same
            exact Nat.le_refl _
        have between := partition.mem_of_between isPart isLast inside' inside le' (by omega)
        exact absurd between (other strayFirst)
    · exact inRun'
  · have le := (stray.mem_iff isToken).mp (List.mem_append_right _ inRun)
    have between := partition.mem_of_between isPart stray.isToken_self inside inside'
      (Nat.le_of_lt le) (by omega)
    exact absurd between (other stray)

/-- Descriptions in front of a closing bracket outside all brackets go with it when nothing else, or
another such bracket, stands before them. -/
theorem exists_dropped (partition : IsPartition text parts) (inRun : t ∈ run)
    (all : ∀ u ∈ run, u.kind = .description) (stray : IsStray text (before ++ run) bracket)
    (first : before = [] ∨ ∃ front last, before = front ++ [last] ∧ IsStray text front last) :
    ∃ run bracket c, t ∈ run ∧ .stray run bracket c ∈ parts := by
  have isToken : t ∈ tokens text := stray.isToken.subset (by simp [inRun])
  have ahead := (stray.mem_iff isToken).mp (List.mem_append_right _ inRun)
  rw [partition.tokens_eq] at isToken
  obtain ⟨part, isPart, inside⟩ := List.mem_flatMap.mp isToken
  have sound := partition.isSound isPart
  have follows := partition.mem_or_ends isPart inside stray.isToken_self (Nat.le_of_lt ahead)
  cases part with
  | stray run' bracket' c =>
    rcases List.mem_append.mp inside with inRun' | same
    · exact ⟨run', bracket', c, inRun', isPart⟩
    · rw [List.mem_singleton.mp same] at inRun
      cases (all bracket' inRun).symm.trans sound.2.1
  | tail reason offset ts =>
    rcases follows with isInside | ⟨_, more, nothing⟩
    · obtain ⟨_, _, same⟩ := partition.eq_stray isPart stray isInside
      cases same
    · exact absurd nothing more
  | definition span ts =>
    have other {before : List Token} {b : Token} (stray : IsStray text before b) : b ∉ ts := by
      intro inside
      obtain ⟨_, _, same⟩ := partition.eq_stray isPart stray inside
      cases same
    rcases follows with isInside | ⟨_, more, ends⟩
    · exact absurd isInside (other stray)
    · -- All of the definition is in the run, but something of it is no description.
      obtain ⟨⟨u, isInside, noDescription⟩, -⟩ := ends.resolve_left more
      have inRun' := partition.mem_run isPart other stray first inside inRun isInside
      exact absurd (all u inRun') noDescription

theorem exists_gives (partition : IsPartition text parts) (isToken : t ∈ tokens text)
    (fated : IsFated text t fate) : ∃ part ∈ parts, part.Gives t fate := by
  cases fate with
  | found =>
    obtain ⟨literal, isLiteral, starts, stops⟩ := fated
    obtain ⟨span, ts, isPart, rfl⟩ := partition.mem_literals_iff.mp isLiteral
    refine ⟨_, isPart, .found ?_⟩
    rw [← partition.tokensIn_eq isPart, tokensIn, List.mem_filter, Bool.and_eq_true,
      decide_eq_true_eq, decide_eq_true_eq]
    exact ⟨isToken, starts, stops⟩
  | stray =>
    obtain ⟨before, stray⟩ := fated
    obtain ⟨run, c, isPart⟩ := partition.exists_stray stray
    exact ⟨_, isPart, .stray run c⟩
  | tail =>
    obtain ⟨front, reason, offset, scanned, breaksOff, -, behind⟩ := fated
    rw [partition.scan_eq] at scanned
    obtain ⟨earlier, others, rfl, -, isLast⟩ := List.map_eq_append_iff.mp scanned
    obtain ⟨part, nothing, rfl, reported, isNil⟩ := List.map_eq_cons_iff.mp isLast
    cases List.map_eq_nil_iff.mp isNil
    cases part with
    | definition => cases reported
    | stray =>
      cases reported
      cases breaksOff
    | tail reason offset ts =>
      cases reported
      have isPart : Part.tail reason offset ts ∈ earlier ++ [.tail reason offset ts] := by simp
      obtain ⟨first, isFirst, start⟩ := Part.exists_place (partition.isSound isPart)
      have start : first.start = offset := start
      have whole := partition.tokens_eq
      rw [whole] at isToken
      obtain ⟨other, isOther, inside⟩ := List.mem_flatMap.mp isToken
      rcases List.mem_append.mp isOther with before | last
      · have le := (List.pairwise_append.mp partition.pairwise_apart).2.2 other before _
          (List.mem_singleton_self _) t inside first isFirst
        have wide := (areOrdered_tokens text).start_lt t (partition.mem_tokens isOther inside)
        omega
      · cases List.mem_singleton.mp last
        exact ⟨_, isPart, .tail inside⟩
  | dropped =>
    obtain ⟨before, run, bracket, inside, all, stray, first⟩ := fated
    obtain ⟨run', bracket', c, inside', isPart⟩ := partition.exists_dropped inside all stray first
    exact ⟨_, isPart, .dropped inside' bracket' c⟩

/-- Every token of a document has one fate. -/
theorem existsUnique_fate (partition : IsPartition text parts) (isToken : t ∈ tokens text) :
    ∃! fate, IsFated text t fate := by
  have inParts := isToken
  rw [partition.tokens_eq] at inParts
  obtain ⟨part, isPart, inside⟩ := List.mem_flatMap.mp inParts
  obtain ⟨fate, gives⟩ := Part.Gives.of_mem inside
  refine ⟨fate, partition.isFated_of_gives isPart gives, fun other fated => ?_⟩
  obtain ⟨part', isPart', gives'⟩ := partition.exists_gives isToken fated
  cases partition.eq_of_mem isPart isPart' inside gives'.mem
  exact gives'.unique (partition.isSound isPart) gives

end IsPartition

/-- The literals of a GraphQL document lie one behind the other. Each reaches from the start of a
token to the end of one, and the brackets in it are balanced. Every token of the document has one of
four fates: it lies in a literal, or it is a closing bracket outside all brackets, or it lies behind
the last finding, which says that the document ends too early, or it is one of the descriptions that
such a bracket takes away. -/
theorem scan_graphql_partition (text : List Char) :
    (literals text .graphql).Pairwise (fun a b => a.stop ≤ b.start) ∧
      (∀ literal ∈ literals text .graphql, literal.start < literal.stop ∧
        IsSpanOf (tokensIn text literal) ⟨literal.start, literal.stop⟩ ∧
        AreBalanced (tokensIn text literal)) ∧
      ∀ t ∈ tokens text, ∃! fate, IsFated text t fate := by
  obtain ⟨parts, partition⟩ := exists_isPartition text
  obtain ⟨wide, apart⟩ := pieces_ordered text
  refine ⟨?_, fun literal isLiteral => ?_, fun t isToken => partition.existsUnique_fate isToken⟩
  · rw [Literal.literals_graphql]
    exact List.pairwise_map.mpr apart
  · obtain ⟨span, ts, isPart, rfl⟩ := partition.mem_literals_iff.mp isLiteral
    obtain ⟨reaches, balanced⟩ := partition.isSound isPart
    have isSpan : span ∈ (pieces text).filterMap Piece.span? := by
      rw [partition.reported]
      exact List.mem_filterMap.mpr ⟨_, List.mem_map_of_mem isPart, rfl⟩
    rw [partition.tokensIn_eq isPart]
    exact ⟨wide span isSpan, reaches, balanced⟩

/-- A description behind a bracket is taken away, one inside a definition is not. -/
example : (scan "\"a\" \x7d type A \"b\" \x7d \x7b".toList .graphql).map
    (fun e => (e.place, e.breaksOff)) = [(4, false), (6, false), (17, false), (19, true)] := by
  decide

end Definitions
end InlineQuery
