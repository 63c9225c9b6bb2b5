import InlineQuery.Config.EnvTemplate
import InlineQuery.Proofs.Query.Scanning
import Mathlib.Data.List.Flatten

/-!
Expanding references. A template is cut into literal text and references, and expanding it replaces
each reference by its value and nothing else. In a value every text is expanded that stands in lists
and mappings; tuples and sets stay as they are.
-/

namespace InlineQuery

namespace EnvTemplate

/-- A reference as it is written: spacing and the scope may stand before the name, and spacing
behind it. -/
structure Reference where
  before : List Char
  isScoped : Bool
  between : List Char
  name : List Char
  behind : List Char
  areSpaces : ∀ c ∈ before ++ between ++ behind, Text.isSpace c = true
  areNameParts : ∀ c ∈ name, isNamePart c = true
  isGiven : name ≠ []
  startsApart : ∀ c ∈ name.head?, c.isDigit = false

/-- What is written behind the opening brace. -/
def Reference.inside (r : Reference) : List Char :=
  r.before ++ ((if r.isScoped then scope else []) ++ (r.between ++ (r.name ++ (r.behind ++ ['}']))))

def Reference.text (r : Reference) : List Char := '$' :: '{' :: r.inside

/-- A part of a template. -/
inductive Segment where
  | literal (cs : List Char)
  | reference (r : Reference)

namespace Segment

def text : Segment → List Char
  | literal cs => cs
  | reference r => r.text

/-- What a part of a template is replaced by. -/
def value (env : Environment) : Segment → List Char
  | literal cs => cs
  | reference r => lookup env r.name

end Segment

/-- No run of adjacent literal parts opens a reference. -/
def OpensNothing (segments : List Segment) : Prop :=
  ∀ before (run : List (List Char)) after, segments = before ++ run.map .literal ++ after →
    ¬ ['$', '{'] <:+: run.flatten

section Characters

variable {c : Char}

theorem isNamePart_of_isNameStart (start : isNameStart c = true) : isNamePart c = true := by
  simp only [isNameStart, isNamePart, Char.isAlphanum, Bool.or_eq_true] at start ⊢
  exact start.imp_left Or.inl

theorem isNameStart_of_isNamePart (part : isNamePart c = true) (noDigit : c.isDigit = false) :
    isNameStart c = true := by
  simpa [isNameStart, isNamePart, Char.isAlphanum, noDigit] using part

/-- A part of a name is one of a name in a query too, and those are no white space. -/
theorem isSpace_of_isNamePart (part : isNamePart c = true) : Text.isSpace c = false :=
  Query.isSpace_of_isSolid (Query.isSolid_of_isNamePart part)

theorem isNamePart_of_isSpace (space : Text.isSpace c = true) : isNamePart c = false := by
  cases part : isNamePart c with
  | false => rfl
  | true =>
    rw [isSpace_of_isNamePart part] at space
    cases space

end Characters

theorem trimStart_append {gap rest : List Char} (spaces : ∀ c ∈ gap, Text.isSpace c = true) :
    Text.trimStart (gap ++ rest) = Text.trimStart rest :=
  List.dropWhile_append_of_pos spaces

theorem trimStart_of_head? {cs : List Char} (solid : ∀ c ∈ cs.head?, Text.isSpace c = false) :
    Text.trimStart cs = cs := by
  cases cs with
  | nil => rfl
  | cons c r => exact List.dropWhile_cons_of_neg (by simp [solid c rfl])

namespace Reference

variable (r : Reference) (rest : List Char)

/-- What follows the name. -/
def ending : List Char := r.behind ++ '}' :: rest

theorem trimStart_ending : Text.trimStart (r.ending rest) = '}' :: rest := by
  rw [ending, trimStart_append fun c member => r.areSpaces c (by simp [member])]
  exact trimStart_of_head? (by simp; decide)

theorem isNamePart_of_head?_ending : ∀ c ∈ (r.ending rest).head?, isNamePart c = false := by
  intro c first
  cases gap : r.behind with
  | nil =>
    simp only [ending, gap, List.nil_append, List.head?_cons, Option.mem_some_iff] at first
    subst first
    decide
  | cons d more =>
    simp only [ending, gap, List.cons_append, List.head?_cons, Option.mem_some_iff] at first
    subst first
    exact isNamePart_of_isSpace (r.areSpaces d (by simp [gap]))

theorem takeWhile_name : (r.name ++ r.ending rest).takeWhile isNamePart = r.name := by
  rw [List.takeWhile_append_of_pos r.areNameParts]
  have stops := r.isNamePart_of_head?_ending rest
  cases ending : r.ending rest with
  | nil => simp
  | cons c more => simp [stops c (by simp [ending])]

theorem dropWhile_name : (r.name ++ r.ending rest).dropWhile isNamePart = r.ending rest := by
  rw [List.dropWhile_append_of_pos r.areNameParts]
  have stops := r.isNamePart_of_head?_ending rest
  cases ending : r.ending rest with
  | nil => rfl
  | cons c more => simp [stops c (by simp [ending])]

/-- A name is no scope: no colon follows it. -/
theorem scope_isPrefixOf_name : scope.isPrefixOf (r.name ++ r.ending rest) = false := by
  refine Bool.eq_false_iff.mpr fun isPrefix => ?_
  obtain ⟨more, same⟩ := List.isPrefixOf_iff_prefix.mp isPrefix
  have cut := r.dropWhile_name rest
  rw [← same] at cut
  have colon : (scope ++ more).dropWhile isNamePart = ':' :: more := rfl
  rw [colon] at cut
  cases gap : r.behind with
  | nil => simp [ending, gap] at cut
  | cons c spaces =>
    simp only [ending, gap, List.cons_append, List.cons.injEq] at cut
    have space := r.areSpaces c (by simp [gap])
    rw [← cut.1] at space
    revert space
    decide

theorem exists_name : ∃ c more, r.name = c :: more ∧ isNameStart c = true := by
  obtain ⟨c, more, name⟩ := List.exists_cons_of_ne_nil r.isGiven
  refine ⟨c, more, name, isNameStart_of_isNamePart (r.areNameParts c ?_) (r.startsApart c ?_)⟩
  · simp [name]
  · simp [name]

theorem trimStart_name : Text.trimStart (r.name ++ r.ending rest) = r.name ++ r.ending rest := by
  refine trimStart_of_head? fun c first => ?_
  obtain ⟨d, more, name, start⟩ := r.exists_name
  rw [name, List.cons_append, List.head?_cons, Option.mem_some_iff] at first
  subst first
  exact isSpace_of_isNamePart (isNamePart_of_isNameStart start)

/-- Behind white space and the scope a reference goes on with its name. -/
theorem afterScope_inside : afterScope (r.inside ++ rest) = r.name ++ r.ending rest := by
  have before : ∀ c ∈ r.before, Text.isSpace c = true :=
    fun c member => r.areSpaces c (by simp [member])
  have between : ∀ c ∈ r.between, Text.isSpace c = true :=
    fun c member => r.areSpaces c (by simp [member])
  cases given : r.isScoped with
  | false =>
    have split : r.inside ++ rest = r.before ++ (r.between ++ (r.name ++ r.ending rest)) := by
      simp [inside, ending, given]
    rw [afterScope, split, trimStart_append before, trimStart_append between, r.trimStart_name]
    simp [r.scope_isPrefixOf_name]
  | true =>
    have split : r.inside ++ rest =
        r.before ++ (scope ++ (r.between ++ (r.name ++ r.ending rest))) := by
      simp [inside, ending, given]
    have solid : ∀ c ∈ (scope ++ (r.between ++ (r.name ++ r.ending rest))).head?,
        Text.isSpace c = false := by
      intro c first
      cases first
      decide
    have isPrefix : scope.isPrefixOf (scope ++ (r.between ++ (r.name ++ r.ending rest))) = true :=
      List.isPrefixOf_iff_prefix.mpr (List.prefix_append ..)
    rw [afterScope, split, trimStart_append before, trimStart_of_head? solid]
    simp only [isPrefix, if_true]
    rw [List.drop_left, trimStart_append between, r.trimStart_name]

/-- A reference is read from the start of a text, whatever follows it. -/
theorem reference?_text : reference? (r.text ++ rest) = some (r.name, rest) := by
  have inside := r.afterScope_inside rest
  obtain ⟨c, more, name, start⟩ := r.exists_name
  have named := r.takeWhile_name rest
  have left := r.dropWhile_name rest
  rw [name, List.cons_append] at inside named left
  rw [text, List.cons_append, List.cons_append, reference?]
  simp only [inside, start, if_true, named, left, r.trimStart_ending, name]

end Reference

section Templates

variable (env : Environment)

theorem expandFrom_skip (skipped rest : List Char) :
    expandFrom env skipped.length (skipped ++ rest) = expandFrom env 0 rest := by
  induction skipped with
  | nil => rfl
  | cons c r ih => exact ih

theorem expandFrom_reference (r : Reference) (rest : List Char) :
    expandFrom env 0 (r.text ++ rest) = lookup env r.name ++ expandFrom env 0 rest := by
  have read := r.reference?_text rest
  rw [Reference.text, List.cons_append] at read ⊢
  have length : (('{' :: r.inside) ++ rest).length - rest.length = ('{' :: r.inside).length := by
    rw [List.length_append, Nat.add_sub_cancel]
  rw [expandFrom]
  simp only [read, length, expandFrom_skip]

/-- A reference starts with a dollar sign and an opening brace. -/
theorem reference?_eq_none {cs : List Char} (apart : ¬ ['$', '{'] <+: cs) : reference? cs = none := by
  unfold reference?
  split
  · exact absurd (List.prefix_append ['$', '{'] _) apart
  · rfl

/-- Literal text stays if no reference opens in it, nor with the first character behind it. -/
theorem expandFrom_literal (cs rest : List Char) (apart : ¬ ['$', '{'] <:+: cs ++ rest.take 1) :
    expandFrom env 0 (cs ++ rest) = cs ++ expandFrom env 0 rest := by
  induction cs with
  | nil => rfl
  | cons c r ih =>
    have here : ¬ ['$', '{'] <+: c :: (r ++ rest) := by
      rintro ⟨more, same⟩
      refine apart (List.IsPrefix.isInfix ?_)
      cases r with
      | nil =>
        cases rest with
        | nil => cases same
        | cons d rest =>
          cases same
          exact List.prefix_refl _
      | cons d r =>
        cases same
        exact List.prefix_append ['$', '{'] _
    have later : ¬ ['$', '{'] <:+: r ++ rest.take 1 :=
      fun opens => apart (opens.trans (List.suffix_cons c _).isInfix)
    rw [List.cons_append, expandFrom]
    simp only [reference?_eq_none here, ih later, List.cons_append]

theorem OpensNothing.tail {segment : Segment} {rest : List Segment}
    (apart : OpensNothing (segment :: rest)) : OpensNothing rest := by
  intro before run after same
  exact apart (segment :: before) run after (by rw [same]; rfl)

/-- A brace at the start of a template stands in its first run of literal parts. -/
theorem exists_run_of_brace {segments : List Segment}
    (brace : (segments.flatMap Segment.text).head? = some '{') :
    ∃ (run : List (List Char)) (after : List Segment),
      segments = run.map .literal ++ after ∧ run.flatten.head? = some '{' := by
  induction segments with
  | nil => cases brace
  | cons segment rest ih =>
    cases segment with
    | reference r => cases brace
    | literal cs =>
      cases cs with
      | nil =>
        obtain ⟨run, after, rfl, first⟩ := ih brace
        exact ⟨[] :: run, after, rfl, first⟩
      | cons c r => exact ⟨[c :: r], rest, rfl, brace⟩

/-- A literal part opens nothing together with the first character behind it. -/
theorem OpensNothing.head {cs : List Char} {rest : List Segment}
    (apart : OpensNothing (.literal cs :: rest)) :
    ¬ ['$', '{'] <:+: cs ++ (rest.flatMap Segment.text).take 1 := by
  have alone : ¬ ['$', '{'] <:+: cs := by
    simpa using apart [] [cs] rest rfl
  cases text : rest.flatMap Segment.text with
  | nil => simpa using alone
  | cons d more =>
    by_cases brace : d = '{'
    · subst brace
      obtain ⟨run, after, rfl, first⟩ := exists_run_of_brace
        (show (rest.flatMap Segment.text).head? = some '{' by simp [text])
      have whole := apart [] (cs :: run) after rfl
      refine fun opens => whole (opens.trans ?_)
      cases inner : run.flatten with
      | nil => simp [inner] at first
      | cons c tail =>
        simp only [inner, List.head?_cons, Option.some.injEq] at first
        subst first
        exact ⟨[], tail, by simp [inner]⟩
    · rintro ⟨front, back, same⟩
      rcases List.eq_nil_or_concat back with rfl | ⟨back, last, rfl⟩
      · have ends := congrArg List.getLast? same
        simp at ends
        exact brace ends.symm
      · refine alone ⟨front, back, ?_⟩
        have regrouped : (front ++ ['$', '{'] ++ back) ++ [last] = cs ++ [d] := by
          simpa using same
        exact (List.append_inj' regrouped rfl).1

/-- Expanding a template replaces its references and nothing else. -/
theorem expandFrom_segments {segments : List Segment} (apart : OpensNothing segments) :
    expandFrom env 0 (segments.flatMap Segment.text) = segments.flatMap (Segment.value env) := by
  induction segments with
  | nil => rfl
  | cons segment rest ih =>
    rw [List.flatMap_cons, List.flatMap_cons, ← ih apart.tail]
    cases segment with
    | literal cs => exact expandFrom_literal env cs _ apart.head
    | reference r => exact expandFrom_reference env r _

end Templates

end EnvTemplate

namespace Datum

mutual

/-- Maps the texts of a value at any depth; keys stay. -/
def mapTexts (f : String → String) : Datum → Datum
  | .text s => .text (f s)
  | .list items => .list (mapItems f items)
  | .tuple items => .tuple (mapItems f items)
  | .set items => .set (mapItems f items)
  | .map entries => .map (mapEntries f entries)
  | value => value

def mapItems (f : String → String) : List Datum → List Datum
  | [] => []
  | x :: xs => mapTexts f x :: mapItems f xs

def mapEntries (f : String → String) : List (Datum × Datum) → List (Datum × Datum)
  | [] => []
  | (k, v) :: rest => (k, mapTexts f v) :: mapEntries f rest

end

mutual

/-- The texts of a value at any depth. -/
def texts : Datum → List String
  | .text s => [s]
  | .list items | .tuple items | .set items => itemTexts items
  | .map entries => entryTexts entries
  | _ => []

def itemTexts : List Datum → List String
  | [] => []
  | x :: xs => texts x ++ itemTexts xs

def entryTexts : List (Datum × Datum) → List String
  | [] => []
  | (_, v) :: rest => texts v ++ entryTexts rest

end

mutual

/-- The texts of a value that stand in a tuple or a set. -/
def fixedTexts : Datum → List String
  | .list items => itemFixedTexts items
  | .tuple items | .set items => itemTexts items
  | .map entries => entryFixedTexts entries
  | _ => []

def itemFixedTexts : List Datum → List String
  | [] => []
  | x :: xs => fixedTexts x ++ itemFixedTexts xs

def entryFixedTexts : List (Datum × Datum) → List String
  | [] => []
  | (_, v) :: rest => fixedTexts v ++ entryFixedTexts rest

end

section

variable {f : String → String}

mutual

theorem mapTexts_eq_self_iff : (v : Datum) → (v.mapTexts f = v ↔ ∀ s ∈ v.texts, f s = s)
  | .text s => by simp [mapTexts, texts]
  | .list items => by simpa [mapTexts, texts] using mapItems_eq_self_iff items
  | .tuple items => by simpa [mapTexts, texts] using mapItems_eq_self_iff items
  | .set items => by simpa [mapTexts, texts] using mapItems_eq_self_iff items
  | .map entries => by simpa [mapTexts, texts] using mapEntries_eq_self_iff entries
  | .null | .bool _ | .int _ | .float _ | .date _ | .moment _ | .bytes _ => by simp [mapTexts, texts]

theorem mapItems_eq_self_iff :
    (items : List Datum) → (mapItems f items = items ↔ ∀ s ∈ itemTexts items, f s = s)
  | [] => by simp [mapItems, itemTexts]
  | x :: xs => by
    simp [mapItems, itemTexts, or_imp, forall_and, mapTexts_eq_self_iff x, mapItems_eq_self_iff xs]

theorem mapEntries_eq_self_iff : (entries : List (Datum × Datum)) →
    (mapEntries f entries = entries ↔ ∀ s ∈ entryTexts entries, f s = s)
  | [] => by simp [mapEntries, entryTexts]
  | (k, v) :: rest => by
    simp [mapEntries, entryTexts, or_imp, forall_and, mapTexts_eq_self_iff v,
      mapEntries_eq_self_iff rest]

end

end

end Datum

namespace EnvTemplate

variable {env : Environment}

mutual

/-- Expanding a value expands all of its texts unless a tuple or a set holds one that expanding
changes. -/
theorem expandDatum_eq_iff : (v : Datum) → (expandDatum env v = v.mapTexts (expand env) ↔
    ∀ s ∈ v.fixedTexts, expand env s = s)
  | .list items => by
    simpa [expandDatum, Datum.mapTexts, Datum.fixedTexts] using expandItems_eq_iff items
  | .map entries => by
    simpa [expandDatum, Datum.mapTexts, Datum.fixedTexts] using expandEntries_eq_iff entries
  | .tuple items => by
    simpa [expandDatum, Datum.mapTexts, Datum.fixedTexts, eq_comm] using
      Datum.mapItems_eq_self_iff (f := expand env) items
  | .set items => by
    simpa [expandDatum, Datum.mapTexts, Datum.fixedTexts, eq_comm] using
      Datum.mapItems_eq_self_iff (f := expand env) items
  | .text _ | .null | .bool _ | .int _ | .float _ | .date _ | .moment _ | .bytes _ => by
    simp [expandDatum, Datum.mapTexts, Datum.fixedTexts]

theorem expandItems_eq_iff : (items : List Datum) →
    (expandItems env items = Datum.mapItems (expand env) items ↔
      ∀ s ∈ Datum.itemFixedTexts items, expand env s = s)
  | [] => by simp [expandItems, Datum.mapItems, Datum.itemFixedTexts]
  | x :: xs => by
    simp [expandItems, Datum.mapItems, Datum.itemFixedTexts, or_imp, forall_and,
      expandDatum_eq_iff x, expandItems_eq_iff xs]

theorem expandEntries_eq_iff : (entries : List (Datum × Datum)) →
    (expandEntries env entries = Datum.mapEntries (expand env) entries ↔
      ∀ s ∈ Datum.entryFixedTexts entries, expand env s = s)
  | [] => by simp [expandEntries, Datum.mapEntries, Datum.entryFixedTexts]
  | (k, v) :: rest => by
    simp [expandEntries, Datum.mapEntries, Datum.entryFixedTexts, or_imp, forall_and,
      expandDatum_eq_iff v, expandEntries_eq_iff rest]

end

/-- Expanding a template replaces each of its references by the value of its name, which is not
expanded again, and keeps the text between them. Expanding a value does the same to every text at any
depth and to nothing else, exactly if the texts that stand in tuples and sets need no expanding. -/
theorem expand_segments (env : Environment) {segments : List Segment}
    (apart : OpensNothing segments) :
    expand env (String.ofList (segments.flatMap Segment.text)) =
        String.ofList (segments.flatMap (Segment.value env)) ∧
      ∀ v : Datum, expandDatum env v = v.mapTexts (expand env) ↔
        ∀ s ∈ v.fixedTexts, expand env s = s := by
  refine ⟨?_, expandDatum_eq_iff⟩
  rw [expand, String.toList_ofList, expandFrom_segments env apart]

/-- A dollar sign in front of a reference whose value looks like a reference itself. -/
theorem expand_segments_doubled :
    let r : Reference := ⟨[' '], true, [], ['e', 'n', 'v'], ['\t'], List.all_eq_true.mp (by decide),
      List.all_eq_true.mp (by decide), by decide, by simp⟩
    let env : Environment := [("env", "$\x7benv\x7d")]
    let v : Datum := .map [(.text "$\x7benv\x7d", .list [.text "$\x7benv\x7d", .tuple [.text "$"]])]
    OpensNothing [.literal ['$'], .reference r] ∧
      expand env "$$\x7b env:env\t\x7d" = "$$\x7benv\x7d" ∧
      expandDatum env v = v.mapTexts (expand env) := by
  intro r env v
  have apart : OpensNothing [.literal ['$'], .reference r] := by
    intro before run after same opens
    have part : (run.map Segment.literal).Sublist [.literal ['$'], .reference r] :=
      List.IsInfix.sublist ⟨before, after, same.symm⟩
    have single : run.flatten.Sublist ['$'] := by
      simpa [List.flatMap_map, List.flatMap_id'] using part.flatMap fun s => match s with
        | Segment.literal cs => cs
        | .reference _ => []
    have short := (opens.sublist.trans single).length_le
    simp at short
  obtain ⟨expanded, values⟩ := expand_segments env apart
  have text : [Segment.literal ['$'], .reference r].flatMap Segment.text =
      "$$\x7b env:env\t\x7d".toList := by decide
  have value : [Segment.literal ['$'], .reference r].flatMap (Segment.value env) =
      "$$\x7benv\x7d".toList := by decide
  rw [text, value, String.ofList_toList, String.ofList_toList] at expanded
  exact ⟨apart, expanded, (values v).mpr (by decide)⟩

/-- A text in a tuple is not expanded. -/
theorem expandDatum_ne_tuple :
    let v : Datum := .list [.tuple [.text "a", .text "$\x7bA\x7d"]]
    expandDatum [("A", "1")] v ≠ v.mapTexts (expand [("A", "1")]) := by
  intro v same
  have kept := (expandDatum_eq_iff v).mp same "$\x7bA\x7d" (by decide)
  revert kept
  decide

end EnvTemplate
end InlineQuery
