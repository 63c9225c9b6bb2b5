import InlineQuery.Proofs.Yaml.Flow
import InlineQuery.Proofs.Yaml.Decimals

/-!
The tokens of portable JSON. Spacing leaves none, a comma and a bracket are tokens of their own, and
every member of an object is a key with a value.
-/

namespace InlineQuery

open Json (Gap Quotation Numeral Form Items Members Document IsInline)
open Text (unifyLineEnds)
open Yaml (Token Stops isBlank ahead ahead_ahead)
open Yaml.Layout (Passes)

/-! ### Line ends -/

variable {cs r : List Char}

theorem unifyLineEnds_cons {c : Char} (plain : c ≠ '\r') (r : List Char) :
    unifyLineEnds (c :: r) = c :: unifyLineEnds r := by
  simp [unifyLineEnds, plain]

theorem unifyLineEnds_append (plain : ∀ c ∈ cs, IsInline c) (r : List Char) :
    unifyLineEnds (cs ++ r) = cs ++ unifyLineEnds r := by
  induction cs with
  | nil => rfl
  | cons c cs ih =>
    have later := ih fun other member => plain other (List.mem_cons_of_mem _ member)
    rw [List.cons_append, unifyLineEnds_cons (plain c (List.mem_cons_self ..)).2.2, later]
    rfl

theorem mem_unifyLineEnds {c : Char} (member : c ∈ unifyLineEnds cs) : c ∈ cs ∨ c = '\n' := by
  fun_induction unifyLineEnds cs with
  | case1 r ih =>
    rcases List.mem_cons.mp member with feed | later
    · exact .inr feed
    · exact (ih later).imp_left fun inside => List.mem_cons_of_mem _ (List.mem_cons_of_mem _ inside)
  | case2 r _ ih =>
    rcases List.mem_cons.mp member with feed | later
    · exact .inr feed
    · exact (ih later).imp_left (List.mem_cons_of_mem _)
  | case3 first r _ _ ih =>
    rcases List.mem_cons.mp member with rfl | later
    · exact .inl (List.mem_cons_self ..)
    · exact (ih later).imp_left (List.mem_cons_of_mem _)
  | case4 => cases member

theorem ahead_unifyLineEnds_return (r : List Char) :
    ahead (unifyLineEnds ('\r' :: r)) = ahead (unifyLineEnds r) := by
  by_cases feed : r.head? = some '\n'
  · obtain ⟨r, rfl⟩ := List.head?_eq_some_iff.mp feed
    rfl
  · have alone : unifyLineEnds ('\r' :: r) = '\n' :: unifyLineEnds r := by
      cases r with
      | nil => rfl
      | cons c r =>
        have other : c ≠ '\n' := by simpa using feed
        simp [unifyLineEnds, other]
    rw [alone]
    rfl

/-- Spacing without tabs is passed over. -/
theorem ahead_unifyLineEnds_gap {g : Gap} (portable : g.IsPortable) (r : List Char) :
    ahead (unifyLineEnds (g.text ++ r)) = ahead (unifyLineEnds r) := by
  obtain ⟨cs, gaps⟩ := g
  unfold Gap.IsPortable at portable
  dsimp only [Gap.text] at portable ⊢
  induction cs with
  | nil => rfl
  | cons c cs ih =>
    have later := ih (fun other member => gaps other (List.mem_cons_of_mem _ member))
      fun tab => portable (List.mem_cons_of_mem _ tab)
    have here := gaps c (List.mem_cons_self ..)
    simp only [Json.isGap, Bool.or_eq_true, beq_iff_eq] at here
    rw [List.cons_append, ← later]
    rcases here with ((rfl | rfl) | rfl) | rfl
    · rw [unifyLineEnds_cons (by decide)]
      rfl
    · exact absurd (List.mem_cons_self ..) portable
    · rw [unifyLineEnds_cons (by decide)]
      rfl
    · exact ahead_unifyLineEnds_return _

/-! ### Tokens -/

/-- The token of the comma before what is not the first. -/
def commaTokens (isFirst : Bool) : List Token := if isFirst then [] else [.flowEntry]

mutual

def Json.Form.tokens : Form → List Token
  | .word name _ _ => [.scalar (String.ofList name) true]
  | .number n => [.scalar (String.ofList n.text) true]
  | .quoted q => [.scalar q.value false]
  | .list _ items => .flowSequenceStart :: items.tokens true
  | .object _ members => .flowMappingStart :: members.tokens true

def Json.Items.tokens (isFirst : Bool) : Items → List Token
  | .close => [.flowSequenceEnd]
  | .item _ value _ rest => commaTokens isFirst ++ value.tokens ++ rest.tokens false

def Json.Members.tokens (isFirst : Bool) : Members → List Token
  | .close => [.flowMappingEnd]
  | .member _ key _ _ value _ rest =>
    commaTokens isFirst ++ [.key, .scalar key.value false, .value] ++ value.tokens ++
      rest.tokens false

end

theorem startsWord_text (n : Numeral) : Yaml.Layout.StartsWord n.text := by
  obtain ⟨first, rest, starts, digit, _⟩ := Yaml.exists_magnitudeOf n
  rw [Yaml.text_eq, starts]
  unfold Numeral.sign
  split
  · exact ⟨'-', first :: rest, rfl, .inr ⟨rfl, first, rfl, digit⟩⟩
  · exact ⟨first, rest, rfl, .inl (by simp [Char.isAlphanum, digit])⟩

theorem startsWord_of_portableName {name : List Char} (portable : name ∈ Json.portableNames) :
    Yaml.Layout.StartsWord name := by
  simp only [Json.portableNames, List.mem_cons, List.not_mem_nil, or_false] at portable
  rcases portable with rfl | rfl | rfl
  · exact ⟨'n', _, rfl, .inl rfl⟩
  · exact ⟨'t', _, rfl, .inl rfl⟩
  · exact ⟨'f', _, rfl, .inl rfl⟩

section Passes

variable {s : Yaml.Layout}

theorem ahead_cons {c : Char} (visible : isBlank c = false) (r : List Char) :
    ahead (c :: r) = c :: r := by
  simp [ahead, visible]

/-- What is written without spacing at its start is ahead as it is. -/
theorem ahead_unifyLineEnds_inline {c : Char} {tail : List Char} (starts : cs = c :: tail)
    (visible : isBlank c = false) (inline : ∀ c ∈ cs, IsInline c) (r : List Char) :
    ahead (unifyLineEnds (cs ++ r)) = cs ++ unifyLineEnds r := by
  rw [unifyLineEnds_append inline, starts, List.cons_append, ahead_cons visible]

theorem ahead_unifyLineEnds_quotation {q : Quotation} (portable : q.IsPortable) (r : List Char) :
    ahead (unifyLineEnds (q.text ++ r)) = q.text ++ unifyLineEnds r :=
  ahead_unifyLineEnds_inline rfl (by decide) portable.isInline r

theorem ahead_mark {c : Char} (mark : isBlank c = false ∧ c ≠ '\r') (r : List Char) :
    ahead (unifyLineEnds (c :: r)) = c :: unifyLineEnds r := by
  rw [unifyLineEnds_cons mark.2, ahead_cons mark.1]

/-- A comma is read where it is written. -/
theorem exists_comma (calm : s.IsCalm) (isFirst : Bool) (allows : isFirst = true → s.allowsKey = true)
    (starts : ahead s.place.rest = ahead (unifyLineEnds (Json.comma isFirst ++ r))) :
    ∃ u, Passes s (commaTokens isFirst) s.depth (unifyLineEnds r) u ∧ u.allowsKey = true := by
  cases isFirst with
  | true => exact ⟨s, .refl calm starts, allows rfl⟩
  | false => exact Yaml.Layout.exists_flowEntry calm (starts.trans (ahead_mark (by decide) r))

theorem stops_of_mark {g : Gap} (portable : g.IsPortable) {c : Char}
    (mark : c = ',' ∨ c = ']' ∨ c = '\x7d') (r : List Char) :
    Stops (unifyLineEnds (g.text ++ (c :: r))) := by
  have apart : isBlank c = false ∧ c ≠ '\r' := by rcases mark with rfl | rfl | rfl <;> decide
  rw [Stops, ahead_unifyLineEnds_gap portable, ahead_mark apart]
  rintro _ ⟨⟩
  exact mark

/-- What follows an item. -/
theorem stops_items {g : Gap} (portable : g.IsPortable) (items : Items) (r : List Char) :
    Stops (unifyLineEnds (g.text ++ (items.text false ++ r))) := by
  cases items with
  | close => exact stops_of_mark portable (.inr (.inl rfl)) r
  | item before value behind rest =>
    simp only [Items.text, Json.comma, Bool.false_eq_true, if_false, List.append_assoc]
    exact stops_of_mark portable (.inl rfl) _

/-- What follows a member. -/
theorem stops_members {g : Gap} (portable : g.IsPortable) (members : Members) (r : List Char) :
    Stops (unifyLineEnds (g.text ++ (members.text false ++ r))) := by
  cases members with
  | close => exact stops_of_mark portable (.inr (.inr rfl)) r
  | member before key beforeColon afterColon value behind rest =>
    simp only [Members.text, Json.comma, Bool.false_eq_true, if_false, List.append_assoc]
    exact stops_of_mark portable (.inl rfl) _

/-- A plain word that is written on one line. -/
theorem exists_passes_word (word : Yaml.Scalar.IsWord cs) (begins : Yaml.Layout.StartsWord cs)
    (inline : ∀ c ∈ cs, IsInline c) (calm : s.IsCalm) (inside : s.depth ≠ 0)
    (starts : ahead s.place.rest = ahead (unifyLineEnds (cs ++ r)))
    (stops : Stops (unifyLineEnds r)) :
    ∃ u, Passes s [.scalar (String.ofList cs) true] s.depth (unifyLineEnds r) u := by
  obtain ⟨c, tail, same⟩ := List.exists_cons_of_ne_nil word.given
  have visible : isBlank c = false := by
    have spacing := (word.plain c (by rw [same]; exact List.mem_cons_self ..)).1
    simp only [Yaml.isSpacing, Yaml.isBreak, Bool.or_eq_false_iff] at spacing
    simp [isBlank, spacing]
  rw [ahead_unifyLineEnds_inline same visible inline] at starts
  exact Yaml.Layout.exists_word calm inside word begins starts stops

mutual

/-- A portable value gives its tokens. -/
theorem exists_passes_form {f : Form} (portable : f.IsPortable) {s : Yaml.Layout} {r : List Char}
    (calm : s.IsCalm) (inside : s.depth ≠ 0 ∨ ∃ inner members, f = .object inner members)
    (starts : ahead s.place.rest = ahead (unifyLineEnds (f.text ++ r)))
    (stops : Stops (unifyLineEnds r)) :
    ∃ u, Passes s f.tokens s.depth (unifyLineEnds r) u := by
  cases f with
  | word name value isNamed =>
    exact exists_passes_word (Yaml.isWord_of_mem portable) (startsWord_of_portableName portable)
      (Json.isInline_of_portableName portable) calm (inside.resolve_right (by simp)) starts stops
  | number n =>
    exact exists_passes_word (Yaml.isWord_text n) (startsWord_text n) n.isInline calm
      (inside.resolve_right (by simp)) starts stops
  | quoted q =>
    exact Yaml.Layout.exists_quoted calm portable
      (starts.trans (ahead_unifyLineEnds_quotation portable r))
  | list inner items =>
    obtain ⟨isInner, areItems⟩ := portable
    rw [Form.text, List.cons_append, List.cons_append, List.append_assoc, ahead_mark (by decide)]
      at starts
    have opens : ('[', Token.flowSequenceStart) ∈ Yaml.Layout.openings := by decide
    obtain ⟨t, opened, allows⟩ := Yaml.Layout.exists_opening calm opens starts
    obtain ⟨u, passed⟩ := exists_passes_items areItems opened.calm true opened.depth
      (fun _ => allows) (opened.left.trans (ahead_unifyLineEnds_gap isInner _))
    exact ⟨u, opened.trans passed⟩
  | object inner members =>
    obtain ⟨isInner, areMembers⟩ := portable
    rw [Form.text, List.cons_append, List.cons_append, List.append_assoc, ahead_mark (by decide)]
      at starts
    have opens : ('\x7b', Token.flowMappingStart) ∈ Yaml.Layout.openings := by decide
    obtain ⟨t, opened, allows⟩ := Yaml.Layout.exists_opening calm opens starts
    obtain ⟨u, passed⟩ := exists_passes_members areMembers opened.calm true opened.depth
      (fun _ => allows) (opened.left.trans (ahead_unifyLineEnds_gap isInner _))
    exact ⟨u, opened.trans passed⟩

/-- So do the items of a list. -/
theorem exists_passes_items {items : Items} (portable : items.ArePortable) {s : Yaml.Layout}
    {depth : Nat} {r : List Char} (calm : s.IsCalm) (isFirst : Bool)
    (inside : s.depth = depth + 1) (allows : isFirst = true → s.allowsKey = true)
    (starts : ahead s.place.rest = ahead (unifyLineEnds (items.text isFirst ++ r))) :
    ∃ u, Passes s (items.tokens isFirst) depth (unifyLineEnds r) u := by
  cases items with
  | close =>
    exact Yaml.Layout.exists_closing calm inside (by decide) (starts.trans (ahead_mark (by decide) r))
  | item before value behind rest =>
    obtain ⟨isBefore, isValue, isBehind, areRest⟩ := portable
    simp only [Items.text, List.append_assoc] at starts
    obtain ⟨t, comma, _⟩ := exists_comma calm isFirst allows starts
    have deep : t.depth = depth + 1 := comma.depth.trans inside
    obtain ⟨v, valued⟩ := exists_passes_form isValue comma.calm (.inl (by omega))
      (comma.left.trans (ahead_unifyLineEnds_gap isBefore _)) (stops_items isBehind rest r)
    obtain ⟨u, rested⟩ := exists_passes_items areRest valued.calm false (valued.depth.trans deep)
      (fun h => by cases h) (valued.left.trans (ahead_unifyLineEnds_gap isBehind _))
    exact ⟨u, (comma.trans valued).trans rested⟩

/-- So do the members of an object. -/
theorem exists_passes_members {members : Members} (portable : members.ArePortable) {s : Yaml.Layout}
    {depth : Nat} {r : List Char} (calm : s.IsCalm) (isFirst : Bool)
    (inside : s.depth = depth + 1) (allows : isFirst = true → s.allowsKey = true)
    (starts : ahead s.place.rest = ahead (unifyLineEnds (members.text isFirst ++ r))) :
    ∃ u, Passes s (members.tokens isFirst) depth (unifyLineEnds r) u := by
  cases members with
  | close =>
    exact Yaml.Layout.exists_closing calm inside (by decide) (starts.trans (ahead_mark (by decide) r))
  | member before key beforeColon afterColon value behind rest =>
    obtain ⟨isBefore, isKey, spaces, short, isAfter, isValue, isBehind, areRest⟩ := portable
    simp only [Members.text, List.append_assoc] at starts
    obtain ⟨t, comma, allowed⟩ := exists_comma calm isFirst allows starts
    have deep : t.depth = depth + 1 := comma.depth.trans inside
    have inline : ∀ c ∈ beforeColon.text, IsInline c := fun c member => by
      rw [spaces c member]
      exact Json.isInline_of_visible (by decide) (by decide)
    have starts := comma.left
    rw [ahead_unifyLineEnds_gap isBefore, ahead_unifyLineEnds_quotation isKey,
      unifyLineEnds_append inline, List.singleton_append, unifyLineEnds_cons (by decide)] at starts
    obtain ⟨v, keyed⟩ := Yaml.Layout.exists_key comma.calm (by omega) allowed isKey
      (fun c member => (isKey.isInline c member).2.1) spaces short starts
    obtain ⟨w, valued⟩ := exists_passes_form isValue keyed.calm (.inl (by rw [keyed.depth]; omega))
      (keyed.left.trans (ahead_unifyLineEnds_gap isAfter _)) (stops_members isBehind rest r)
    obtain ⟨u, rested⟩ := exists_passes_members areRest valued.calm false
      (valued.depth.trans (keyed.depth.trans deep)) (fun h => by cases h)
      (valued.left.trans (ahead_unifyLineEnds_gap isBehind _))
    exact ⟨u, ((comma.trans keyed).trans valued).trans rested⟩

end

end Passes

/-! ### The tokens of a document -/

open Yaml (Layout TokenStream)

theorem isCalm_start (text : List Char) : (Layout.start text).IsCalm :=
  ⟨rfl, rfl, by rintro _ ⟨⟩⟩

/-- At the end of the text reading ends. -/
theorem exists_finish {s : Layout} (calm : s.IsCalm) (ended : ahead s.place.rest = []) :
    ∃ u, s.step = .ok u ∧ u.isDone = true ∧ u.tokens = s.tokens := by
  obtain ⟨t, near, nothing⟩ := calm.exists_nears ended (by rintro _ ⟨⟩)
  obtain ⟨keys, forgets, _⟩ := near.calm.exists_forgetKey
  have steps := Layout.step_finish near nothing
  rw [Layout.finish, Layout.unwind_of_free near.calm.free, forgets] at steps
  exact ⟨_, steps, rfl, near.tokens⟩

theorem run_of_isDone {s : Layout} (isDone : s.isDone = true) (fuel : Nat) :
    s.run fuel = ⟨s.tokens.reverse, none⟩ := by
  cases fuel with
  | zero => rfl
  | succ fuel => rw [Layout.run, if_pos isDone]

/-- The tokens of a portable document with an object are those of the object. -/
theorem ofText_eq {d : Document} (portable : d.IsPortable) {inner : Gap} {members : Members}
    (isObject : d.root = .object inner members) :
    TokenStream.ofText (unifyLineEnds d.text) = ⟨d.root.tokens, none⟩ := by
  have allowed : (unifyLineEnds d.text).all Yaml.isAllowed = true := by
    rw [List.all_eq_true]
    intro c member
    rcases mem_unifyLineEnds member with inText | rfl
    · exact portable.isAllowed c inText
    · rfl
  have ahead_eq : ahead (unifyLineEnds d.text) = ahead (unifyLineEnds (d.root.text ++ d.behind.text)) := by
    rw [Document.text, List.append_assoc, ahead_unifyLineEnds_gap portable.before]
  have noMark : ∀ r, unifyLineEnds d.text ≠ '\ufeff' :: r := by
    intro r marked
    rw [marked, ahead_cons (by decide), isObject, Form.text, List.cons_append, List.cons_append,
      ahead_mark (by decide)] at ahead_eq
    cases ahead_eq
  have rest : (Layout.start (unifyLineEnds d.text)).place.rest = unifyLineEnds d.text := by
    unfold Layout.start
    split
    · rename_i r marked
      exact absurd marked (noMark r)
    · rfl
  have behind : ahead (unifyLineEnds d.behind.text) = [] := by
    have blank := ahead_unifyLineEnds_gap portable.behind []
    rw [List.append_nil] at blank
    exact blank
  obtain ⟨u, ⟨n, enough, goes⟩, calm, tokens, _, left⟩ := exists_passes_form portable.root
    (isCalm_start (unifyLineEnds d.text)) (.inr ⟨inner, members, isObject⟩)
    ((congrArg ahead rest).trans ahead_eq) (by rw [Stops, behind]; rintro _ ⟨⟩)
  obtain ⟨v, steps, isDone, same⟩ := exists_finish calm (left.trans behind)
  rw [rest] at enough
  obtain ⟨more, fuel⟩ : ∃ more, (unifyLineEnds d.text).length + 1 = n + (more + 1) :=
    ⟨(unifyLineEnds d.text).length - n, by omega⟩
  have whole : u.run (more + 1) = ⟨d.root.tokens, none⟩ := by
    rw [Layout.run, calm.going, steps]
    dsimp only
    rw [if_neg (by simp), run_of_isDone isDone, same, tokens]
    simp [Layout.start]
  rw [TokenStream.ofText, if_pos allowed, fuel, goes, whole]

end InlineQuery
