import InlineQuery.Proofs.Path.Resolving
import InlineQuery.Workspace
import Mathlib.Data.List.Basic

/-!
Documents by their addresses. An address is that of one file only, and it suggests the language that
the path of the file does: escapes keep the dots and slashes of a path, and no suffix that stands for a
language has anything to escape.
-/

namespace InlineQuery

namespace Url

/-- The escapes of the bytes of a character. -/
def escapeChar (c : Char) : List Char := (String.utf8EncodeChar c).flatMap escapeByte

theorem escapePath_eq (path : String) : escapePath path = path.toList.flatMap escapeChar := by
  rw [escapePath, Text.encodeUtf8_eq, List.flatMap_assoc]
  rfl

/-- A character is one byte of its own number, or bytes beyond ASCII. -/
theorem utf8EncodeChar_cases (c : Char) :
    (∃ b, String.utf8EncodeChar c = [b] ∧ b.toNat = c.toNat) ∨
      (128 ≤ c.toNat ∧ ∃ b bytes, String.utf8EncodeChar c = b :: bytes ∧
        ∀ byte ∈ b :: bytes, 128 ≤ byte.toNat) := by
  have same : c.val.toNat = c.toNat := rfl
  unfold String.utf8EncodeChar
  rw [same]
  generalize c.toNat = v
  dsimp only
  by_cases one : v ≤ 127
  · rw [if_pos one]
    refine .inl ⟨_, rfl, ?_⟩
    rw [UInt8.toNat_ofNat', Nat.mod_eq_of_lt (by omega)]
  · rw [if_neg one]
    refine .inr ⟨by omega, ?_⟩
    split
    · refine ⟨_, _, rfl, ?_⟩
      simp only [List.forall_mem_cons, UInt8.toNat_ofNat']
      exact ⟨by omega, by omega, by simp⟩
    · split
      · refine ⟨_, _, rfl, ?_⟩
        simp only [List.forall_mem_cons, UInt8.toNat_ofNat']
        exact ⟨by omega, by omega, by omega, by simp⟩
      · refine ⟨_, _, rfl, ?_⟩
        simp only [List.forall_mem_cons, UInt8.toNat_ofNat']
        exact ⟨by omega, by omega, by omega, by omega, by simp⟩

/-- What is escaped starts with a percent sign and holds neither dots nor slashes. -/
def IsEscape (cs : List Char) : Prop :=
  cs.head? = some '%' ∧ '.' ∉ cs ∧ '/' ∉ cs

instance (cs : List Char) : Decidable (IsEscape cs) := inferInstanceAs (Decidable (_ ∧ _))

theorem lt_of_isUnreserved {n : Nat} (unreserved : isUnreserved n = true) : n < 128 := by
  simp only [isUnreserved, Bool.and_eq_true, decide_eq_true_eq] at unreserved
  exact unreserved.1

theorem isUnreserved_of_le {n : Nat} (beyond : 128 ≤ n) : isUnreserved n = false :=
  Bool.eq_false_iff.mpr fun unreserved => Nat.not_lt.mpr beyond (lt_of_isUnreserved unreserved)

theorem isUnreserved_of_isAlpha {c : Char} (letter : c.isAlpha = true) :
    isUnreserved c.toNat = true := by
  have small : c.toNat < 128 := Nat.lt_of_le_of_lt (bounds_of_isAlpha letter).2 (by decide)
  simp [isUnreserved, small, Char.isAlphanum, letter]

theorem escapeByte_of_isUnreserved {b : UInt8} (unreserved : isUnreserved b.toNat = true) :
    escapeByte b = [Char.ofNat b.toNat] := if_pos unreserved

theorem isEscape_escapeByte {b : UInt8} (reserved : isUnreserved b.toNat = false) :
    IsEscape (escapeByte b) := by
  have all : ∀ n < 256, IsEscape ['%', hexDigit (n / 16), hexDigit (n % 16)] := by decide +kernel
  have escaped : escapeByte b = ['%', hexDigit (b.toNat / 16), hexDigit (b.toNat % 16)] := by
    simp [escapeByte, reserved]
  rw [escaped]
  exact all b.toNat b.toNat_lt

theorem isEscape_flatMap {b : UInt8} {bytes : List UInt8}
    (reserved : ∀ byte ∈ b :: bytes, isUnreserved byte.toNat = false) :
    IsEscape ((b :: bytes).flatMap escapeByte) := by
  refine ⟨?_, fun inside => ?_, fun inside => ?_⟩
  · rw [List.flatMap_cons, List.head?_append,
      (isEscape_escapeByte (reserved b (List.mem_cons_self ..))).1]
    rfl
  · obtain ⟨byte, member, inByte⟩ := List.mem_flatMap.mp inside
    exact (isEscape_escapeByte (reserved byte member)).2.1 inByte
  · obtain ⟨byte, member, inByte⟩ := List.mem_flatMap.mp inside
    exact (isEscape_escapeByte (reserved byte member)).2.2 inByte

theorem escapeChar_of_isUnreserved {c : Char} (unreserved : isUnreserved c.toNat = true) :
    escapeChar c = [c] := by
  rcases utf8EncodeChar_cases c with ⟨b, bytes, value⟩ | ⟨beyond, -⟩
  · rw [← value] at unreserved
    rw [escapeChar, bytes, List.flatMap_singleton, escapeByte_of_isUnreserved unreserved, value,
      Char.ofNat_toNat]
  · rw [isUnreserved_of_le beyond] at unreserved
    cases unreserved

theorem isEscape_escapeChar {c : Char} (reserved : isUnreserved c.toNat = false) :
    IsEscape (escapeChar c) := by
  rcases utf8EncodeChar_cases c with ⟨b, bytes, value⟩ | ⟨-, b, bytes, same, beyond⟩
  · rw [← value] at reserved
    rw [escapeChar, bytes, List.flatMap_singleton]
    exact isEscape_escapeByte reserved
  · rw [escapeChar, same]
    exact isEscape_flatMap fun byte member => isUnreserved_of_le (beyond byte member)

theorem escapeChar_ne_nil (c : Char) : escapeChar c ≠ [] := by
  cases kept : isUnreserved c.toNat with
  | true => simp [escapeChar_of_isUnreserved kept]
  | false =>
    intro empty
    have starts := (isEscape_escapeChar kept).1
    rw [empty] at starts
    cases starts

/-- An escape holds a dot or a slash only in its own place. -/
theorem eq_of_mem_escapeChar {c d : Char} (plain : d = '.' ∨ d = '/') (member : d ∈ escapeChar c) :
    c = d := by
  cases kept : isUnreserved c.toNat with
  | true =>
    rw [escapeChar_of_isUnreserved kept, List.mem_singleton] at member
    exact member.symm
  | false =>
    obtain ⟨-, noDot, noSlash⟩ := isEscape_escapeChar kept
    rcases plain with rfl | rfl
    · exact absurd member noDot
    · exact absurd member noSlash

/-- A name with its escapes. -/
def escapeName (name : String) : String := String.ofList (name.toList.flatMap escapeChar)

theorem notMem_escape {cs : List Char} {d : Char} (plain : d = '.' ∨ d = '/') (none_ : d ∉ cs) :
    d ∉ cs.flatMap escapeChar := by
  intro inside
  obtain ⟨c, member, inEscape⟩ := List.mem_flatMap.mp inside
  rw [eq_of_mem_escapeChar plain inEscape] at member
  exact none_ member

theorem escape_eq_nil_iff {cs : List Char} : cs.flatMap escapeChar = [] ↔ cs = [] := by
  cases cs with
  | nil => simp
  | cons c cs => simp [escapeChar_ne_nil]

/-- Only a single dot is escaped as one. -/
theorem eq_dot_of_escape {cs : List Char} (dot : cs.flatMap escapeChar = ['.']) : cs = ['.'] := by
  cases cs with
  | nil => cases dot
  | cons c cs =>
    rw [List.flatMap_cons] at dot
    cases kept : isUnreserved c.toNat with
    | true =>
      rw [escapeChar_of_isUnreserved kept, List.singleton_append, List.cons.injEq,
        escape_eq_nil_iff] at dot
      rw [dot.1, dot.2]
    | false =>
      have starts := congrArg List.head? dot
      rw [List.head?_append, (isEscape_escapeChar kept).1] at starts
      cases starts

theorem escape_intercalate (pieces : List (List Char)) :
    (['/'].intercalate pieces).flatMap escapeChar =
      ['/'].intercalate (pieces.map (·.flatMap escapeChar)) := by
  have slash : escapeChar '/' = ['/'] := escapeChar_of_isUnreserved (by decide)
  induction pieces with
  | nil => rfl
  | cons piece pieces ih =>
    cases pieces with
    | nil => simp
    | cons next pieces =>
      rw [List.map_cons, List.map_cons, List.intercalate_cons_cons, List.intercalate_cons_cons,
        List.flatMap_append, List.flatMap_append, ih, List.flatMap_singleton, slash, List.map_cons]

end Url

namespace Path

variable {p : Path}

/-- The path whose components are the escaped ones. -/
def escaped (p : Path) : Path := { p with parts := p.parts.map Url.escapeName }

theorem IsPlain.escaped (plain : p.IsPlain) : p.escaped.IsPlain := by
  intro part member
  obtain ⟨name, isPart, rfl⟩ := List.mem_map.mp member
  obtain ⟨some_, noDot, noSlash⟩ := plain name isPart
  refine ⟨fun empty => some_ ?_, fun dot => noDot ?_, ?_⟩
  · have none_ := congrArg String.toList empty
    rw [Url.escapeName, String.toList_ofList] at none_
    exact String.toList_inj.mp (Url.escape_eq_nil_iff.mp none_)
  · have single := congrArg String.toList dot
    rw [Url.escapeName, String.toList_ofList] at single
    exact String.toList_inj.mp (Url.eq_dot_of_escape single)
  · rw [Url.escapeName, String.toList_ofList]
    exact Url.notMem_escape (.inr rfl) noSlash

/-- Escaping a path escapes its components. -/
theorem escapePath_toString (absolute : p.root = "/") :
    Url.escapePath p.toString = p.escaped.toString.toList := by
  have slash : Url.escapeChar '/' = ['/'] := Url.escapeChar_of_isUnreserved (by decide)
  have names : p.escaped.parts.map String.toList =
      (p.parts.map String.toList).map (·.flatMap Url.escapeChar) := by
    simp [escaped, Url.escapeName, Function.comp_def]
  rw [Url.escapePath_eq, toList_toString absolute, toList_toString (p := p.escaped) absolute,
    List.flatMap_cons, slash, Url.escape_intercalate, names, List.singleton_append]

theorem name_escaped (p : Path) : p.escaped.name = Url.escapeName p.name :=
  List.getLastD_map (f := Url.escapeName) (a := "")

/-- The part of a name behind its last dot decides whether it has a suffix. -/
theorem suffix_eq {ending : List Char} (last : Url.afterLast '.' p.name.toList = ending) :
    p.suffix = if ending.length + 1 < p.name.toList.length ∧ ending ≠ [] then
      String.ofList ('.' :: ending) else "" := by
  have last : (p.name.toList.reverse.takeWhile (· ≠ '.')).reverse = ending := last
  rw [suffix]
  simp only [last, Bool.and_eq_true, decide_eq_true_eq]

theorem suffix_of_notMem (none_ : '.' ∉ p.name.toList) : p.suffix = "" := by
  have all : Url.afterLast '.' p.name.toList = p.name.toList :=
    Url.afterLast_append none_ (.inl rfl)
  rw [suffix_eq all, if_neg (by omega)]

/-- A suffix starts at the last dot of a name, if something stands before it and behind it. -/
theorem suffix_of_split {front ending : List Char} (split : p.name.toList = front ++ '.' :: ending)
    (last : '.' ∉ ending) :
    p.suffix = if front ≠ [] ∧ ending ≠ [] then String.ofList ('.' :: ending) else "" := by
  have behind : Url.afterLast '.' p.name.toList = ending := by
    rw [split, List.append_cons]
    exact Url.afterLast_append last (.inr (by simp))
  have before : ending.length + 1 < p.name.toList.length ↔ front ≠ [] := by
    rw [split, List.length_append, List.length_cons, ← List.length_pos_iff]
    omega
  rw [suffix_eq behind]
  simp only [before]

theorem exists_lastDot {cs : List Char} (dot : '.' ∈ cs) :
    ∃ front ending, cs = front ++ '.' :: ending ∧ '.' ∉ ending := by
  obtain ⟨ending, front, split, last⟩ := List.eq_append_cons_of_mem (List.mem_reverse.mpr dot)
  refine ⟨front.reverse, ending.reverse, ?_, by simpa using last⟩
  rw [← List.reverse_reverse cs, split]
  simp

end Path

namespace Language

variable {cs : List Char} {c : Char}

/-- A suffix with something to escape stands for no language. -/
theorem ofSuffix_of_reserved (member : c ∈ cs) (reserved : Url.isUnreserved c.toNat = false) :
    ofSuffix (String.ofList cs) = unknown := by
  have known : ∀ suffix ∈ scriptSuffixes ++ graphqlSuffixes,
      suffix.toList.all (Url.isUnreserved ·.toNat) = true := by decide
  have noLetter : c.isAlpha = false := Bool.eq_false_iff.mpr fun letter =>
    Bool.eq_false_iff.mp reserved (Url.isUnreserved_of_isAlpha letter)
  -- No letter, so that it is still there in lower case.
  have kept : c ∈ (String.ofList cs).toLower.toList := by
    unfold String.toLower
    rw [String.toList_map, String.toList_ofList, ← toLower_of_not_isAlpha noLetter]
    exact List.mem_map_of_mem member
  have other : (String.ofList cs).toLower ∉ scriptSuffixes ++ graphqlSuffixes := by
    intro isKnown
    rw [List.all_eq_true.mp (known _ isKnown) c kept] at reserved
    cases reserved
  rw [List.mem_append, not_or] at other
  simp [ofSuffix, other]

/-- Escapes do not change what a suffix stands for. -/
theorem ofSuffix_escape (cs : List Char) :
    ofSuffix (String.ofList ('.' :: cs.flatMap Url.escapeChar)) =
      ofSuffix (String.ofList ('.' :: cs)) := by
  by_cases plain : ∀ c ∈ cs, Url.isUnreserved c.toNat = true
  · have kept : cs.flatMap Url.escapeChar = cs :=
      (List.flatMap_congr fun c member => Url.escapeChar_of_isUnreserved (plain c member)).trans
        (List.flatMap_singleton' cs)
    rw [kept]
  · obtain ⟨c, member, reserved⟩ : ∃ c ∈ cs, Url.isUnreserved c.toNat = false := by
      simpa using plain
    -- Neither of the two is known: one holds the character, the other its percent sign.
    have percent : '%' ∈ cs.flatMap Url.escapeChar :=
      List.mem_flatMap.mpr ⟨c, member, List.mem_of_head? (Url.isEscape_escapeChar reserved).1⟩
    rw [ofSuffix_of_reserved (List.mem_cons_of_mem _ percent) (by decide),
      ofSuffix_of_reserved (List.mem_cons_of_mem _ member) reserved]

/-- The escaped path of a file suggests the language that its path does. -/
theorem ofPath_escaped (p : Path) : ofPath p.escaped = ofPath p := by
  have name : p.escaped.name.toList = p.name.toList.flatMap Url.escapeChar := by
    rw [Path.name_escaped, Url.escapeName, String.toList_ofList]
  by_cases dot : '.' ∈ p.name.toList
  · obtain ⟨front, ending, split, last⟩ := Path.exists_lastDot dot
    have kept : Url.escapeChar '.' = ['.'] := Url.escapeChar_of_isUnreserved (by decide)
    rw [split, List.flatMap_append, List.flatMap_cons, kept, List.singleton_append] at name
    rw [ofPath, ofPath, Path.suffix_of_split name (Url.notMem_escape (.inl rfl) last),
      Path.suffix_of_split split last]
    by_cases around : front ≠ [] ∧ ending ≠ []
    · have escapedAround : front.flatMap Url.escapeChar ≠ [] ∧ ending.flatMap Url.escapeChar ≠ [] := by
        simpa only [ne_eq, Url.escape_eq_nil_iff] using around
      rw [if_pos around, if_pos escapedAround, ofSuffix_escape]
    · have notAround : ¬ (front.flatMap Url.escapeChar ≠ [] ∧ ending.flatMap Url.escapeChar ≠ []) := by
        simpa only [ne_eq, Url.escape_eq_nil_iff] using around
      rw [if_neg around, if_neg notAround]
  · have none_ : '.' ∉ p.escaped.name.toList := by
      rw [name]
      exact Url.notMem_escape (.inl rfl) dot
    rw [ofPath, ofPath, Path.suffix_of_notMem none_, Path.suffix_of_notMem dot]

end Language

namespace SourceDocument

/-- The address of a file suggests the language that its path does. -/
theorem languageOfUri_fileUri {p : Path} (plain : p.IsPlain) (absolute : p.root = "/") :
    languageOfUri p.fileUri = .ok (Language.ofPath p) := by
  have noParameters : ¬ Url.parameterSchemes.contains "file".toList = true := by decide
  have plainPath : Url.plainPath ⟨"file".toList, [], Url.escapePath p.toString, [], []⟩ =
      p.escaped.toString.toList :=
    (if_neg noParameters).trans (Path.escapePath_toString absolute)
  rw [languageOfUri, Path.parse_fileUri absolute]
  simp only [bind, Except.bind, Except.mapError, plainPath, String.ofList_toList,
    Path.ofString_toString plain.escaped absolute, Language.ofPath_escaped]
  rfl

end SourceDocument

/-- An absolute path without parent references and empty components. -/
structure Path.IsResolved (p : Path) : Prop where
  absolute : p.root = "/"
  plain : p.IsPlain
  direct : ".." ∉ p.parts

theorem Files.isResolved_resolve {fs : Files} (current : fs.current.IsPlain) (path : String) :
    (fs.resolve (Path.ofString path)).IsResolved := by
  refine ⟨by rw [resolve_eq], isPlain_resolve current (Path.isPlain_ofString path), ?_⟩
  rw [resolve_eq]
  exact Path.notMem_collapse _

namespace SourceDocument

variable {fs : Files} {path : Path} {entry : FileEntry} {document : SourceDocument}

theorem ofFile_eq (resolved : path.IsResolved) : ofFile fs path = (fs.read path).map fun entry =>
    ⟨path.fileUri, Text.unifyLineEnds (Text.replaceUtf8 entry.bytes), .ofPath path, 0⟩ := by
  rw [ofFile, Files.resolve_of_direct resolved.absolute resolved.direct]
  cases fs.read path <;> rfl

theorem uri_of_ofFile (resolved : path.IsResolved) (opened : ofFile fs path = .ok document) :
    document.uri = path.fileUri := by
  rw [ofFile_eq resolved] at opened
  cases found : fs.read path with
  | error e => rw [found] at opened; cases opened
  | ok entry => rw [found] at opened; cases opened; rfl

/-- A file by its path and by its address: a file that can be read becomes a document, whose address
leads back to the path; the document of another path has another address; and a document that is
opened by this address, whatever its text, has the same language. -/
theorem ofFile_address (resolved : path.IsResolved) (found : fs.read path = .ok entry) :
    ∃ document, ofFile fs path = .ok document ∧ document.path? = .ok (some path) ∧
      (∀ (files : Files) (other : Path) (another : SourceDocument), other.IsResolved →
        ofFile files other = .ok another → other ≠ path → another.uri ≠ document.uri) ∧
      ∀ (w : Workspace) (text : List Char), ∃ shown after,
        w.openText document.uri text none = .ok (shown, after) ∧
        shown.language = document.language := by
  have back {p : Path} (resolved : p.IsResolved) : Path.ofUri? p.fileUri = .ok (some p) :=
    Path.ofUri?_fileUri resolved.plain resolved.absolute
  have opened : ofFile fs path = _ := ofFile_eq resolved
  rw [found, Except.map] at opened
  refine ⟨_, opened, ?_, ?_, ?_⟩
  · rw [path?, back resolved]
    rfl
  · intro files other another otherResolved otherOpened differ same
    rw [uri_of_ofFile otherResolved otherOpened] at same
    have again := back otherResolved
    rw [same, back resolved] at again
    exact differ (Option.some.inj (Except.ok.inj again)).symm
  · intro w text
    let shown : SourceDocument := ⟨path.fileUri, text, .ofPath path, 0⟩
    refine ⟨shown, w.put shown, ?_, rfl⟩
    rw [Workspace.openText]
    simp only [languageOfUri_fileUri resolved.plain resolved.absolute]
    rfl

/-- A file whose name has characters with a meaning in addresses, and a suffix in capitals. -/
theorem ofFile_address_marked :
    let path : Path := ⟨"/", ["w", "50%20?#;\n \u00fc.TS"]⟩
    let fs : Files := ⟨⟨"/", []⟩, [(path.parts, ⟨[], 0⟩)], []⟩
    path.IsResolved ∧ fs.read path = .ok ⟨[], 0⟩ ∧
      ∃ document, ofFile fs path = .ok document ∧ document.path? = .ok (some path) ∧
        ∃ shown after, (⟨[], []⟩ : Workspace).openText document.uri [] none = .ok (shown, after) ∧
          shown.language = document.language := by
  intro path fs
  have resolved : path.IsResolved := ⟨rfl, by decide, by decide⟩
  have found : fs.read path = .ok ⟨[], 0⟩ := by rfl
  obtain ⟨document, opened, back, -, alike⟩ := ofFile_address resolved found
  exact ⟨resolved, found, document, opened, back, alike ⟨[], []⟩ []⟩

end SourceDocument

end InlineQuery
