import InlineQuery.Proofs.Text.Cut
import InlineQuery.Proofs.Text.Utf8
import InlineQuery.Proofs.Url.Parts

/-!
A path is read from its text as it was, and so it is from the address of the file.
-/

namespace InlineQuery

namespace Path

/-- No component is empty, a single dot, or holds a slash. -/
def IsPlain (p : Path) : Prop := ∀ part ∈ p.parts, part ≠ "" ∧ part ≠ "." ∧ '/' ∉ part.toList

instance (p : Path) : Decidable p.IsPlain :=
  inferInstanceAs (Decidable (∀ part ∈ p.parts, part ≠ "" ∧ part ≠ "." ∧ '/' ∉ part.toList))

theorem isPlain_ofString (s : String) : (ofString s).IsPlain := by
  intro part member
  obtain ⟨piece, kept, rfl⟩ := List.mem_map.mp member
  obtain ⟨isPiece, solid⟩ := List.mem_filter.mp kept
  have solid : piece ≠ [] ∧ piece ≠ ['.'] := of_decide_eq_true solid
  refine ⟨fun empty => solid.1 ?_, fun dot => solid.2 ?_, ?_⟩
  · simpa using congrArg String.toList empty
  · simpa using congrArg String.toList dot
  · rw [String.toList_ofList]
    exact Text.notMem_of_mem_cut isPiece

/-- What follows the slash of an absolute path. -/
theorem toList_toString {p : Path} (absolute : p.root = "/") :
    p.toString.toList = '/' :: ['/'].intercalate (p.parts.map String.toList) := by
  simp [toString, absolute, String.toList_intercalate]

/-- An absolute path is read from its text as it was. -/
theorem ofString_toString {p : Path} (plain : p.IsPlain) (absolute : p.root = "/") :
    ofString p.toString = p := by
  obtain ⟨root, parts⟩ := p
  subst absolute
  rw [ofString, toList_toString rfl]
  have pieces : ∀ piece ∈ parts.map String.toList, piece ≠ [] ∧ piece ≠ ['.'] ∧ '/' ∉ piece := by
    intro piece member
    obtain ⟨part, isPart, rfl⟩ := List.mem_map.mp member
    obtain ⟨some_, noDot, noSlash⟩ := plain part isPart
    exact ⟨fun empty => some_ (String.toList_inj.mp empty),
      fun dot => noDot (String.toList_inj.mp dot), noSlash⟩
  have back : (parts.map String.toList).map String.ofList = parts := by
    rw [List.map_map]
    exact (List.map_congr_left fun part _ => String.ofList_toList).trans (List.map_id parts)
  generalize parts.map String.toList = cs at pieces back
  subst back
  have parts : components ('/' :: ['/'].intercalate cs) = cs.map String.ofList := by
    have kept : cs.filter (fun p => p ≠ [] ∧ p ≠ ['.']) = cs :=
      List.filter_eq_self.mpr fun piece member =>
        decide_eq_true ⟨(pieces piece member).1, (pieces piece member).2.1⟩
    rw [components, ← List.nil_append ('/' :: _), Text.cut_append (by simp)]
    cases cs with
    | nil => rfl
    | cons piece cs =>
      rw [Text.cut_intercalate (by simp) fun piece member => (pieces piece member).2.2,
        List.filter_cons_of_neg (by simp), kept]
  have root : rootOf ('/' :: ['/'].intercalate cs) = "/" := by
    cases cs with
    | nil => rfl
    | cons piece cs =>
      obtain ⟨some_, _, noSlash⟩ := pieces piece (List.mem_cons_self ..)
      obtain ⟨c, more, rfl⟩ := List.exists_cons_of_ne_nil some_
      have other : (c == '/') = false := beq_false_of_ne fun same => noSlash (by simp [same])
      have single : ('/' :: ['/'].intercalate ((c :: more) :: cs)).takeWhile (· == '/') = ['/'] := by
        have starts : ∃ rest, ['/'].intercalate ((c :: more) :: cs) = c :: rest := by
          cases cs with
          | nil => exact ⟨more, by simp⟩
          | cons => exact ⟨_, by rw [List.intercalate_cons_cons]; rfl⟩
        obtain ⟨rest, starts⟩ := starts
        rw [starts, List.takeWhile_cons_of_pos (by decide), List.takeWhile_cons_of_neg (by simp [other])]
      rw [rootOf, single]
      rfl
  rw [parts, root]

end Path

namespace Url

/-- The characters that an escaped path consists of. -/
def IsEscaped (c : Char) : Prop :=
  c.toNat < 128 ∧ c ≠ '\t' ∧ c ≠ '\r' ∧ c ≠ '\n' ∧ c ≠ '#' ∧ c ≠ '?'

instance (c : Char) : Decidable (IsEscaped c) := inferInstanceAs (Decidable (_ ∧ _))

theorem isEscaped_escapeByte (b : UInt8) : ∀ c ∈ escapeByte b, IsEscaped c := by
  have all : ((List.range 256).all fun n =>
      (escapeByte (UInt8.ofNat n)).all fun c => decide (IsEscaped c)) = true := by decide +kernel
  have here := List.all_eq_true.mp all b.toNat (List.mem_range.mpr b.toNat_lt)
  rw [UInt8.ofNat_toNat] at here
  exact fun c member => of_decide_eq_true (List.all_eq_true.mp here c member)

theorem isEscaped_escapePath (path : String) : ∀ c ∈ escapePath path, IsEscaped c := by
  intro c member
  obtain ⟨b, _, inside⟩ := List.mem_flatMap.mp member
  exact isEscaped_escapeByte b c inside

theorem unescapeBytes_cons {c : Char} (other : c ≠ '%') (rest : List Char) :
    unescapeBytes (c :: rest) = c.toNat.toUInt8 :: unescapeBytes rest := by
  rw [unescapeBytes]
  exact fun _ _ _ same => absurd same other

/-- The escape of a byte is read as that byte. -/
theorem unescapeBytes_escapeByte (b : UInt8) (rest : List Char) :
    unescapeBytes (escapeByte b ++ rest) = b :: unescapeBytes rest := by
  have plain : ∀ n < 256, isUnreserved n = true →
      Char.ofNat n ≠ '%' ∧ (Char.ofNat n).toNat.toUInt8 = UInt8.ofNat n := by decide +kernel
  have escaped : ∀ n < 256, isHex (hexDigit (n / 16)) = true ∧ isHex (hexDigit (n % 16)) = true ∧
      (hexValue (hexDigit (n / 16)) * 16 + hexValue (hexDigit (n % 16))).toUInt8 = UInt8.ofNat n := by
    decide +kernel
  rw [escapeByte]
  split
  · rename_i unreserved
    obtain ⟨other, same⟩ := plain b.toNat b.toNat_lt unreserved
    rw [List.singleton_append, unescapeBytes_cons other, same, UInt8.ofNat_toNat]
  · obtain ⟨high, low, same⟩ := escaped b.toNat b.toNat_lt
    rw [List.cons_append, List.cons_append, List.singleton_append, unescapeBytes, high, low, same,
      UInt8.ofNat_toNat]
    rfl

theorem unescapeBytes_flatMap (bytes : List UInt8) :
    unescapeBytes (bytes.flatMap escapeByte) = bytes := by
  induction bytes with
  | nil => rfl
  | cons b bytes ih => rw [List.flatMap_cons, unescapeBytes_escapeByte, ih]

theorem unescapeFrom_ascii {cs : List Char} (ascii : ∀ c ∈ cs, c.toNat < 128) (run : List Char) :
    unescapeFrom run cs = Text.replaceUtf8 (unescapeBytes (run.reverse ++ cs)) := by
  induction cs generalizing run with
  | nil => rw [unescapeFrom, List.append_nil]
  | cons c cs ih =>
    rw [unescapeFrom, if_pos (ascii c (List.mem_cons_self ..)),
      ih (fun d inside => ascii d (List.mem_cons_of_mem _ inside)), List.reverse_cons,
      List.append_assoc, List.singleton_append]

/-- An escaped path is read as it was. -/
theorem unescape_escapePath (path : String) : unescape (escapePath path) = path := by
  rw [unescape, unescapeFrom_ascii fun c member => (isEscaped_escapePath path c member).1,
    List.reverse_nil, List.nil_append, escapePath, unescapeBytes_flatMap,
    Text.replaceUtf8_encodeUtf8, String.ofList_toList]

/-- The address of a file has nothing but its path. -/
theorem parse_file {cs : List Char} (escaped : ∀ c ∈ cs, IsEscaped c) :
    parse (['f', 'i', 'l', 'e', ':', '/', '/', '/'] ++ cs) =
      .ok ⟨['f', 'i', 'l', 'e'], [], '/' :: cs, [], []⟩ := by
  have onlySlash : IsEscaped '/' := by decide
  have path : ∀ c ∈ '/' :: cs, IsEscaped c := List.forall_mem_cons.mpr ⟨onlySlash, escaped⟩
  have isScheme : IsScheme ['f', 'i', 'l', 'e'] := ⟨'f', ['i', 'l', 'e'], rfl, by decide, by decide⟩
  have apart : AreApart ⟨['f', 'i', 'l', 'e'], [], '/' :: cs, [], []⟩ := by
    refine ⟨by simp, by simp, fun c inside => ?_, by simp⟩
    obtain ⟨-, -, -, -, noFragment, noQuery⟩ := path c inside
    exact ⟨noQuery, noFragment⟩
  have behind : behindScheme ⟨['f', 'i', 'l', 'e'], [], '/' :: cs, [], []⟩ =
      [':', '/', '/'] ++ '/' :: cs := by
    simp [behindScheme, marked]
  have solid : ∀ c ∈ behindScheme ⟨['f', 'i', 'l', 'e'], [], '/' :: cs, [], []⟩,
      c ≠ '\t' ∧ c ≠ '\r' ∧ c ≠ '\n' := by
    rw [behind, List.forall_mem_append]
    refine ⟨by simp, fun c inside => ?_⟩
    obtain ⟨-, noTab, noReturn, noFeed, -⟩ := path c inside
    exact ⟨noTab, noReturn, noFeed⟩
  have parsed := parse_behindScheme isScheme apart solid rfl (by simp)
  rw [behind] at parsed
  exact parsed

end Url

namespace Path

/-- The address of an absolute path has the scheme of files and the escaped path. -/
theorem parse_fileUri {p : Path} (absolute : p.root = "/") : Url.parse p.fileUri.toList =
    .ok ⟨"file".toList, [], Url.escapePath p.toString, [], []⟩ := by
  have file : "file://".toList = ['f', 'i', 'l', 'e', ':', '/', '/'] := by decide
  have scheme : "file".toList = ['f', 'i', 'l', 'e'] := by decide
  obtain ⟨rest, text⟩ : ∃ rest, Url.escapePath p.toString = '/' :: rest := by
    have slash : (String.utf8EncodeChar '/').flatMap Url.escapeByte = ['/'] := by decide
    rw [Url.escapePath, Text.encodeUtf8_eq, toList_toString absolute, List.flatMap_cons,
      List.flatMap_append, slash, List.singleton_append]
    exact ⟨_, rfl⟩
  have escaped : ∀ c ∈ rest, Url.IsEscaped c := fun c member =>
    Url.isEscaped_escapePath p.toString c (text ▸ List.mem_cons_of_mem _ member)
  have uri : p.fileUri.toList = ['f', 'i', 'l', 'e', ':', '/', '/', '/'] ++ rest := by
    have address : p.fileUri = String.ofList (['f', 'i', 'l', 'e', ':', '/', '/'] ++
        Url.escapePath p.toString) :=
      congrArg (fun cs => String.ofList (cs ++ Url.escapePath p.toString)) file
    rw [address, String.toList_ofList, text]
    rfl
  rw [uri, scheme, text, Url.parse_file escaped]

/-- The address of a file leads back to its path. -/
theorem ofUri?_fileUri {p : Path} (plain : p.IsPlain) (absolute : p.root = "/") :
    ofUri? p.fileUri = .ok (some p) := by
  rw [ofUri?, parse_fileUri absolute]
  simp only [bind, Except.bind, Url.unescape_escapePath, ofString_toString plain absolute]
  rfl

end Path
end InlineQuery
