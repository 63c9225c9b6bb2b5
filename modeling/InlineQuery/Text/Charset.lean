import InlineQuery.Text.CodePage
import InlineQuery.Text.Utf8

/-!
Texts in other charsets than UTF-8. A charset is known by many names, which are compared without
regard to letter case and punctuation.
-/

namespace InlineQuery.Text

inductive Charset where
  | utf8 (mark : Bool)
  | ascii
  | latin1
  | page (codes : CodePage)
  | utf16 (order : Option Bool)
  | utf32 (order : Option Bool)
  deriving DecidableEq, Repr, Inhabited

namespace Charset

/-- A name in lower case with a line for each run of other characters between two words. -/
def plainName (name : String) : String :=
  let cs := name.toList.map fun c => if c.isAlphanum || c == '.' then c.toLower else '_'
  let cs := cs.foldl (fun acc c => if c == '_' && (acc.isEmpty || acc.head? == some '_') then acc
    else c :: acc) []
  String.ofList ((if cs.head? == some '_' then cs.drop 1 else cs).reverse)

/-- Names of a charset in plain form: the one under which the platform keeps it, and others. -/
structure Names where
  key : String
  aliases : List String
  deriving DecidableEq, Repr, Inhabited

/-- A name with lines for dots. -/
def undotted (plain : String) : String :=
  String.ofList (plain.toList.map fun c => if c == '.' then '_' else c)

/-- Whether a name in plain form is among them. In other names than the key, dots may stand for
lines. -/
def Names.include (names : Names) (plain : String) : Bool :=
  names.aliases.contains plain || names.aliases.contains (undotted plain) || names.key == plain

/-- The charsets that are defined here. Among those of two and four bytes, the flag is true when the
high byte comes first; without it a byte order mark decides. -/
def known : List (Names × Charset) := [
  (⟨"utf_8", ["cp65001", "u8", "utf", "utf8", "utf8_ucs2", "utf8_ucs4"]⟩, utf8 false),
  (⟨"utf_8_sig", []⟩, utf8 true),
  (⟨"ascii", ["646", "ansi_x3.4_1968", "ansi_x3.4_1986", "ansi_x3_4_1968", "cp367", "csascii",
    "ibm367", "iso646_us", "iso_646.irv_1991", "iso_ir_6", "us", "us_ascii"]⟩, ascii),
  (⟨"latin_1", ["8859", "cp819", "csisolatin1", "ibm819", "iso8859", "iso8859_1", "iso_8859_1",
    "iso_8859_1_1987", "iso_ir_100", "l1", "latin", "latin1"]⟩, latin1),
  (⟨"charmap", []⟩, latin1),
  (⟨"utf_16", ["u16", "utf16"]⟩, utf16 none),
  (⟨"utf_16_le", ["unicodelittleunmarked", "utf_16le"]⟩, utf16 (some false)),
  (⟨"utf_16_be", ["unicodebigunmarked", "utf_16be"]⟩, utf16 (some true)),
  (⟨"utf_32", ["u32", "utf32"]⟩, utf32 none),
  (⟨"utf_32_le", ["utf_32le"]⟩, utf32 (some false)),
  (⟨"utf_32_be", ["utf_32be"]⟩, utf32 (some true))] ++
    CodePage.all.map fun codes => (⟨codes.key, codes.aliases⟩, page codes)

def ofName? (name : String) : Option Charset :=
  (known.find? fun e => e.1.include (plainName name)).map (·.2)

/-- The charsets that the platform has beside those: the ones of the far east, in which a character
takes one byte or several, and ways to write all characters in ASCII. -/
def foreignNames : List Names := [
  ⟨"big5", ["big5_tw", "csbig5", "x_mac_trad_chinese"]⟩,
  ⟨"big5hkscs", ["big5_hkscs", "hkscs"]⟩,
  ⟨"cp932", ["932", "ms932", "ms_kanji", "mskanji"]⟩,
  ⟨"cp949", ["949", "ms949", "uhc"]⟩,
  ⟨"cp950", ["950", "ms950"]⟩,
  ⟨"euc_jis_2004", ["euc_jis2004", "eucjis2004", "jisx0213"]⟩,
  ⟨"euc_jisx0213", ["eucjisx0213"]⟩,
  ⟨"euc_jp", ["eucjp", "u_jis", "ujis"]⟩,
  ⟨"euc_kr", ["euckr", "korean", "ks_c_5601", "ks_c_5601_1987", "ks_x_1001", "ksc5601", "ksx1001",
    "x_mac_korean"]⟩,
  ⟨"gb18030", ["gb18030_2000"]⟩,
  ⟨"gb2312", ["chinese", "csiso58gb231280", "euc_cn", "euccn", "eucgb2312_cn", "gb2312_1980",
    "gb2312_80", "iso_ir_58", "x_mac_simp_chinese"]⟩,
  ⟨"gbk", ["936", "cp936", "ms936"]⟩,
  ⟨"hz", ["hz_gb", "hz_gb_2312", "hzgb"]⟩,
  ⟨"iso2022_jp", ["csiso2022jp", "iso2022jp", "iso_2022_jp"]⟩,
  ⟨"iso2022_jp_1", ["iso2022jp_1", "iso_2022_jp_1"]⟩,
  ⟨"iso2022_jp_2", ["iso2022jp_2", "iso_2022_jp_2"]⟩,
  ⟨"iso2022_jp_2004", ["iso2022jp_2004", "iso_2022_jp_2004"]⟩,
  ⟨"iso2022_jp_3", ["iso2022jp_3", "iso_2022_jp_3"]⟩,
  ⟨"iso2022_jp_ext", ["iso2022jp_ext", "iso_2022_jp_ext"]⟩,
  ⟨"iso2022_kr", ["csiso2022kr", "iso2022kr", "iso_2022_kr"]⟩,
  ⟨"johab", ["cp1361", "ms1361"]⟩,
  ⟨"shift_jis", ["csshiftjis", "s_jis", "shiftjis", "sjis", "x_mac_japanese"]⟩,
  ⟨"shift_jis_2004", ["s_jis_2004", "shiftjis2004", "sjis_2004"]⟩,
  ⟨"shift_jisx0213", ["s_jisx0213", "shiftjisx0213", "sjisx0213"]⟩,
  ⟨"utf_7", ["u7", "unicode_1_1_utf_7", "utf7"]⟩,
  ⟨"unicode_escape", []⟩, ⟨"raw_unicode_escape", []⟩, ⟨"punycode", []⟩, ⟨"idna", []⟩]

/-- Whether a name is that of a charset of the platform that is not defined here. -/
def isForeign (name : String) : Bool := foreignNames.any (·.include (plainName name))

/-- Whether a name is that of the charset in which nothing has a text. -/
def isVoid (name : String) : Bool := plainName name == "undefined"

/-- Ways to pack bytes, which are kept among the charsets. -/
def packings : List Names := [
  ⟨"base64_codec", ["base64", "base_64"]⟩, ⟨"bz2_codec", ["bz2"]⟩, ⟨"hex_codec", ["hex"]⟩,
  ⟨"quopri_codec", ["quopri", "quoted_printable", "quotedprintable"]⟩, ⟨"rot_13", ["rot13"]⟩,
  ⟨"uu_codec", ["uu"]⟩, ⟨"zlib_codec", ["zip", "zlib"]⟩]

/-- Whether a name is that of a way to pack bytes instead of a charset. -/
def isPacking (name : String) : Bool := packings.any (·.include (plainName name))

def asciiStep (b : Nat) (_ : List Nat) : Step :=
  if b < 0x80 then .char (Char.ofNat b) 1 else .flaw 1 "ordinal not in range(128)"

def latin1Step (b : Nat) (_ : List Nat) : Step := .char (Char.ofNat b) 1

def pageStep (page : CodePage) (b : Nat) (_ : List Nat) : Step :=
  match page.char? b with
  | some c => .char c 1
  | none => .flaw 1 "character maps to <undefined>"

def unit (high : Bool) (a b : Nat) : Nat := if high then a * 256 + b else b * 256 + a

def isSurrogate (n : Nat) : Bool := 0xD800 ≤ n && n ≤ 0xDFFF

def utf16Step (high : Bool) (b : Nat) (rest : List Nat) : Step :=
  match rest with
  | [] => .flaw 1 "truncated data"
  | c :: more =>
    let n := unit high b c
    if !isSurrogate n then .char (Char.ofNat n) 2
    else if 0xDC00 ≤ n then .flaw 2 "illegal encoding"
    else match more with
      | d :: e :: _ =>
        let low := unit high d e
        if 0xDC00 ≤ low ∧ low ≤ 0xDFFF then
          .char (Char.ofNat (0x10000 + (n - 0xD800) * 0x400 + (low - 0xDC00))) 4
        else .flaw 2 "illegal UTF-16 surrogate"
      | _ => .flaw (2 + more.length) "unexpected end of data"

def utf32Step (high : Bool) (b : Nat) (rest : List Nat) : Step :=
  match rest with
  | c :: d :: e :: _ =>
    let n := if high then unit true b c * 65536 + unit true d e
      else unit false d e * 65536 + unit false b c
    if isSurrogate n then .flaw 4 "code point in surrogate code point range(0xd800, 0xe000)"
    else if 0x10FFFF < n then .flaw 4 "code point not in range(0x110000)"
    else .char (Char.ofNat n) 4
  | _ => .flaw (1 + rest.length) "truncated data"

/-- How bytes are read: how many bytes of a byte order mark come first, whether they count as
positions, the name for messages and the reader. -/
structure Plan where
  mark : Nat
  countsMark : Bool
  name : String
  step : Nat → List Nat → Step

def utf16Plan (mark : Nat) (high : Bool) : Plan :=
  ⟨mark, true, if high then "utf-16-be" else "utf-16-le", utf16Step high⟩

def utf32Plan (mark : Nat) (high : Bool) : Plan :=
  ⟨mark, true, if high then "utf-32-be" else "utf-32-le", utf32Step high⟩

def plan (charset : Charset) (bytes : List Nat) : Plan :=
  match charset with
  | utf8 mark => ⟨if mark && bytes.take 3 == [0xEF, 0xBB, 0xBF] then 3 else 0, false, "utf-8",
      Utf8.step⟩
  | ascii => ⟨0, false, "ascii", asciiStep⟩
  | latin1 => ⟨0, false, "latin-1", latin1Step⟩
  | page codes => ⟨0, false, "charmap", pageStep codes⟩
  | utf16 (some high) => utf16Plan 0 high
  | utf16 none =>
    if bytes.take 2 == [0xFE, 0xFF] then utf16Plan 2 true
    else utf16Plan (if bytes.take 2 == [0xFF, 0xFE] then 2 else 0) false
  | utf32 (some high) => utf32Plan 0 high
  | utf32 none =>
    if bytes.take 4 == [0, 0, 0xFE, 0xFF] then utf32Plan 4 true
    else utf32Plan (if bytes.take 4 == [0xFF, 0xFE, 0, 0] then 4 else 0) false

def decode (charset : Charset) (bytes : List UInt8) : Except DecodeError (List Char) :=
  let bytes := byteValues bytes
  let plan := charset.plan bytes
  decodeFrom plan.name plan.step (if plan.countsMark then plan.mark else 0) 0
    (bytes.drop plan.mark)

def replace (charset : Charset) (bytes : List UInt8) : List Char :=
  let bytes := byteValues bytes
  let plan := charset.plan bytes
  replaceFrom plan.step 0 (bytes.drop plan.mark)

end Charset

/-- Why bytes are not read: they are no text in their charset, the platform has no charset of that
name, or it gives up on them in another way. -/
inductive Undecoded where
  | flawed (message : String)
  | unknown (message : String)
  | refused (message : String)
  deriving DecidableEq, Repr, Inhabited

/-- What reading bytes gives: as they are, and with what is no text replaced. -/
structure Decoding where
  strict : Except Undecoded (List Char)
  lenient : Except Undecoded (List Char)
  deriving Repr, Inhabited

namespace Decoding

/-- Bytes that are read in neither way. -/
def failed (e : Undecoded) : Decoding := ⟨.error e, .error e⟩

/-- Bytes in a charset that is defined here. -/
def ofCharset (charset : Charset) (bytes : List UInt8) : Decoding :=
  ⟨(charset.decode bytes).mapError fun e => .flawed e.message, .ok (charset.replace bytes)⟩

/-- Why the platform knows no charset of a name. -/
def unknown (name : String) : Undecoded :=
  .unknown (if Charset.isPacking name then
    "'" ++ name ++ "' is not a text encoding; use codecs.decode() to handle arbitrary codecs"
  else "unknown encoding: " ++ name)

/-- How the platform reads bytes in the charset of a name. What it makes of them in a charset that
is not defined here is given. -/
def named (name : String) (bytes : List UInt8) (foreign : Decoding) : Decoding :=
  match Charset.ofName? name with
  | some charset => ofCharset charset bytes
  | none =>
    if Charset.isForeign name then foreign
    else if Charset.isVoid name then
      failed (.refused ("decoding with '" ++ name ++ "' codec failed (UnicodeError: undefined encoding)"))
    else failed (unknown name)

end Decoding
end InlineQuery.Text
