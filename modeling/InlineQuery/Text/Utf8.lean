/-!
Reading UTF-8. A sequence that is not valid is a flaw of one or more bytes: the start of a sequence
and the bytes that could still continue it.
-/

namespace InlineQuery.Text

/-- A stretch of bytes that a charset does not allow. -/
structure DecodeError where
  charset : String
  start : Nat
  length : Nat
  byte : UInt8
  reason : String
  deriving DecidableEq, Repr, Inhabited

def hexByte (b : UInt8) : String :=
  let digits := Nat.toDigits 16 b.toNat
  String.ofList (List.replicate (2 - digits.length) '0' ++ digits)

def DecodeError.message (e : DecodeError) : String :=
  "'" ++ e.charset ++ "' codec can't decode " ++
    (if e.length = 1 then "byte 0x" ++ hexByte e.byte ++ " in position " ++ toString e.start
    else "bytes in position " ++ toString e.start ++ "-" ++ toString (e.start + e.length - 1))
    ++ ": " ++ e.reason

/-- The outcome of reading one character: how many bytes it takes, or how long the flaw is. -/
inductive Step where
  | char (c : Char) (bytes : Nat)
  | flaw (bytes : Nat) (reason : String)
  deriving DecidableEq, Repr, Inhabited

namespace Utf8

def isContinuation (b : Nat) : Bool := 0x80 ≤ b && b < 0xC0

def invalidStart : Step := .flaw 1 "invalid start byte"

def invalidContinuation (n : Nat) : Step := .flaw n "invalid continuation byte"

def cutOff (n : Nat) : Step := .flaw n "unexpected end of data"

/-- Whether a byte can be the second of a sequence: neither an overlong form, nor half of a
surrogate pair, nor a number that is too large. -/
def allowsSecond (first second : Nat) : Bool :=
  isContinuation second &&
    !(first == 0xE0 && second < 0xA0) && !(first == 0xED && 0xA0 ≤ second) &&
    !(first == 0xF0 && second < 0x90) && !(first == 0xF4 && 0x90 ≤ second)

/-- Reads the character that starts with a byte. -/
def step (first : Nat) (rest : List Nat) : Step :=
  if first < 0x80 then .char (Char.ofNat first) 1
  else if first < 0xC2 ∨ 0xF5 ≤ first then invalidStart
  else
    let size := if first < 0xE0 then 2 else if first < 0xF0 then 3 else 4
    match rest with
    | [] => cutOff 1
    | b :: more =>
      if !allowsSecond first b then invalidContinuation 1
      else if size = 2 then .char (Char.ofNat ((first - 0xC0) * 64 + (b - 0x80))) 2
      else match more with
        | [] => cutOff 2
        | c :: more =>
          if !isContinuation c then invalidContinuation 2
          else if size = 3 then
            .char (Char.ofNat ((first - 0xE0) * 4096 + (b - 0x80) * 64 + (c - 0x80))) 3
          else match more with
            | [] => cutOff 3
            | d :: _ =>
              if !isContinuation d then invalidContinuation 3
              else .char (Char.ofNat ((first - 0xF0) * 262144 + (b - 0x80) * 4096
                + (c - 0x80) * 64 + (d - 0x80))) 4

end Utf8

/-- Reads bytes character by character; `skip` bytes ahead belong to the last one. -/
def decodeFrom (charset : String) (step : Nat → List Nat → Step) (offset skip : Nat) :
    List Nat → Except DecodeError (List Char)
  | [] => .ok []
  | b :: rest =>
    match skip with
    | skip + 1 => decodeFrom charset step (offset + 1) skip rest
    | 0 =>
      match step b rest with
      | .flaw n reason => .error ⟨charset, offset, n, b.toUInt8, reason⟩
      | .char c n => (decodeFrom charset step (offset + 1) (n - 1) rest).map (c :: ·)

/-- Reads bytes character by character, one replacement character standing for each flaw. -/
def replaceFrom (step : Nat → List Nat → Step) (skip : Nat) : List Nat → List Char
  | [] => []
  | b :: rest =>
    match skip with
    | skip + 1 => replaceFrom step skip rest
    | 0 =>
      match step b rest with
      | .flaw n _ => '\ufffd' :: replaceFrom step (n - 1) rest
      | .char c n => c :: replaceFrom step (n - 1) rest

def byteValues (bytes : List UInt8) : List Nat := bytes.map UInt8.toNat

/-- The text of UTF-8 bytes, or the first flaw. -/
def decodeUtf8 (bytes : List UInt8) : Except DecodeError (List Char) :=
  decodeFrom "utf-8" Utf8.step 0 0 (byteValues bytes)

/-- The text of UTF-8 bytes, whatever they are. -/
def replaceUtf8 (bytes : List UInt8) : List Char := replaceFrom Utf8.step 0 (byteValues bytes)

def encodeUtf8 (s : String) : List UInt8 := s.toUTF8.toList

/-- Turns every line end into a line feed. -/
def unifyLineEnds : List Char → List Char
  | '\r' :: '\n' :: r => '\n' :: unifyLineEnds r
  | '\r' :: r => '\n' :: unifyLineEnds r
  | c :: r => c :: unifyLineEnds r
  | [] => []

end InlineQuery.Text
