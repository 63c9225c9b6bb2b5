import InlineQuery.Text.Cut
import InlineQuery.Text.Space

/-!
Lines on a terminal: how wide a text is there, tabulators, and lines that are too long.
-/

namespace InlineQuery.Text

/-- Characters that take two cells. -/
def wideRanges : List (Nat × Nat) :=
  [(0x1100, 0x115F), (0x231A, 0x231B), (0x2329, 0x232A), (0x23E9, 0x23EC), (0x2E80, 0x303E),
    (0x3041, 0x33FF), (0x3400, 0x4DBF), (0x4E00, 0xA4CF), (0xA960, 0xA97C), (0xAC00, 0xD7A3),
    (0xF900, 0xFAFF), (0xFE10, 0xFE19), (0xFE30, 0xFE6B), (0xFF01, 0xFF60), (0xFFE0, 0xFFE6),
    (0x16FE0, 0x18CD5), (0x1B000, 0x1B2FB), (0x1F300, 0x1F320), (0x1F32D, 0x1F335),
    (0x1F337, 0x1F37C), (0x1F37E, 0x1F393), (0x1F3A0, 0x1F3CA), (0x1F3CF, 0x1F3D3),
    (0x1F3E0, 0x1F3F0), (0x1F3F8, 0x1F43E), (0x1F440, 0x1F440), (0x1F442, 0x1F4FC),
    (0x1F4FF, 0x1F53D), (0x1F54B, 0x1F567), (0x1F5FB, 0x1F64F), (0x1F680, 0x1F6C5),
    (0x1F7E0, 0x1F7EB), (0x1F90C, 0x1F9FF), (0x1FA70, 0x1FAFF), (0x20000, 0x3FFFD)]

/-- Characters that are put over the one before them. -/
def joiningRanges : List (Nat × Nat) :=
  [(0, 0x1F), (0x7F, 0x9F), (0x300, 0x36F), (0x483, 0x489), (0x591, 0x5BD), (0x610, 0x61A),
    (0x64B, 0x65F), (0x200B, 0x200F), (0x20D0, 0x20F0), (0xFE00, 0xFE0F), (0xFE20, 0xFE2F)]

def within (ranges : List (Nat × Nat)) (c : Char) : Bool :=
  ranges.any fun (low, high) => low ≤ c.toNat && c.toNat ≤ high

/-- How many cells a character takes. -/
def charWidth (c : Char) : Nat :=
  if within joiningRanges c then 0 else if within wideRanges c then 2 else 1

def width (cs : List Char) : Nat := cs.foldl (fun width c => width + charWidth c) 0

/-- Fills a line up to the next multiple of eight cells at each tabulator. -/
def expandTabs (column : Nat) : List Char → List Char
  | [] => []
  | c :: r =>
    if c = '\t' then
      let gap := 8 - column % 8
      List.replicate gap ' ' ++ expandTabs (column + gap) r
    else c :: expandTabs (column + charWidth c) r

def lines (cs : List Char) : List (List Char) := (cut '\n' cs).map (expandTabs 0)

/-- The words of a line, each with the blanks around it that follow no other word. -/
def words (cs : List Char) : List (List Char) :=
  let rec go (current : List Char) (isOpen : Bool) : List Char → List (List Char)
    | [] => if isOpen then [current.reverse] else []
    | c :: r =>
      if isSpace c then go (c :: current) isOpen r
      else match current with
        | d :: _ =>
          if isOpen && isSpace d then current.reverse :: go [c] true r
          else go (c :: current) true r
        | [] => go [c] true r
  go [] false cs

/-- Cuts a word into parts that fit. -/
def chop (limit : Nat) (used : Nat) (current : List Char) : List Char → List (List Char)
  | [] => [current.reverse]
  | c :: r =>
    if limit < used + charWidth c then current.reverse :: chop limit (charWidth c) [c] r
    else chop limit (used + charWidth c) (c :: current) r

/-- Lays words out in lines of at most so many cells. `current` is the line so far and `used` what
counts of its width. -/
def layOut (limit : Nat) (current : List Char) (used : Nat) : List (List Char) → List (List Char)
  | [] => if current.isEmpty then [] else [current]
  | word :: rest =>
    let needed := width (trimEnd word)
    if used + needed ≤ limit then layOut limit (current ++ word) (used + width word) rest
    else if limit < needed then
      let parts := chop limit 0 [] word
      let last := parts.getLastD []
      (if current.isEmpty then [] else [current]) ++ parts.dropLast
        ++ layOut limit last (width last) rest
    else current :: layOut limit word (width word) rest

/-- The start of a line that fills so many cells. A wide character that does not fit leaves a blank. -/
def takeCells : Nat → List Char → List Char
  | _, [] => []
  | room, c :: r =>
    if charWidth c ≤ room then c :: takeCells (room - charWidth c) r
    else List.replicate room ' '

/-- Drops blanks at the end of a line that has more characters than the limit. -/
def dropBlanksBeyond (limit : Nat) (line : List Char) : List Char :=
  line.take (max limit (trimEnd line).length)

/-- Ends a line that is too long in an ellipsis. -/
def shorten (limit : Nat) (line : List Char) : List Char :=
  if limit < width line then takeCells (limit - 1) line ++ ['…'] else line

/-- A line in lines of at most so many cells. -/
def wrap (limit : Nat) (line : List Char) : List (List Char) :=
  match layOut limit [] 0 (words line) with
  | [] => [[]]
  | ls => ls.map trimEnd

/-- The same for a cell of a table. The blanks at the end of a line are counted as characters, so that
behind wide characters too many of them stay and the line is shortened. -/
def wrapCell (limit : Nat) (line : List Char) : List (List Char) :=
  match layOut limit [] 0 (words line) with
  | [] => [[]]
  | ls => ls.map fun l => trimEnd (shorten limit (dropBlanksBeyond limit l))

end InlineQuery.Text
