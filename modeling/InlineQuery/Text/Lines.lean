namespace InlineQuery

/-- Where the lines of a text start, as offsets in characters. -/
structure LineIndex where
  starts : List Nat
  deriving DecidableEq, Repr

namespace LineIndex

/-- The offset after each line feed of a text that begins at offset `k`. -/
def lineEnds (k : Nat) : List Char → List Nat
  | [] => []
  | c :: r => if c = '\n' then (k + 1) :: lineEnds (k + 1) r else lineEnds (k + 1) r

/-- Only a line feed ends a line; a carriage return is an ordinary character. -/
def ofText (text : List Char) : LineIndex := ⟨0 :: lineEnds 0 text⟩

/-- Line and column of an offset, both counted from zero. -/
def position (index : LineIndex) (offset : Nat) : Nat × Nat :=
  let before := index.starts.takeWhile (· ≤ offset)
  (before.length - 1, offset - before.getLastD 0)

/-- The start of the text's last line. -/
def lastStart (index : LineIndex) : Nat := index.starts.getLastD 0

/-- `position` for any integer. An offset before the text lies on line -1, and its column is
counted from the start of the last line. -/
def locate (index : LineIndex) (offset : Int) : Int × Int :=
  if offset < 0 then (-1, offset - index.lastStart)
  else
    let (line, column) := index.position offset.toNat
    (line, column)

/-- The offset of a column of a line. A line before the text is its very start and a line after
the text is its last line. -/
def offset (index : LineIndex) (line : Int) (column : Int) : Int :=
  if line < 0 then 0
  else (index.starts[min line.toNat (index.starts.length - 1)]?.getD 0 : Nat) + column

end LineIndex
end InlineQuery
