namespace InlineQuery.Text

/-- White space in the sense of the Unicode character database, with the four
information separators of ASCII. -/
def isSpace (c : Char) : Bool :=
  let n := c.toNat
  (9 ≤ n && n ≤ 13) || (28 ≤ n && n ≤ 32) || n == 0x85 || n == 0xA0 || n == 0x1680 ||
    (0x2000 ≤ n && n ≤ 0x200A) || n == 0x2028 || n == 0x2029 || n == 0x202F || n == 0x205F ||
    n == 0x3000

/-- Removes white space at the start of a text. -/
def trimStart (cs : List Char) : List Char := cs.dropWhile isSpace

/-- Removes white space at the end of a text. -/
def trimEnd (cs : List Char) : List Char := (cs.reverse.dropWhile isSpace).reverse

/-- Removes white space at both ends of a text. -/
def trim (cs : List Char) : List Char := trimEnd (trimStart cs)

/-- Whether a text holds nothing but white space. -/
def isBlank (cs : List Char) : Bool := cs.all isSpace

/-- `trim` on strings. -/
def strip (s : String) : String := String.ofList (trim s.toList)

theorem isBlank_iff (cs : List Char) : isBlank cs = true ↔ ∀ c ∈ cs, isSpace c = true := by
  simp [isBlank]

end InlineQuery.Text
