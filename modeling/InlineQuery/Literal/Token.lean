namespace InlineQuery.Literal

/-- The characters that make up identifiers of scripts and words of GraphQL documents. -/
def isIdent (c : Char) : Bool := c.isAlphanum || c == '_' || c == '$'

/-- Characters between tokens: blanks, line ends and the byte order mark. -/
def isGap (c : Char) : Bool :=
  c == ' ' || c == '\t' || c == '\r' || c == '\n' || c == '\x0c' || c == '\x0b' || c == '\ufeff'

def openBracket (c : Char) : Bool := c == '{' || c == '(' || c == '['

def closeBracket (c : Char) : Bool := c == '}' || c == ')' || c == ']'

/-- How many characters lie before the next line feed. -/
def lineRest (cs : List Char) : Nat := (cs.takeWhile (· ≠ '\n')).length

end InlineQuery.Literal
