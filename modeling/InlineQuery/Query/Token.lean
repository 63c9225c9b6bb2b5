namespace InlineQuery.Query

inductive Punctuator where
  | bang | dollar | amp | parenL | parenR | spread | colon | equals | at
  | bracketL | bracketR | braceL | pipe | braceR
  deriving DecidableEq, Repr, Inhabited

namespace Punctuator

def text : Punctuator → String
  | bang => "!"
  | dollar => "$"
  | amp => "&"
  | parenL => "("
  | parenR => ")"
  | spread => "..."
  | colon => ":"
  | equals => "="
  | .at => "@"
  | bracketL => "["
  | bracketR => "]"
  | braceL => "\x7b"
  | pipe => "|"
  | braceR => "\x7d"

/-- The punctuators of one character. -/
def ofChar? : Char → Option Punctuator
  | '!' => some bang
  | '$' => some dollar
  | '&' => some amp
  | '(' => some parenL
  | ')' => some parenR
  | ':' => some colon
  | '=' => some equals
  | '@' => some .at
  | '[' => some bracketL
  | ']' => some bracketR
  | '{' => some braceL
  | '|' => some pipe
  | '}' => some braceR
  | _ => none

end Punctuator

/-- What a token says. Numbers keep their text; strings hold the value that they denote. -/
inductive Lexeme where
  | mark (p : Punctuator)
  | name (text : String)
  | int (text : String)
  | float (text : String)
  | string (value : String)
  | blockString (value : String)
  | eof
  deriving DecidableEq, Repr, Inhabited

/-- How an error message names a token. -/
def Lexeme.describe : Lexeme → String
  | mark p => "'" ++ p.text ++ "'"
  | name text => "Name '" ++ text ++ "'"
  | int text => "Int '" ++ text ++ "'"
  | float text => "Float '" ++ text ++ "'"
  | string value => "String '" ++ value ++ "'"
  | blockString value => "BlockString '" ++ value ++ "'"
  | eof => "<EOF>"

/-- Whether a token is a word, or a string of just that word. -/
def Lexeme.reads (l : Lexeme) (word : String) : Bool :=
  l == .name word || l == .string word || l == .blockString word

structure Token where
  lexeme : Lexeme
  start : Nat
  stop : Nat
  deriving DecidableEq, Repr, Inhabited

/-- Why a text is not GraphQL. The second argument of an invalid escape is its text. -/
inductive Fault where
  | unterminatedString
  | invalidEscape (text : String)
  | invalidUnicodeEscape (text : String)
  | digitAfterZero (found : Char)
  | digitExpected (found : Option Char)
  | digitBeforeDot (digits : String)
  | twoDots
  | singleQuote
  | unexpectedCharacter (found : Char)
  | unexpected (token : Lexeme)
  | expected (wanted : String) (found : Lexeme)
  | variableInConstant (name : String)
  | reservedEnumValue (token : Lexeme)
  | uselessDescription
  | shorthandDescription
  | tooDeep
  deriving DecidableEq, Repr, Inhabited

/-- A fault and the offset of the character or token that shows it. -/
structure SyntaxError where
  fault : Fault
  position : Nat
  deriving DecidableEq, Repr, Inhabited

/-- Hexadecimal digits of a number, in upper case. -/
def upperHex (n : Nat) : String :=
  String.ofList ((Nat.toDigits 16 n).map Char.toUpper)

/-- How an error message shows a character: printable ASCII as it is, any other by number. -/
def showChar (c : Char) : String :=
  if ' ' ≤ c ∧ c ≤ '~' then "'" ++ c.toString ++ "'"
  else
    let digits := upperHex c.toNat
    "U+" ++ String.ofList (List.replicate (4 - digits.length) '0') ++ digits

def showChar? : Option Char → String
  | none => "<EOF>"
  | some c => showChar c

def Fault.message : Fault → String
  | unterminatedString => "Unterminated string."
  | invalidEscape text => "Invalid character escape sequence: '" ++ text ++ "'."
  | invalidUnicodeEscape text => "Invalid Unicode escape sequence: '" ++ text ++ "'."
  | digitAfterZero found => "Invalid number, unexpected digit after 0: " ++ showChar found ++ "."
  | digitExpected found => "Invalid number, expected digit but got: " ++ showChar? found ++ "."
  | digitBeforeDot digits =>
    "Invalid number, expected digit before '.', did you mean '0." ++ digits ++ "'?"
  | twoDots => "Unexpected '..', did you mean '...'?"
  | singleQuote =>
    "Unexpected single quote character ('), did you mean to use a double quote (\")?"
  | unexpectedCharacter found => "Unexpected character: " ++ showChar found ++ "."
  | unexpected token => "Unexpected " ++ token.describe ++ "."
  | expected wanted found => "Expected " ++ wanted ++ ", found " ++ found.describe ++ "."
  | variableInConstant name => "Unexpected variable '$" ++ name ++ "' in constant value."
  | reservedEnumValue token =>
    token.describe ++ " is reserved and cannot be used for an enum value."
  | uselessDescription =>
    "Unexpected description, only GraphQL definitions support descriptions."
  | shorthandDescription =>
    "Unexpected description, descriptions are not supported on shorthand queries."
  | tooDeep => "Document is nested too deeply. Parsing aborted."

def SyntaxError.message (e : SyntaxError) : String := "Syntax Error: " ++ e.fault.message

end InlineQuery.Query
