import InlineQuery.Failure
import InlineQuery.Text.Markup
import InlineQuery.Text.Wrap

/-!
What a command shows on a terminal: lines of text, and tables with a title above them.
-/

namespace InlineQuery.CommandLine

/-- One line on the screen: text, or the cells of one row of a table. -/
inductive ScreenLine where
  | text (s : String)
  | row (cells : List String)
  deriving DecidableEq, Repr, Inhabited

/-- What a command leaves: its exit code and what it showed. -/
structure Outcome where
  exitCode : Nat
  lines : List ScreenLine
  deriving DecidableEq, Repr, Inhabited

def Markup.failure (fault : Text.Markup.Fault) : Failure :=
  { kind := .markup, message := fault.message }

namespace Screen

/-- Text that is shown as it is. -/
def plain (s : String) : List ScreenLine :=
  (Text.lines (s.toList.filter fun c => !Text.Markup.isHidden c)).map fun l =>
    .text (String.ofList l)

/-- The lines that markup shows. -/
def shown (markup : String) : Except Failure (List (List Char)) :=
  ((Text.Markup.render markup.toList).mapError Markup.failure).map Text.lines

def print (markup : String) : Except Failure (List ScreenLine) := do
  return (← shown markup).map fun l => .text (String.ofList l)

/-- A cell of a line that a row takes; rows with fewer lines leave it empty. -/
def cellAt (i : Nat) (cell : List (List Char)) : String := String.ofList (cell.getD i [])

/-- A row takes as many lines as its highest cell. -/
def rowLines (cells : List (List (List Char))) : List ScreenLine :=
  let height := (cells.map List.length).foldl max 1
  (List.range height).map fun i => .row (cells.map (cellAt i))

/-- The lines of a cell before its tabulators are filled up. -/
def cellText (markup : String) : Except Failure (List (List Char)) :=
  ((Text.Markup.render markup.toList).mapError Markup.failure).map (Text.cut '\n')

/-- The cells of one column, and how wide it is. -/
structure Column where
  width : Nat
  cells : List (List (List Char))
  deriving DecidableEq, Repr, Inhabited

/-- A column is as wide as its widest line. What its tabulators add does not count, so that such a
line may have to be wrapped. -/
def column (cells : List String) : Except Failure Column := do
  let texts ← cells.mapM cellText
  let width := (texts.flatten.map Text.width).foldl max 0
  return ⟨width, texts.map fun ls => ls.flatMap fun l => Text.wrapCell width (Text.expandTabs 0 l)⟩

/-- How wide a table is: its columns with a blank on both sides, and a line around each. -/
def tableWidth (columns : List Column) : Nat := columns.foldl (fun width c => width + (c.width + 3)) 1

/-- A table. Its title is not wider than the table itself. -/
def table (title : String) (header : List String) (rows : List (List String)) :
    Except Failure (List ScreenLine) := do
  let columns ← (List.range header.length).mapM fun i =>
    column ((header :: rows).map fun cells => cells.getD i "")
  let title ← shown title
  let row (i : Nat) : List ScreenLine := rowLines (columns.map fun c => c.cells.getD i [])
  return (title.flatMap (Text.wrap (tableWidth columns))).map (fun l => .text (String.ofList l))
    ++ (List.range (rows.length + 1)).flatMap row

end Screen
end InlineQuery.CommandLine
