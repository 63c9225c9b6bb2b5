import InlineQuery.CommandLine.Screen
import InlineQuery.Workspace

/-!
The command that lists the operations of a source file.
-/

namespace InlineQuery.CommandLine

def orDash (s : String) : String := if s = "" then "-" else s

/-- The row of a lens: its line, what it does, the tag of its literal and the variables. -/
def lensRow (lens : Lens) : List String :=
  let operation := lens.operation
  let declared := operation.declarations.map fun v => "$" ++ v.name ++ ": " ++ v.type
  [toString (lens.line + 1), lens.title, orDash (operation.literal.tag.getD ""),
    orDash (", ".intercalate declared)]

def lensTable (path : String) (lenses : List Lens) : Except Failure (List ScreenLine) :=
  if lenses.isEmpty then .ok []
  else Screen.table (Path.ofString path).name ["Line", "Action", "Tag", "Variables"]
    (lenses.map lensRow)

def failureLines (path : String) (f : ParseFailure) : Except Failure (List ScreenLine) :=
  Screen.print
    ("[red]" ++ Text.Markup.escape path ++ ":" ++ toString (f.line + 1) ++ ":"
      ++ toString (f.column + 1) ++ "[/red] " ++ Text.Markup.escape f.message)

/-- Lists the operations of a file, and what could not be read of it. -/
def listLenses (fs : Files) (path : String) : Except Failure Outcome := do
  let set ← LensSet.ofDocument (← SourceDocument.ofFile fs (Path.ofString path))
  let lines ←
    if set.lenses.isEmpty && set.failures.isEmpty then
      Screen.print
        ("[yellow]No GraphQL operations found in " ++ Text.Markup.escape path ++ "[/yellow]")
    else do
      let table ← lensTable path set.lenses
      let failures ← set.failures.mapM (failureLines path)
      pure (table ++ failures.flatten)
  return ⟨0, lines⟩

end InlineQuery.CommandLine
