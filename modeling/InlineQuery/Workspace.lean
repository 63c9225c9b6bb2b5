import InlineQuery.Endpoint
import InlineQuery.Files
import InlineQuery.Lens
import InlineQuery.Text.Utf8

/-!
Workspace folders and open documents.
-/

namespace InlineQuery

namespace SourceDocument

/-- The path of a document that is a file. -/
def path? (document : SourceDocument) : Except Failure (Option Path) :=
  (Path.ofUri? document.uri).mapError (·.failure)

/-- Reads a document from a file. Bytes that are not text are replaced. -/
def ofFile (fs : Files) (path : Path) : Except Failure SourceDocument := do
  let path := fs.resolve path
  let entry ← fs.read path
  return {
    uri := path.fileUri
    text := Text.unifyLineEnds (Text.replaceUtf8 entry.bytes)
    language := .ofPath path
    version := 0 }

/-- The language that the path of an address suggests. -/
def languageOfUri (uri : String) : Except Failure Language := do
  let url ← (Url.parse uri.toList).mapError (·.failure)
  return .ofPath (Path.ofString (String.ofList url.plainPath))

end SourceDocument

structure Workspace where
  folders : List Path
  documents : List (String × SourceDocument)
  deriving DecidableEq, Repr, Inhabited

namespace Workspace

def ofFolders (fs : Files) (folders : List Path) : Workspace := ⟨folders.map fs.resolve, []⟩

def get? (w : Workspace) (uri : String) : Option SourceDocument := Assoc.get? w.documents uri

def contains (w : Workspace) (uri : String) : Bool := Assoc.contains w.documents uri

def get (w : Workspace) (uri : String) : Except Failure SourceDocument :=
  match w.get? uri with
  | some document => .ok document
  | none => .error { kind := .key, message := "Document not open: " ++ uri }

def put (w : Workspace) (document : SourceDocument) : Workspace :=
  { w with documents := Assoc.put w.documents document.uri document }

/-- Opens a file or reads it again, which gives it the next version. -/
def openFile (w : Workspace) (fs : Files) (path : Path) :
    Except Failure (SourceDocument × Workspace) := do
  let document ← SourceDocument.ofFile fs path
  let document := match w.get? document.uri with
    | some previous => { document with version := previous.version + 1 }
    | none => document
  return (document, w.put document)

/-- Opens a document whose text the editor gives. Without an identifier of its language the address
decides. -/
def openText (w : Workspace) (uri : String) (text : List Char) (languageId : Option String) :
    Except Failure (SourceDocument × Workspace) := do
  let language ← match languageId with
    | some id => pure (Language.ofId id)
    | none => SourceDocument.languageOfUri uri
  let document : SourceDocument := ⟨uri, text, language, 0⟩
  return (document, w.put document)

def change (w : Workspace) (uri : String) (text : List Char) :
    Except Failure (SourceDocument × Workspace) := do
  let document ← w.get uri
  let document := { document with text, version := document.version + 1 }
  return (document, w.put document)

def close (w : Workspace) (uri : String) : Workspace :=
  { w with documents := Assoc.erase w.documents uri }

end Workspace
end InlineQuery
