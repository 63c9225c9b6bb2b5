import InlineQuery.Operation.Index
import InlineQuery.Text.Space

/-!
Fragments that an operation uses but its literal does not define. In a GraphQL file each definition
is a literal of its own, so they are looked up in the other literals and sent along.
-/

namespace InlineQuery

/-- A fragment that some literal defines: what it spreads and the text of its definition. -/
structure Fragment where
  name : String
  spreads : List String
  text : List Char
  deriving DecidableEq, Repr, Inhabited

namespace IndexEntry

/-- The fragments that a literal defines, in order. -/
def fragments (entry : IndexEntry) : List Fragment :=
  let text := entry.literal.graphqlText
  entry.document.definitions.filterMap fun located =>
    match located.definition with
    | .fragment definition =>
      some ⟨definition.name, located.definition.spreads,
        (Span.mk located.start located.stop).slice text⟩
    | _ => none

end IndexEntry

namespace Fragment

/-- The first definition of each name. -/
def firsts (fragments : List Fragment) : List Fragment :=
  fragments.foldl (fun found f => if found.any (·.name == f.name) then found else found ++ [f]) []

/-- The fragments of other names. -/
def without (name : String) (fragments : List Fragment) : List Fragment :=
  fragments.filter fun f => f.name != name

theorem length_without_lt {name : String} {fragments : List Fragment} {fragment : Fragment}
    (found : fragments.find? (·.name == name) = some fragment) :
    (without name fragments).length < fragments.length := by
  refine List.length_filter_lt_length_iff_exists.2 ⟨fragment, List.mem_of_find?_eq_some found, ?_⟩
  simpa using List.find?_some found

/-- The fragments reached from pending names, in the order of first encounter. Names that are not
available are passed over. Every fragment that is added leaves the available ones, which bounds the
search. -/
def reach (available : List Fragment) : List String → List Fragment
  | [] => []
  | name :: pending =>
    match _found : available.find? (·.name == name) with
    | none => reach available pending
    | some fragment => fragment :: reach (without name available) (pending ++ fragment.spreads)
  termination_by pending => (available.length, pending.length)
  decreasing_by
    · exact Prod.Lex.right _ (by simp)
    · exact Prod.Lex.left _ _ (length_without_lt _found)

end Fragment

namespace OperationIndex

/-- The first definition of each fragment of an index. -/
def fragments (index : OperationIndex) : List Fragment :=
  Fragment.firsts (index.entries.flatMap (·.fragments))

/-- The fragments that the text of an entry's operations lacks. -/
def lacking (index : OperationIndex) (entry : IndexEntry) : List Fragment :=
  let own := entry.document.fragmentNames
  Fragment.reach (index.fragments.filter fun f => !own.contains f.name) entry.document.spreads

/-- Texts with an empty line between them. -/
def joinTexts (texts : List (List Char)) : List Char := ['\n', '\n'].intercalate texts

def linkEntry (index : OperationIndex) (entry : IndexEntry) : IndexEntry :=
  match entry.operations, index.lacking entry with
  | [], _ | _, [] => entry
  | first :: _, extra =>
    let source := joinTexts (Text.trim first.source :: extra.map (·.text))
    { entry with operations := entry.operations.map fun op => { op with source } }

/-- Appends to the operations of each entry the fragments that they use from other literals. -/
def link (index : OperationIndex) : OperationIndex :=
  { index with entries := index.entries.map index.linkEntry }

end OperationIndex
end InlineQuery
