import InlineQuery.Literal.Definitions
import InlineQuery.Literal.Language
import InlineQuery.Literal.Template

namespace InlineQuery

/-- Every embedded GraphQL text of a document, and every candidate that was left out, in source
order. -/
def scan (text : List Char) (language : Language) : List Extraction :=
  let lines := LineIndex.ofText text
  match language with
  | .javascript => (Template.all text).filterMap (Template.extraction? text lines)
  | .graphql => (Definitions.pieces text).map (·.extraction text lines)
  | .unknown => []

/-- The literals that scanning finds. -/
def literals (text : List Char) (language : Language) : List Literal :=
  (scan text language).filterMap Extraction.literal?

end InlineQuery
