import InlineQuery.Path

namespace InlineQuery

/-- How a document is searched for GraphQL. -/
inductive Language where
  | javascript
  | graphql
  | unknown
  deriving DecidableEq, Repr, Inhabited

namespace Language

def name : Language → String
  | javascript => "javascript"
  | graphql => "graphql"
  | unknown => "unknown"

def scriptSuffixes : List String :=
  [".js", ".jsx", ".mjs", ".cjs", ".ts", ".tsx", ".mts", ".cts", ".vue", ".svelte"]

def graphqlSuffixes : List String := [".graphql", ".gql", ".graphqls", ".prisma"]

/-- A suffix is compared without regard to letter case. -/
def ofSuffix (suffix : String) : Language :=
  let suffix := suffix.toLower
  if scriptSuffixes.contains suffix then javascript
  else if graphqlSuffixes.contains suffix then graphql
  else unknown

def ofPath (path : Path) : Language := ofSuffix path.suffix

/-- The language behind an editor's identifier. -/
def ofId (id : String) : Language :=
  if ["javascript", "javascriptreact", "typescript", "typescriptreact"].contains id then javascript
  else if id = "graphql" then graphql
  else unknown

end Language
end InlineQuery
