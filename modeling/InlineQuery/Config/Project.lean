import InlineQuery.Data.Datum
import InlineQuery.Glob
import InlineQuery.Path

/-!
What a configuration file says: endpoints, and projects that share a workspace.
-/

namespace InlineQuery

/-- Where subscriptions go, and what is sent when the connection opens. -/
structure SubscriptionTarget where
  url : String
  connectionParams : List (String × Datum)
  deriving Repr, Inhabited

/-- An endpoint as it is written, with references to the environment. -/
structure EndpointEntry where
  url : String
  headers : List (String × String)
  subscription : Option SubscriptionTarget
  deriving Repr, Inhabited

structure Project where
  schemaPath : Option String
  includes : List String
  excludes : List String
  endpoints : List (String × EndpointEntry)
  deriving Repr, Inhabited

namespace Project

/-- Whether a file belongs to a project. Without patterns to include every file does. -/
def covers (p : Project) (path : String) : Bool :=
  (p.includes.isEmpty || p.includes.any fun pattern => Glob.covers pattern path) &&
    !p.excludes.any fun pattern => Glob.covers pattern path

end Project

/-- A configuration is a project of its own with other projects inside. -/
structure Configuration extends Project where
  projects : List (String × Project)
  deriving Repr, Inhabited

end InlineQuery
