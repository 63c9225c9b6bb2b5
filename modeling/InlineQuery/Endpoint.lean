import InlineQuery.Data.Datum
import InlineQuery.Failure
import InlineQuery.Url

namespace InlineQuery

def Url.Fault.failure (fault : Url.Fault) : Failure := .value fault.message

/-- Where operations are sent. It says which entry of which configuration file it comes from. -/
structure Endpoint where
  url : String
  subscriptionUrl : Option String
  headers : List (String × String)
  source : String
  name : String
  connectionParams : List (String × Datum)
  deriving Repr, Inhabited

namespace Endpoint

/-- The name of the endpoint that is used unless another one is asked for. -/
def defaultName : String := "default"

/-- Where subscriptions are sent: the address of their own, or one made from the other address. -/
def socketUrl (e : Endpoint) : Except Failure String :=
  match e.subscriptionUrl with
  | some url => if url = "" then derived else .ok url
  | none => derived
where
  derived := (Url.socketUrl e.url).mapError (·.failure)

end Endpoint
end InlineQuery
