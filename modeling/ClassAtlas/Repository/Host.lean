/-
What an analysis needs of a repository host: a listing of files and the text of one file.

A request is answered at once, or is still waiting, or brings the run that made it down. A failed request says why.
-/
import ClassAtlas.Repository.Location
import ClassAtlas.Web.Status

namespace ClassAtlas.Repository

open ClassAtlas.Web

/-- why a request could not be sent; the address is that of the request -/
inductive SendFault where
  /-- a header cannot be written -/
  | header
  /-- the address cannot be requested -/
  | address (url : String)
  /-- nobody answers at the address -/
  | connection (url : String)
deriving DecidableEq, Repr

def SendFault.message : SendFault → String
  | .header => "builder error"
  | .address url => s!"builder error for url ({url})"
  | .connection url => s!"error sending request for url ({url})"

/-- why nothing was fetched -/
inductive FetchError where
  | requestFailed (url : String) (fault : SendFault)
  | refused (status : Nat) (url body : String)
  | unreadable (url : String)
  | notFound (path : String)
  | clientSetup
  | invalidEndpoint (endpoint : String)
deriving DecidableEq, Repr

def FetchError.message : FetchError → String
  | .requestFailed url fault => s!"Request to {url} failed: " ++ fault.message
  | .refused status url body => "GitHub responded with error " ++ statusText status ++ s!" for {url}: {body}"
  | .unreadable url => s!"Failed to parse GitHub response from {url}: error decoding response body"
  | .notFound path => s!"Not found: {path}"
  | .clientSetup => "Failed to build HTTP client: builder error"
  | .invalidEndpoint endpoint => s!"Invalid API endpoint '{endpoint}'"

/-- the answer to a request, if there is one yet -/
inductive Reply (α : Type) where
  | waiting
  | answer (result : Except FetchError α)
  | crash

/-- a repository host, as it answers at one moment -/
structure Host where
  listing : Location → Reply (List String)
  content : Location → String → Reply String

end ClassAtlas.Repository
