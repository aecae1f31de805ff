/-
What a waiting run waits for, and the request that asks for it.
-/
import ClassAtlas.Repository.Client
import ClassAtlas.Run.Phase

namespace ClassAtlas.Run

open ClassAtlas.Repository ClassAtlas.Web

/-- a question to the host -/
inductive Want where
  | listing (l : Location)
  | content (l : Location) (path : String)
deriving DecidableEq, Repr

/-- the question a phase asks next; none if it asks nothing -/
def Phase.want? : Phase → Option Want
  | .entering (.list l) => some (.listing l)
  | .fetching l (path :: _) _ => some (.content l path)
  | _ => none

/-- the request that asks a question -/
def Want.request? (c : Client) : Want → Option Request
  | .listing l => (c.listingAddress l.owner l.repo l.ref).toOption.map (c.request · Client.listingType)
  | .content l path => (c.contentAddress l.owner l.repo path l.ref).toOption.map (c.request · Client.contentType)

end ClassAtlas.Run
