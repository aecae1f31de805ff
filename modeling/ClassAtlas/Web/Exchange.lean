/-
Requests and what comes back.

How a request travels is left open: a transport is any function from requests to exchanges.
-/
import ClassAtlas.Web.Address
import ClassAtlas.Web.Status

namespace ClassAtlas.Web

/-- a request to read what an address names -/
structure Request where
  address : Address
  accept : String
  userAgent : String
  authorization : Option String
deriving DecidableEq, Repr

structure Response where
  status : Nat
  body : List UInt8
  /-- whether the body arrived to its end -/
  complete : Bool := true
deriving DecidableEq, Repr

/-- how a request went -/
inductive Exchange where
  | waiting
  | unreachable
  | answered (r : Response)
deriving DecidableEq, Repr, Inhabited

abbrev Transport := Request → Exchange

/-- nobody can be reached -/
def Transport.none : Transport := fun _ => .unreachable

/-- what a header can hold: no control characters but tab -/
def isHeaderText (s : String) : Bool := s.toList.all fun c => c == '\t' || (0x20 ≤ c.toNat && c.toNat != 0x7F)

end ClassAtlas.Web
