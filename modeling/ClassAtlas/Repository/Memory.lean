/-
A repository held in memory, whose answers can be held back.

A request for a gated path waits until its gate is opened, and an open gate stays open; the empty name gates the listing.
Once past its gate a request gives its appointed fault, if there is one, else what the repository holds.
-/
import ClassAtlas.Repository.Host
import ClassAtlas.Repository.Selection

namespace ClassAtlas.Repository

/-- what goes wrong with a request -/
inductive Trouble where
  | error (e : FetchError)
  | crash
deriving DecidableEq, Repr

def Trouble.reply {α : Type} : Trouble → Reply α
  | .error e => .answer (.error e)
  | .crash => .crash

structure Memory where
  /-- paths and contents, in the order of the listing -/
  files : List (String × String)
  listTrouble : Option Trouble := none
  troubles : List (String × Trouble) := []
  gates : List String := []
deriving Repr

namespace Memory

def isGated (m : Memory) (name : String) : Bool := m.gates.contains name

def openGate (m : Memory) (name : String) : Memory := { m with gates := m.gates.filter fun g => g != name }

/-- the host's answers with the gates as they are -/
def host (m : Memory) : Host where
  listing l :=
    if m.isGated "" then .waiting
    else
      match m.listTrouble with
      | some t => t.reply
      | none => .answer (.ok (pathsUnder (m.files.map (·.1)) l.path))
  content _ path :=
    if m.isGated path then .waiting
    else
      match m.troubles.lookup path with
      | some t => t.reply
      | none =>
        match m.files.lookup path with
        | some text => .answer (.ok text)
        | none => .answer (.error (.notFound path))

end Memory

end ClassAtlas.Repository
