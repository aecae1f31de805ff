/-
Why a run ends without a result.
-/
import ClassAtlas.Graph.Basic
import ClassAtlas.Repository.Host

namespace ClassAtlas.Run

open ClassAtlas.Repository

inductive RunError where
  | invalidUrl (reason : String)
  | fetch (error : FetchError)
  | internal (reason : String)
  /-- the run broke off before it could say anything -/
  | crashed
  | cancelled
  | superseded
deriving DecidableEq, Repr

namespace RunError

def message : RunError → String
  | .invalidUrl reason => s!"Invalid URL: {reason}"
  | .fetch e => e.message
  | .internal reason => s!"Internal analyzer error: {reason}"
  | .crashed => "Internal analyzer error: analysis task failed"
  | .cancelled => "Analysis cancelled."
  | .superseded => "Analysis superseded by a newer run."

/-- whether the run stopped because it was asked to -/
def isInterruption : RunError → Bool
  | .cancelled => true
  | .superseded => true
  | _ => false

def ofAddress (f : AddressFault) : RunError := .invalidUrl f.message

def ofGraph (f : Graph.Fault) : RunError := .internal f.message

end RunError

end ClassAtlas.Run
