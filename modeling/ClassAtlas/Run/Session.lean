/-
What a user does with the runs: analyse an address, analyse the last one again, clear the result.
-/
import ClassAtlas.Run.System
import ClassAtlas.Text.Blank

namespace ClassAtlas.Run

open ClassAtlas.Text

/-- the runs, and the last address analysed -/
structure Session where
  system : System := {}
  lastUrl : Option String := none

namespace Message

def provideUrl : String := "Please provide a URL."

def nothingToReload : String := "Nothing to reload."

def cleared : String := "Cleared."

def fetching : String := "Fetching..."

end Message

namespace Session

/-- a session before anything is done -/
def fresh : Session := {}

/-- starts a run without remembering its address -/
def start (s : Session) (url : String) : Session × List Event :=
  ({ s with system := s.system.start url }, [.started (s.system.generation + 1)])

def cancel (s : Session) : Session × List Event := ({ s with system := s.system.cancel }, [])

/-- starts a run for an address; a blank one only gives a message -/
def analyze (s : Session) (text : String) : Session × List Event :=
  let url := String.ofList (trim text.toList)
  if url.isEmpty then (s, [.status none Message.provideUrl])
  else
    let (t, events) := Session.start { s with lastUrl := some url } url
    (t, .status none Message.fetching :: events)

/-- analyses the last address again -/
def reload (s : Session) : Session × List Event :=
  match s.lastUrl with
  | some url => s.analyze url
  | none => (s, [.status none Message.nothingToReload])

/-- wipes the result and keeps the last address -/
def clear (s : Session) : Session × List Event :=
  ({ s with system := s.system.clear }, [.cleared, .status none Message.cleared])

/-- lets every run go on until it ends or waits -/
def settle (host : Repository.Host) (setup : Setup) (s : Session) : Session × List Event :=
  let (t, events) := s.system.settle host setup
  ({ s with system := t }, events)

end Session

end ClassAtlas.Run
