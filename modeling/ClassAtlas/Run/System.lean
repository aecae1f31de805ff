/-
Runs side by side: one current run at most, and one published analysis.

Starting a run cancels the run before it and makes the new one current; its generation is the number of runs started so
far. `cancel` cancels the current run, `clear` also wipes what is published. The steps of the runs interleave with these
actions in any order; `System.perform` is one of them, with the events it causes, and `System.performAll` a whole
history. `System.settle` lets every run go on until it ends or waits, in the order they were started.
-/
import ClassAtlas.Run.Phase

namespace ClassAtlas.Run

open ClassAtlas.Repository

/-- a started run, with its cancellation token -/
structure Started where
  generation : Nat
  url : String
  cancelled : Bool
  phase : Phase

/-- what happens, as an observer sees it; a message comes from a run, named by its generation, or from the session -/
inductive Event where
  | started (generation : Nat)
  | status (origin : Option Nat) (message : String)
  | published (generation : Nat) (a : Analysis)
  | cleared
  | finished (generation : Nat) (o : Outcome)

structure System where
  /-- generation of the most recent run, 0 before any -/
  generation : Nat := 0
  /-- all runs, in the order they were started -/
  runs : List Started := []
  /-- what is published -/
  store : Option Analysis := none

inductive Action where
  | start (url : String)
  | cancel
  | clear
  /-- a step of one run, with the host as it answers then -/
  | step (generation : Nat) (host : Host)

namespace System

/-- the system as it is before any run -/
def fresh : System := {}

/-- cancels the run of the current generation -/
def cancelCurrent (s : System) : List Started :=
  s.runs.map fun r => if r.generation == s.generation then { r with cancelled := true } else r

def start (s : System) (url : String) : System :=
  { s with generation := s.generation + 1, runs := s.cancelCurrent ++ [⟨s.generation + 1, url, false, .opening⟩] }

def cancel (s : System) : System := { s with runs := s.cancelCurrent }

def clear (s : System) : System := { s with runs := s.cancelCurrent, store := none }

/-- what a run of the system can see -/
def sight (s : System) (host : Host) (setup : Setup) (r : Started) : Sight :=
  ⟨host, setup, r.url, r.generation == s.generation, r.cancelled⟩

/-- an output of a run as an event -/
def eventOf (generation : Nat) : Output → Event
  | .say message => .status (some generation) message
  | .publish a => .published generation a

/-- the store after an event -/
def storeAfter (store : Option Analysis) : Event → Option Analysis
  | .published _ a => some a
  | .cleared => none
  | _ => store

/-- the events of a run that moved to a phase, the last one if it ended there -/
def eventsOf (r : Started) (phase : Phase) (out : List Output) : List Event :=
  out.map (eventOf r.generation) ++
    match r.phase.outcome?, phase.outcome? with
    | none, some o => [.finished r.generation o]
    | _, _ => []

/-- moves one run by a rule for its phase -/
def move (s : System) (generation : Nat) (rule : Started → Phase × List Output) : System × List Event :=
  match s.runs.find? fun r => r.generation == generation with
  | none => (s, [])
  | some r =>
    let (phase, out) := rule r
    let events := eventsOf r phase out
    ({ s with
        runs := s.runs.map fun q => if q.generation == generation then { q with phase := phase } else q
        store := events.foldl storeAfter s.store },
      events)

/-- one action and the events it causes -/
def perform (setup : Setup) (s : System) : Action → System × List Event
  | .start url => (s.start url, [.started (s.generation + 1)])
  | .cancel => (s.cancel, [])
  | .clear => (s.clear, [.cleared])
  | .step generation host => s.move generation fun r => r.phase.step (s.sight host setup r)

/-- a history of actions and all its events -/
def performAll (setup : Setup) (s : System) : List Action → System × List Event
  | [] => (s, [])
  | a :: as =>
    let (t, events) := s.perform setup a
    let (u, more) := t.performAll setup as
    (u, events ++ more)

/-- lets one run go on until it ends or waits -/
def driveRun (host : Host) (setup : Setup) (s : System) (generation : Nat) : System × List Event :=
  s.move generation fun r => r.phase.drive (s.sight host setup r)

/-- lets every run go on until it ends or waits, the oldest first -/
def settle (host : Host) (setup : Setup) (s : System) : System × List Event :=
  (s.runs.map (·.generation)).foldl
    (fun (t, events) g =>
      let (u, more) := driveRun host setup t g
      (u, events ++ more))
    (s, [])

/-- generations of the runs that have not ended -/
def running (s : System) : List Nat :=
  (s.runs.filter fun r => r.phase.outcome?.isNone).map (·.generation)

end System

end ClassAtlas.Run
