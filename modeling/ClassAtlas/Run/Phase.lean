/-
One analysis run, step by step.

A run announces itself, reads its address, asks for the listing, downloads the files, measures them, relates their
classes, draws the diagram and publishes. Between these stages it stops at checkpoints: it looks at its cancellation token
and then at whether it is still the current run. Every step is atomic: it looks at the token, at the current generation,
or at the host's answer, and says at most one message.

`Phase.step` is one step; it leaves the phase as it is exactly where the run waits for an answer or has ended.
`Phase.drive` goes on until one of these happens.
-/
import ClassAtlas.Analysis
import ClassAtlas.Report.Caption
import ClassAtlas.Repository.Selection
import ClassAtlas.Run.Error

namespace ClassAtlas.Run

open ClassAtlas.Source ClassAtlas.Graph ClassAtlas.Repository

/-- how a run ended -/
abbrev Outcome := Except RunError Analysis

/-- what a run does once it has passed a checkpoint -/
inductive Stage where
  | list (l : Location)
  | download (l : Location) (paths : List String)
  | measure (files : List SourceFile)
  | relate (files : List SourceFile) (sizes : List SizeRow)
  | draw (sizes : List SizeRow) (g : ClassGraph)

/-- where a run stands -/
inductive Phase where
  /-- about to announce itself -/
  | opening
  /-- about to read its address -/
  | locating
  /-- at a checkpoint, about to look at its token -/
  | checking (next : Stage)
  /-- at a checkpoint, about to look at the current generation -/
  | confirming (next : Stage)
  /-- past a checkpoint -/
  | entering (next : Stage)
  /-- with paths still to fetch, and the files fetched so far -/
  | fetching (l : Location) (todo : List String) (files : List SourceFile)
  | publishing (a : Analysis)
  /-- stopped by an error, about to look at the current generation -/
  | settling (e : RunError)
  /-- about to report its outcome -/
  | reporting (o : Outcome)
  | ended (o : Outcome)

/-- what a step shows to the outside -/
inductive Output where
  | say (message : String)
  | publish (a : Analysis)

namespace Message

def fetchingList : String := "Fetching file list..."

def downloading : String := "Downloading sources..."

def calculating : String := "Calculating DIA metrics..."

def drawing : String := "Building UML..."

end Message

/-- what all runs share: the extension they look for, and the engine behind the patterns, which may refuse those for a
class name and then says why -/
structure Setup where
  extension : String
  refusal : String → Option String := fun _ => none

/-- an extension alone stands for an engine that refuses nothing -/
instance : Coe String Setup := ⟨fun extension => { extension }⟩

/-- what a run can see: the host, what runs share, its address, whether it is current and its token -/
structure Sight where
  host : Host
  setup : Setup
  url : String
  isCurrent : Bool
  cancelled : Bool

namespace Phase

/-- the first step past a checkpoint -/
def enter (v : Sight) : Stage → Phase × List Output
  | .list l =>
    if v.cancelled then (.settling .cancelled, [])
    else
      match v.host.listing l with
      | .waiting => (.entering (.list l), [])
      | .crash => (.ended (.error .crashed), [])
      | .answer (.error e) => (.settling (.fetch e), [])
      | .answer (.ok paths) => (.checking (.download l paths), [])
  | .download l paths => (.fetching l (withExtension paths v.setup.extension) [], [.say Message.downloading])
  | .measure files => (.checking (.relate files (files.map (·.size))), [])
  | .relate files sizes =>
    match tryReadClasses v.setup.refusal files with
    | .error reason => (.settling (.internal reason), [.say Message.calculating])
    | .ok classes =>
      match build classes with
      | .error f => (.settling (.ofGraph f), [.say Message.calculating])
      | .ok g => (.checking (.draw sizes g), [.say Message.calculating])
  | .draw sizes g => (.publishing ⟨sizes, g.coupling, Diagram.ofGraph g⟩, [.say Message.drawing])

/-- the fetch of the next path, or the checkpoint after the last -/
def fetch (v : Sight) (l : Location) (files : List SourceFile) : List String → Phase × List Output
  | [] => (.checking (.measure files), [])
  | p :: todo =>
    if v.cancelled then (.settling .cancelled, [])
    else
      match v.host.content l p with
      | .waiting => (.fetching l (p :: todo) files, [])
      | .crash => (.ended (.error .crashed), [])
      | .answer (.error e) => (.settling (.fetch e), [])
      | .answer (.ok text) => (.fetching l todo (files ++ (SourceFile.of? p text).toList), [])

/-- the outcome of a run that an error stopped: only a current run fails with the error itself -/
def settle (isCurrent : Bool) (e : RunError) : RunError :=
  if isCurrent then if e.isInterruption then .cancelled else e else .superseded

/-- one step of a run -/
def step (v : Sight) : Phase → Phase × List Output
  | .opening => (.locating, [.say Message.fetchingList])
  | .locating =>
    match folderAt v.url with
    | .error f => (.settling (.ofAddress f), [])
    | .ok l => (.checking (.list l), [])
  | .checking next => if v.cancelled then (.settling .cancelled, []) else (.confirming next, [])
  | .confirming next => if v.isCurrent then (.entering next, []) else (.settling .superseded, [])
  | .entering next => enter v next
  | .fetching l todo files => fetch v l files todo
  | .publishing a =>
    if !v.isCurrent then (.settling .superseded, [])
    else if v.cancelled then (.settling .cancelled, [])
    else (.reporting (.ok a), [.publish a])
  | .settling e =>
    let e := settle v.isCurrent e
    if e.isInterruption then (.ended (.error e), []) else (.reporting (.error e), [])
  | .reporting (.ok a) => (.ended (.ok a), [.say (Report.summary a v.setup.extension)])
  | .reporting (.error e) => (.ended (.error e), [.say ("Error: " ++ e.message)])
  | .ended o => (.ended o, [])

end Phase

def Stage.rank : Stage → Nat
  | .list _ => 24
  | .download _ _ => 20
  | .measure _ => 12
  | .relate _ _ => 8
  | .draw _ _ => 4

namespace Phase

/-- how far a phase is from the end -/
def rank : Phase → Nat
  | .opening => 30
  | .locating => 29
  | .checking s => s.rank + 2
  | .confirming s => s.rank + 1
  | .entering s => s.rank
  | .fetching _ _ _ => 16
  | .publishing _ => 3
  | .settling _ => 2
  | .reporting _ => 1
  | .ended _ => 0

/-- paths still to fetch -/
def pending : Phase → Nat
  | .fetching _ todo _ => todo.length
  | _ => 0

/-- nearer to the end -/
def Nearer (q p : Phase) : Prop := q.rank < p.rank ∨ (q.rank = p.rank ∧ q.pending < p.pending)

instance (q p : Phase) : Decidable (Nearer q p) := inferInstanceAs (Decidable (_ ∨ _))

/-- steps until the run ends or waits, with all that they show -/
def drive (v : Sight) (p : Phase) : Phase × List Output :=
  if _h : Nearer (p.step v).1 p then
    let r := drive v (p.step v).1
    (r.1, (p.step v).2 ++ r.2)
  else p.step v
termination_by (p.rank, p.pending)
decreasing_by
  rcases _h with h | ⟨h1, h2⟩
  · exact Prod.Lex.left _ _ h
  · exact h1 ▸ Prod.Lex.right _ h2

def outcome? : Phase → Option Outcome
  | .ended o => some o
  | _ => none

end Phase

end ClassAtlas.Run
