/-
Complexity bands and relative sizes of the rows of the size table.
-/
import ClassAtlas.Report.Caption
import ClassAtlas.Report.Column

namespace ClassAtlas.Report

open ClassAtlas.Source

/-- complexity above `warn` is medium, above `high` is high -/
structure Thresholds where
  warn : Nat := 5
  high : Nat := 10
deriving DecidableEq, Repr

inductive Band where
  | low
  | medium
  | high
deriving DecidableEq, Repr

namespace Band

def of (complexity : Nat) (t : Thresholds) : Band :=
  if t.high < complexity then .high else if t.warn < complexity then .medium else .low

def label : Band → String
  | .low => "low"
  | .medium => "medium"
  | .high => "high"

def tint : Band → Tint
  | .low => .green
  | .medium => .yellow
  | .high => .red

end Band

/-- the greatest line count of some rows; 0 of none -/
def maxLineCount (rows : List SizeRow) : Nat := (rows.map (·.lineCount)).foldl max 0

/-- the size of a row relative to the greatest, between 0 and 1 -/
def intensity (row : SizeRow) (greatest : Nat) : Float :=
  if greatest = 0 then 0.0
  else
    let share := ofCount row.lineCount / ofCount greatest
    if share < 1.0 then share else 1.0

end ClassAtlas.Report
