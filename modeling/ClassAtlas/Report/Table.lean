/-
The size table and the coupling table.
-/
import ClassAtlas.Report.Band

namespace ClassAtlas.Report

open ClassAtlas.Source ClassAtlas.Graph ClassAtlas.Decimal

/-- one row per file, the complexity painted by its band -/
def sizeTable (colours : Bool) (rows : List SizeRow) (t : Thresholds) : String :=
  let greatest := maxLineCount rows
  let line := fun (r : SizeRow) =>
    padRight 48 r.path ++ " " ++ padLeft 7 (toString r.lineCount) ++ " " ++
      (Band.of r.complexity t).tint.paint colours (padLeft 10 (toString r.complexity)) ++ " " ++
      padLeft 5 (fixed 0 (intensity r greatest * 100.0)) ++ "%\n"
  padRight 48 "File" ++ " " ++ padLeft 7 "Lines" ++ " " ++ padLeft 10 "Complexity" ++ " " ++ padLeft 6 "Size" ++ "\n" ++
    String.join (rows.map line)

def zoneTint : Zone → Tint
  | .pain => .red
  | .uselessness => .red
  | .offSequence => .yellow
  | .mainSequence => .green

/-- one row per class, with its zone -/
def couplingTable (colours : Bool) (rows : List (CouplingRow Float)) : String :=
  let line := fun (r : CouplingRow Float) =>
    padRight 32 (className r.path) ++ " " ++ padLeft 4 (fixed 0 r.abstractness) ++ " " ++
      padLeft 5 (fixed 2 r.instability) ++ " " ++ padLeft 5 (fixed 2 r.distance) ++ " " ++
      padLeft 4 (toString r.incoming) ++ " " ++ padLeft 4 (toString r.outgoing) ++ "  " ++
      (zoneTint r.zone).paint colours r.zone.label ++ "\n"
  padRight 32 "Class" ++ " " ++ padLeft 4 "A" ++ " " ++ padLeft 5 "I" ++ " " ++ padLeft 5 "D" ++ " " ++ padLeft 4 "In" ++
    " " ++ padLeft 4 "Out" ++ "  " ++ "Zone\n" ++ String.join (rows.map line)

end ClassAtlas.Report
