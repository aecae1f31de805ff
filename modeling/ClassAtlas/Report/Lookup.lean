/-
Finding one analysed file and showing its rows.
-/
import ClassAtlas.Report.Band

namespace ClassAtlas.Report

open ClassAtlas.Source ClassAtlas.Graph ClassAtlas.Text ClassAtlas.Decimal

/-- a path as typed: trimmed, with slashes for backslashes and none in front -/
def readQuery (query : String) : List Char :=
  (swap '\\' '/' (trim query.toList)).dropWhile (· == '/')

/-- the first row whose path is the query; else the first whose path ends in a slash and the query -/
def findRow (rows : List SizeRow) (query : List Char) : Option SizeRow :=
  match rows.find? fun r => r.path.toList == query with
  | some r => some r
  | none => rows.find? fun r => ('/' :: query).isSuffixOf r.path.toList

/-- the size row a query names, with the coupling row of the same path -/
def findFile (a : Analysis) (query : String) : Option (SizeRow × Option (CouplingRow Float)) :=
  let q := readQuery query
  if q.isEmpty then none
  else (findRow a.sizes q).map fun r => (r, a.coupling.find? fun c => c.path == r.path)

/-- the rows of one file as a block of text -/
def renderFile (row : SizeRow) (coupling : Option (CouplingRow Float)) (t : Thresholds) : String :=
  "File: " ++ row.path ++ "\nClass: " ++ className row.path ++ "\nLines: " ++ toString row.lineCount ++
    "\nComplexity: " ++ toString row.complexity ++ " (" ++ (Band.of row.complexity t).label ++ ")\n" ++
    match coupling with
    | none => ""
    | some c =>
      "Abstractness: " ++ fixed 0 c.abstractness ++ " | Instability: " ++ fixed 2 c.instability ++ " | Distance: " ++
        fixed 2 c.distance ++ "\nIncoming: " ++ toString c.incoming ++ " | Outgoing: " ++ toString c.outgoing ++
        "\nZone: " ++ c.zone.label ++ "\n"

end ClassAtlas.Report
