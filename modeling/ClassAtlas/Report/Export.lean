/-
An analysis as one JSON document.
-/
import ClassAtlas.Analysis
import ClassAtlas.Json.Printer
import ClassAtlas.Report.Folder

namespace ClassAtlas.Report

open ClassAtlas.Graph ClassAtlas.Json ClassAtlas.Source

def sizeRecord (r : SizeRow) : Document :=
  .record [("complexity", .count r.complexity), ("line_count", .count r.lineCount), ("path", .text r.path)]

def couplingRecord (r : CouplingRow Float) : Document :=
  .record [("abstractness", .real r.abstractness), ("distance", .real r.distance), ("incoming", .count r.incoming),
    ("instability", .real r.instability), ("outgoing", .count r.outgoing), ("path", .text r.path)]

/-- all three datasets, the sizes only of files beneath a folder if one is given; names in alphabetical order -/
def document (a : Analysis) (folder : Option String) : Document :=
  .record [("dia", .list (a.coupling.map couplingRecord)), ("grid", .list ((rowsUnder a.sizes folder).map sizeRecord)),
    ("uml", .text a.diagram.text)]

end ClassAtlas.Report
