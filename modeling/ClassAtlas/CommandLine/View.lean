/-
Choosing what to show: one view by its name, or all of them.
-/
import ClassAtlas.Report.Caption
import ClassAtlas.Text.Blank

namespace ClassAtlas.CommandLine

open ClassAtlas.Report ClassAtlas.Text

inductive ViewChoice where
  | only (v : View)
  | all
deriving DecidableEq, Repr

namespace ViewChoice

/-- the views to show, in order -/
def views : ViewChoice → List View
  | .only v => [v]
  | .all => [.grid, .dia, .uml]

def name : ViewChoice → String
  | .only .grid => "grid"
  | .only .dia => "dia"
  | .only .uml => "uml"
  | .all => "all"

def choices : List ViewChoice := [.only .grid, .only .dia, .only .uml, .all]

/-- the choice of exactly this name -/
def ofName? (s : String) : Option ViewChoice := choices.find? fun v => v.name == s

/-- the choice of this name in any case of its letters -/
def ofNameAnyCase? (s : List Char) : Option ViewChoice := choices.find? fun v => sameIgnoringCase v.name.toList s

end ViewChoice

end ClassAtlas.CommandLine
