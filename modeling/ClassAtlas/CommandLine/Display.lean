/-
What the program prints of an analysis.
-/
import ClassAtlas.CommandLine.Arguments
import ClassAtlas.Report.Export
import ClassAtlas.Report.Table
import ClassAtlas.Report.Tree

namespace ClassAtlas.CommandLine

open ClassAtlas.Report

/-- how things are shown: in colours or without, and with which grades of complexity -/
structure Style where
  colours : Bool := false
  thresholds : Thresholds := ⟨5, 10⟩
deriving DecidableEq, Repr

def viewTitle : View → String
  | .grid => "Grid"
  | .dia => "DIA"
  | .uml => "UML"

/-- the rows or lines of a view; a folder restricts the grid only -/
def viewBody (style : Style) (a : Analysis) (folder : Option String) : View → String
  | .grid => sizeTable style.colours (rowsUnder a.sizes folder) style.thresholds
  | .dia => couplingTable style.colours a.coupling
  | .uml => a.diagram.text ++ "\n"

/-- a view with its title and caption, and an empty line after it -/
def viewText (style : Style) (a : Analysis) (folder : Option String) (v : View) : String :=
  Tint.bold.paint style.colours (viewTitle v) ++ "\n" ++ viewBody style a folder v ++
    Tint.cyan.paint style.colours (caption a v) ++ "\n\n"

def viewsText (style : Style) (a : Analysis) (folder : Option String) (choice : ViewChoice) : String :=
  String.join (choice.views.map (viewText style a folder))

/-- what `analyze` prints: one document, or the tree if asked for and then the views -/
def analysisText (style : Style) (args : AnalyzeArguments) (a : Analysis) : String :=
  let folder := args.folder.bind readFolder
  if args.json then (document a folder).pretty ++ "\n"
  else
    (if args.tree then (FileTree.ofRows (rowsUnder a.sizes folder)).render else "") ++ viewsText style a folder args.view

end ClassAtlas.CommandLine
