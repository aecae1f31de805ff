/-
Folder filters: which rows of the size table lie under a folder.
-/
import ClassAtlas.Source.Size
import ClassAtlas.Text.Blank

namespace ClassAtlas.Report

open ClassAtlas.Source ClassAtlas.Text

/-- a folder as typed: trimmed, with slashes for backslashes; blank means no filter -/
def readFolder (s : String) : Option String :=
  let t := trim s.toList
  if t.isEmpty then none else some (String.ofList (swap '\\' '/' t))

/-- the folder without slashes at its end, and one slash -/
def folderLead (folder : String) : List Char := dropEndWhile (· == '/') folder.toList ++ ['/']

/-- the rows whose path lies under the folder; all of them without a filter -/
def rowsUnder (rows : List SizeRow) : Option String → List SizeRow
  | none => rows
  | some folder => rows.filter fun r => (folderLead folder).isPrefixOf r.path.toList

end ClassAtlas.Report
