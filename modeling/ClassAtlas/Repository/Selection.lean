/-
Which paths of a listing are analysed: those under a folder, those with an extension, each once.
-/
import ClassAtlas.Collect.KeepFirst
import ClassAtlas.Text.Blank

namespace ClassAtlas.Repository

open ClassAtlas.Text ClassAtlas.Collect

/-- the paths beneath a folder, slashes at its ends aside; all paths for the root -/
def pathsUnder (paths : List String) (folder : String) : List String :=
  let f := dropEndWhile (· == '/') (folder.toList.dropWhile (· == '/'))
  if f.isEmpty then paths else paths.filter fun p => (f ++ ['/']).isPrefixOf p.toList

/-- the distinct paths with the extension, in the order of the listing -/
def withExtension (paths : List String) (extension : String) : List String :=
  keepFirst id (paths.filter fun p => extension.toList.isSuffixOf p.toList)

end ClassAtlas.Repository
