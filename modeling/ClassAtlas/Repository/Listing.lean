/-
The listing of a repository tree, as the host sends it.
-/
import ClassAtlas.Json.Reader

namespace ClassAtlas.Repository

open ClassAtlas.Json

/-- an entry of a tree -/
structure TreeEntry where
  path : String
  kind : String
deriving DecidableEq, Repr

def TreeEntry.read (v : Raw) : Option TreeEntry := do
  let fields ← v.record? ["path", "type"]
  return ⟨← (← fields.lookup "path").string?, ← (← fields.lookup "type").string?⟩

/-- the entries of a listing; the mark of a listing cut short must be a truth value if it is there -/
def readTree (v : Raw) : Option (List TreeEntry) := do
  let fields ← v.record? ["tree", "truncated"]
  let entries ← (← fields.lookup "tree").array?
  let entries ← entries.mapM TreeEntry.read
  match fields.lookup "truncated" with
  | none => return entries
  | some t =>
    let _ ← t.bool?
    return entries

/-- the paths of the files in a listing -/
def readListing (bytes : List UInt8) : Option (List String) := do
  let entries ← readTree (← Json.parse bytes)
  return (entries.filter fun e => e.kind == "blob").map (·.path)

end ClassAtlas.Repository
