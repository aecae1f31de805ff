/-
Locations on the repository host, and the web addresses that name them.

An address is `github.com/owner/repo`, alone or followed by `tree` or `blob`, a ref and a path. The scheme is optional,
the host is read in any case, empty parts between slashes do not count, and anything from `?` or `#` on is ignored. A ref
with a slash in it cannot be told from the path: the first part is the ref.
-/
import ClassAtlas.Text.Blank

namespace ClassAtlas.Repository

open ClassAtlas.Text

/-- a folder or file of a repository -/
structure Location where
  owner : String
  repo : String
  ref : String
  /-- path inside the repository, empty for its root -/
  path : String
  /-- whether the address points at a single file -/
  isFile : Bool
deriving DecidableEq, Repr

/-- why an address is refused; where a cause quotes the address, it is as typed -/
inductive AddressFault where
  | blank
  | innerBlank
  | elsewhere
  | wrongHost (address : String)
  | missingOwner (address : String)
  | missingRepo (address : String)
  | wrongKind (address : String)
  | missingRef (address : String)
  | missingPath (address : String)
  | notFolder
deriving DecidableEq, Repr

def AddressFault.message : AddressFault → String
  | .blank => "URL is blank."
  | .innerBlank => "URL must not contain whitespace."
  | .elsewhere => "URL must point to github.com."
  | .wrongHost a => s!"host must be github.com ({a})"
  | .missingOwner a => s!"missing repository owner ({a})"
  | .missingRepo a => s!"missing repository name ({a})"
  | .wrongKind a => s!"expected /tree/ or /blob/ after the repository ({a})"
  | .missingRef a => s!"missing ref ({a})"
  | .missingPath a => s!"missing file path ({a})"
  | .notFolder => "URL must point to a folder."

/-- the ref of an address that names none -/
def defaultRef : String := "HEAD"

/-- drops a leading text, in any case of its letters -/
def dropLead? (lead s : List Char) : Option (List Char) :=
  if sameIgnoringCase (s.take lead.length) lead then some (s.drop lead.length) else none

def dropScheme (s : List Char) : List Char :=
  match dropLead? "https://".toList s with
  | some r => r
  | none => (dropLead? "http://".toList s).getD s

/-- drops every `.git` at the end, reading the text backwards -/
def dropGitBackwards : List Char → List Char
  | 't' :: 'i' :: 'g' :: '.' :: r => dropGitBackwards r
  | s => s

def dropGit (s : List Char) : List Char := (dropGitBackwards s.reverse).reverse

def isHost (s : List Char) : Bool :=
  sameIgnoringCase s "github.com".toList || sameIgnoringCase s "www.github.com".toList

/-- the parts of an address between slashes, scheme and query left out -/
def addressParts (s : List Char) : List (List Char) :=
  segments (· == '/') ((dropScheme s).takeWhile fun c => !(c == '?' || c == '#'))

/-- the parts after the repository: kind, ref and path -/
def parseRest (address : String) (owner repo : String) : List (List Char) → Except AddressFault Location
  | [] => .ok ⟨owner, repo, defaultRef, "", false⟩
  | kind :: rest =>
    if kind == "tree".toList || kind == "blob".toList then
      match rest with
      | [] => .error (.missingRef address)
      | ref :: path =>
        let isFile := kind == "blob".toList
        if isFile && path.isEmpty then .error (.missingPath address)
        else .ok ⟨owner, repo, String.ofList ref, String.ofList (['/'].intercalate path), isFile⟩
    else .error (.wrongKind address)

/-- the location an address names -/
def Location.parse (address : String) : Except AddressFault Location :=
  let s := trim address.toList
  if s.isEmpty then .error .blank
  else
    match addressParts s with
    | [] => .error (.wrongHost address)
    | host :: parts =>
      if isHost host then
        match parts with
        | [] => .error (.missingOwner address)
        | [_] => .error (.missingRepo address)
        | owner :: repo :: rest =>
          if (dropGit repo).isEmpty then .error (.missingRepo address)
          else parseRest address (String.ofList owner) (String.ofList (dropGit repo)) rest
      else .error (.wrongHost address)

/-- whether a text stands somewhere in another -/
def occursWithin (needle : List Char) : List Char → Bool
  | [] => needle.isEmpty
  | c :: s => needle.isPrefixOf (c :: s) || occursWithin needle s

/-- what every address must satisfy before it is parsed -/
def checkAddress (address : String) : Except AddressFault Unit :=
  let s := address.toList
  if (trim s).isEmpty then .error .blank
  else if s.any isBlank then .error .innerBlank
  else if occursWithin "github.com".toList (s.map Char.toLower) then .ok ()
  else .error .elsewhere

/-- the folder an address names -/
def folderAt (address : String) : Except AddressFault Location := do
  checkAddress address
  let l ← Location.parse address
  if l.isFile then throw .notFolder
  return l

end ClassAtlas.Repository
