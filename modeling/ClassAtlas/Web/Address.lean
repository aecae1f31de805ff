/-
Addresses on the web: scheme, authority, path, query and fragment.

Reading an address drops surrounding blanks and all tabs and line breaks, resolves dot segments and encodes what a part
cannot hold. Only addresses whose path consists of segments are read.
-/
import ClassAtlas.Text.Blank
import ClassAtlas.Web.HostName

namespace ClassAtlas.Web

open ClassAtlas.Text

/-- schemes differ in their default port and in whether a backslash is a slash -/
inductive SchemeKind where
  | web (port : Nat)
  | file
  | other
deriving DecidableEq, Repr

def schemeKind (scheme : String) : SchemeKind :=
  match scheme with
  | "http" => .web 80
  | "https" => .web 443
  | "ws" => .web 80
  | "wss" => .web 443
  | "ftp" => .web 21
  | "file" => .file
  | _ => .other

def SchemeKind.isSpecial (k : SchemeKind) : Bool := k != .other

structure Authority where
  username : String := ""
  password : Option String := none
  host : String := ""
  port : Option Nat := none
deriving DecidableEq, Repr

structure Address where
  scheme : String
  authority : Option Authority
  /-- segments, each after a slash -/
  path : List String
  query : Option String := none
  fragment : Option String := none
deriving DecidableEq, Repr

/-! ## Path -/

def isSlash (kind : SchemeKind) (c : Char) : Bool := c == '/' || (kind.isSpecial && c == '\\')

/-- encoded dots as dots -/
def plainDots : List Char → List Char
  | '%' :: '2' :: 'e' :: r => '.' :: plainDots r
  | '%' :: '2' :: 'E' :: r => '.' :: plainDots r
  | c :: r => c :: plainDots r
  | [] => []

def isDot (segment : List Char) : Bool := plainDots segment == ['.']

def isDoubleDot (segment : List Char) : Bool := plainDots segment == ['.', '.']

/-- a letter and a colon or bar -/
def isDrive : List Char → Bool
  | [a, b] => isLetterAscii a && (b == ':' || b == '|')
  | _ => false

/-- the segments without the last, unless that is a drive -/
def goUp (path : List (List Char)) : List (List Char) :=
  if path.getLast?.any isDrive then path else path.dropLast

/-- adds a segment to a path; a dot segment at the end leaves an empty one -/
def addSegment (kind : SchemeKind) (path : List (List Char)) (segment : List Char) (isLast : Bool) : List (List Char) :=
  let closing : List (List Char) := if isLast then [[]] else []
  if isDoubleDot segment then goUp path ++ closing
  else if isDot segment then path ++ closing
  else if kind == .file && path.isEmpty && isDrive segment then path ++ [segment.take 1 ++ [':']]
  else path ++ [segment]

def addSegments (kind : SchemeKind) (path : List (List Char)) : List (List Char) → List (List Char)
  | [] => path
  | [s] => addSegment kind path s true
  | s :: rest => addSegments kind (addSegment kind path s false) rest

/-- in a file address the path starts with a segment that is not empty, if it has one -/
def dropEmptyStart (path : List (List Char)) : List (List Char) :=
  match path.dropWhile List.isEmpty with
  | [] => [[]]
  | rest => rest

/-- the segments of a path after its first slash -/
def readPath (kind : SchemeKind) (s : List Char) : List String :=
  let path := addSegments kind [] ((s.splitOnP (isSlash kind)).map (percentEncode keptInPath))
  (if kind == .file then dropEmptyStart path else path).map String.ofList

/-- the path after an authority -/
def pathAfterAuthority (kind : SchemeKind) (s : List Char) : List String :=
  match s with
  | [] => if kind.isSpecial then [""] else []
  | c :: r => readPath kind (if isSlash kind c then r else s)

/-! ## Authority -/

/-- name and password before the last at sign, and the rest; none if nothing but a slash follows the sign -/
def readUserInfo (kind : SchemeKind) (more : Bool) (s : List Char) : Option (Authority × List Char) :=
  let authority := s.takeWhile fun c => !isSlash kind c
  if !authority.contains '@' then some ({}, s)
  else
    let info := beforeLast (· == '@') authority
    let rest := s.drop (info.length + 1)
    if info.isEmpty then
      if rest.head?.any (isSlash kind) || (rest.isEmpty && more) then none else some ({}, rest)
    else
      let name := info.takeWhile fun c => c != ':'
      let password := (info.drop name.length).drop 1
      let encoded := fun (t : List Char) => String.ofList (percentEncode keptInUserInfo t)
      some ({ username := encoded name, password := if password.isEmpty then none else some (encoded password) }, rest)

/-- the host and what follows it; colons within brackets belong to the host -/
def spanHost (kind : SchemeKind) (inside : Bool) : List Char → List Char × List Char
  | [] => ([], [])
  | c :: r =>
    if (c == ':' && !inside) || isSlash kind c then ([], c :: r)
    else
      let (host, rest) := spanHost kind (if c == '[' then true else if c == ']' then false else inside) r
      (c :: host, rest)

/-- a port after a colon; the default one is left out -/
def readPort (kind : SchemeKind) (s : List Char) : Option (Option Nat × List Char) :=
  match s with
  | ':' :: r => do
    let digits := r.takeWhile isDigitAscii
    let rest := r.drop digits.length
    guard (rest.isEmpty || rest.head? == some '/' || rest.head? == some '\\')
    let n ← numberIn 10 digits
    guard (n ≤ 65535)
    return (if digits.isEmpty || kind == .web n then none else some n, rest)
  | _ => some (none, s)

/-- the authority and what follows it -/
def readAuthority (kind : SchemeKind) (more : Bool) (s : List Char) : Option (Authority × List Char) := do
  let (user, s) ← readUserInfo kind more s
  let (hostChars, s) := spanHost kind false s
  let host ← if kind.isSpecial then namedHost? hostChars else opaqueHost? hostChars
  guard (!host.isEmpty || (s.head? != some ':' && user == {}))
  let (port, s) ← readPort kind s
  return ({ user with host, port }, s)

/-- the authority and path of a file address: a drive is no host, and the local host goes without saying -/
def readFile (s : List Char) : Option (Authority × List String) :=
  let afterSlashes := match s with
    | a :: b :: r => if isSlash .file a && isSlash .file b then some r else none
    | _ => none
  match afterSlashes with
  | none => some ({}, readPath .file (if s.head?.any (isSlash .file) then s.drop 1 else s))
  | some r =>
    let name := r.takeWhile fun c => !isSlash .file c
    if isDrive name then some ({}, readPath .file r)
    else do
      let host ← if name.isEmpty then some "" else namedHost? name
      let path := pathAfterAuthority .file (r.drop name.length)
      let host := if host == "localhost" || path.head?.any (isDrive ·.toList) then "" else host
      return ({ host }, path)

/-! ## Addresses -/

def isSchemeChar (c : Char) : Bool := isLetterAscii c || isDigitAscii c || c == '+' || c == '-' || c == '.'

/-- the scheme in lower case and what follows its colon -/
def readScheme (s : List Char) : Option (String × List Char) := do
  guard (s.head?.any isLetterAscii)
  let name := s.takeWhile isSchemeChar
  match s.drop name.length with
  | ':' :: r => return (String.ofList (name.map Char.toLower), r)
  | _ => none

/-- the text before the first separator, and the text after it if there is one -/
def cut (sep : Char) (s : List Char) : List Char × Option (List Char) :=
  match s.dropWhile fun c => c != sep with
  | [] => (s, none)
  | _ :: r => (s.takeWhile fun c => c != sep, some r)

def isOuterBlank (c : Char) : Bool := c.toNat ≤ 0x20

/-- without surrounding blanks and control characters, and without tabs and line breaks -/
def tidy (s : List Char) : List Char :=
  (dropEndWhile isOuterBlank (s.dropWhile isOuterBlank)).filter fun c => c != '\t' && c != '\n' && c != '\r'

/-- the authority and path after a scheme -/
def readBody (kind : SchemeKind) (more : Bool) (s : List Char) : Option (Option Authority × List String) :=
  match kind with
  | .file => do
    let (a, path) ← readFile s
    return (some a, path)
  | .web _ => do
    let (a, rest) ← readAuthority kind more (s.dropWhile (isSlash kind))
    return (some a, pathAfterAuthority kind rest)
  | .other =>
    match s with
    | '/' :: '/' :: r => do
      let (a, rest) ← readAuthority kind more r
      return (some a, pathAfterAuthority kind rest)
    | '/' :: r => some (none, readPath kind r)
    | _ => none

namespace Address

/-- reads an address whose path consists of segments -/
def parse (text : String) : Option Address := do
  let (scheme, s) ← readScheme (tidy text.toList)
  let kind := schemeKind scheme
  let (s, fragment) := cut '#' s
  let (s, query) := cut '?' s
  let (authority, path) ← readBody kind (query.isSome || fragment.isSome) s
  return {
    scheme, authority, path
    query := query.map fun q => String.ofList (percentEncode (keptInQuery kind.isSpecial) q)
    fragment := fragment.map fun f => String.ofList (percentEncode keptInFragment f) }

/-- the path as text -/
def pathText (path : List String) : String := String.join (path.map ("/" ++ ·))

def userText (a : Authority) : String :=
  if a.username.isEmpty && a.password.isNone then ""
  else a.username ++ (a.password.elim "" (":" ++ ·)) ++ "@"

def authorityText (a : Authority) : String := userText a ++ a.host ++ a.port.elim "" fun n => ":" ++ toString n

/-- an address as text; without an authority, a path that starts with two slashes gets a dot segment in front -/
def text (a : Address) : String :=
  let start := match a.authority with
    | some x => "//" ++ authorityText x
    | none => if a.path.head? == some "" && 2 ≤ a.path.length then "/." else ""
  a.scheme ++ ":" ++ start ++ pathText a.path ++ a.query.elim "" ("?" ++ ·) ++ a.fragment.elim "" ("#" ++ ·)

/-- whether the address names a host -/
def hasHost (a : Address) : Bool := a.authority.any fun x => !x.host.isEmpty

def withoutUser (a : Address) : Address :=
  { a with authority := a.authority.map fun x => { x with username := "", password := none } }

/-- without an empty segment at the end, a lone one aside -/
def dropEmptyEnd (a : Address) : Address :=
  if 2 ≤ a.path.length && a.path.getLast? == some "" then { a with path := a.path.dropLast } else a

/-- the path with one more segment, encoded; dots alone add nothing, and the empty path `/` is replaced -/
def push (a : Address) (segment : String) : Address :=
  if segment == "." || segment == ".." then a
  else
    let kind := schemeKind a.scheme
    let cs := segment.toList.filter fun c => c != '\t' && c != '\n' && c != '\r'
    let path := if a.path == [""] then [] else a.path.map String.toList
    { a with path := (addSegment kind path (percentEncode (keptInSegment kind.isSpecial) cs) true).map String.ofList }

def pushAll (a : Address) (segments : List String) : Address := segments.foldl push a

/-- the query with one more pair -/
def addQuery (a : Address) (name value : String) : Address :=
  let pair := String.ofList (formEncode name.toList) ++ "=" ++ String.ofList (formEncode value.toList)
  { a with query := match a.query with
      | none => some pair
      | some q => some (if q.isEmpty then pair else q ++ "&" ++ pair) }

/-- path and query, as a request names them -/
def target (a : Address) : String := pathText a.path ++ a.query.elim "" ("?" ++ ·)

end Address

end ClassAtlas.Web
