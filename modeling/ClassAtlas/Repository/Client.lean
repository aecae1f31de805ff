/-
The client of the repository host's interface on the web.

A listing is asked for at `repos/owner/repo/git/trees/ref`, a file at `repos/owner/repo/contents/path`, below the
interface's own address. Each part of such an address is one encoded segment, so that the request names what was asked for.
-/
import ClassAtlas.Repository.Host
import ClassAtlas.Repository.Listing
import ClassAtlas.Repository.Selection
import ClassAtlas.Settings.Basic
import ClassAtlas.Web.Exchange

namespace ClassAtlas.Repository

open ClassAtlas.Text ClassAtlas.Web ClassAtlas.Settings

structure Client where
  /-- the address of the interface, as given but for slashes at its end -/
  apiUrl : String
  userAgent : String
  token : Option String
deriving DecidableEq, Repr

namespace Client

/-- a client with given settings; its name must be fit for a header -/
def ofSettings (s : HostSettings) : Except FetchError Client :=
  if isHeaderText s.userAgent then .ok ⟨dropSlashes s.apiUrl, s.userAgent, s.token⟩ else .error .clientSetup

/-- an address below a repository -/
def endpoint (c : Client) (owner repo : String) (segments : List String) : Except FetchError Address :=
  match Address.parse c.apiUrl with
  | none => .error (.invalidEndpoint c.apiUrl)
  | some a => .ok ((a.dropEmptyEnd.pushAll ["repos", owner, repo]).pushAll segments)

/-- where the listing of a whole tree is -/
def listingAddress (c : Client) (owner repo ref : String) : Except FetchError Address := do
  return (← c.endpoint owner repo ["git", "trees", ref]).addQuery "recursive" "1"

def pathSegments (path : String) : List String := (path.toList.splitOnP (· == '/')).map String.ofList

/-- where the content of a file is -/
def contentAddress (c : Client) (owner repo path ref : String) : Except FetchError Address := do
  return (← c.endpoint owner repo ("contents" :: pathSegments path)).addQuery "ref" ref

/-- media types of listings and of file contents -/
def listingType : String := "application/vnd.github+json"

def contentType : String := "application/vnd.github.raw+json"

def request (c : Client) (a : Address) (accept : String) : Request :=
  ⟨a.withoutUser, accept, c.userAgent, c.token.map ("Bearer " ++ ·)⟩

/-- what is shown of an error body that did not arrive to its end -/
def lostBody : String := "Failed to read error body from GitHub response"

/-- the text of an error body, a byte order mark in front aside -/
def errorBody (r : Response) : String :=
  if r.complete then Utf8.decodeLenient (if [0xEF, 0xBB, 0xBF].isPrefixOf r.body then r.body.drop 3 else r.body)
  else lostBody

/-- whether requests can be made over the scheme -/
def isWebScheme (scheme : String) : Bool := scheme == "http" || scheme == "https"

/-- why a request is never sent -/
def unsendable? (c : Client) (a : Address) : Option SendFault :=
  if !a.hasHost then some (.address a.text)
  else if !c.token.all isHeaderText then some .header
  else if !isWebScheme a.scheme then some (.address a.withoutUser.text)
  else none

/-- the response to a request, unless it says that there is nothing to read -/
def judge (a : Address) (r : Response) : Except FetchError Response :=
  if r.status == 404 then .error (.notFound (Address.pathText a.path))
  else if !isSuccess r.status then .error (.refused r.status a.text (errorBody r))
  else .ok r

/-- sends a request and reads what comes back -/
def fetch {α : Type} (c : Client) (t : Transport) (accept : String) (read : Response → Option α) (a : Address) : Reply α :=
  match c.unsendable? a with
  | some f => .answer (.error (.requestFailed a.text f))
  | none =>
    match t (c.request a accept) with
    | .waiting => .waiting
    | .unreachable => .answer (.error (.requestFailed a.text (.connection a.withoutUser.text)))
    | .answered r => .answer do
      match read (← judge a r) with
      | some x => return x
      | none => throw (.unreadable a.text)

def readPaths (r : Response) : Option (List String) := if r.complete then readListing r.body else none

def readContent (r : Response) : Option String := if r.complete then some (Utf8.decodeLenient r.body) else none

/-- the files beneath the folder of a location -/
def listing (c : Client) (t : Transport) (l : Location) : Reply (List String) :=
  match c.listingAddress l.owner l.repo l.ref with
  | .error e => .answer (.error e)
  | .ok a => c.fetch t listingType (fun r => (readPaths r).map (pathsUnder · l.path)) a

/-- the text of a file -/
def content (c : Client) (t : Transport) (l : Location) (path : String) : Reply String :=
  match c.contentAddress l.owner l.repo path l.ref with
  | .error e => .answer (.error e)
  | .ok a => c.fetch t contentType readContent a

/-- the client as the host of an analysis -/
def host (c : Client) (t : Transport) : Host := ⟨c.listing t, c.content t⟩

end Client

end ClassAtlas.Repository
