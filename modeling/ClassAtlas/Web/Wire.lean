/-
Requests and responses as bytes on a connection.

One request goes over one connection, and the response is all that comes back until the other side closes it. A body has
the announced length, or comes in chunks, or ends with the connection.
-/
import ClassAtlas.Web.Exchange

namespace ClassAtlas.Web

open ClassAtlas.Text

/-- host and port that an address is reached at, where plain connections will do -/
def Address.endpoint? (a : Address) : Option (String × Nat) := do
  guard (a.scheme == "http")
  let authority ← a.authority
  return (authority.host, authority.port.getD 80)

/-- the host as the request names it -/
def hostHeader (a : Address) : String :=
  a.authority.elim "" fun x => x.host ++ x.port.elim "" fun n => ":" ++ toString n

def header (name value : String) : String := name ++ ": " ++ value ++ "\r\n"

/-- a request as text -/
def Request.text (r : Request) : String :=
  "GET " ++ r.address.target ++ " HTTP/1.1\r\n" ++ header "accept" r.accept ++
    r.authorization.elim "" (header "authorization") ++ header "user-agent" r.userAgent ++
    header "host" (hostHeader r.address) ++ header "connection" "close" ++ "\r\n"

/-! ## Responses -/

/-- the bytes up to a line break, and those after it -/
def line? : List Char → Option (List Char × List Char)
  | [] => none
  | '\r' :: '\n' :: r => some ([], r)
  | c :: r => (line? r).map fun (l, rest) => (c :: l, rest)

/-- header lines up to the empty line; the first argument bounds their number -/
def headerLines : Nat → List Char → Option (List (List Char) × List Char)
  | 0, _ => none
  | n + 1, s => do
    let (l, r) ← line? s
    if l.isEmpty then return ([], r)
    else
      let (ls, rest) ← headerLines n r
      return (l :: ls, rest)

/-- the status of a first line -/
def statusOf? (l : List Char) : Option Nat := do
  let [version, code] := (l.splitOnP (· == ' ')).take 2 | none
  guard ("HTTP/1.".toList.isPrefixOf version && !code.isEmpty && code.all isDigitAscii)
  numberIn 10 code

/-- the value of a header, by its name in lower case -/
def headerValue? (lines : List (List Char)) (name : String) : Option (List Char) :=
  lines.findSome? fun l =>
    let key := l.takeWhile fun c => c != ':'
    if key.map Char.toLower == name.toList then some (trim (l.drop (key.length + 1))) else none

/-- the body of a chunked message, and whether its last chunk arrived; the first argument bounds the chunks -/
def dechunk : Nat → List Char → List Char × Bool
  | 0, _ => ([], false)
  | n + 1, s =>
    match line? s with
    | none => ([], false)
    | some (l, r) =>
      match numberIn 16 (trim (l.takeWhile fun c => c != ';')) with
      | none => ([], false)
      | some 0 => ([], true)
      | some size =>
        let chunk := r.take size
        if chunk.length < size then (chunk, false)
        else
          let (more, complete) := dechunk n ((r.drop size).drop 2)
          (chunk ++ more, complete)

/-- the body after the headers, and whether it arrived to its end -/
def bodyOf (lines : List (List Char)) (rest : List Char) : List Char × Bool :=
  if (headerValue? lines "transfer-encoding").any fun v => sameIgnoringCase v "chunked".toList then
    dechunk (rest.length + 1) rest
  else
    match (headerValue? lines "content-length").bind (numberIn 10) with
    | some n => (rest.take n, n ≤ rest.length)
    | none => (rest, true)

/-- the response in the bytes of a whole connection -/
def Response.ofBytes? (bytes : List UInt8) : Option Response := do
  let s := bytes.map fun b => Char.ofNat b.toNat
  let (first, s) ← line? s
  let status ← statusOf? first
  let (lines, rest) ← headerLines (s.length + 1) s
  let (body, complete) := bodyOf lines rest
  return ⟨status, body.map fun c => c.toNat.toUInt8, complete⟩

end ClassAtlas.Web
