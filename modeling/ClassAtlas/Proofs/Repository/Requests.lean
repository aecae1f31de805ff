/-
What the requests of a client name.

A listing and a file are asked for below the address of the interface, each part of their address as one segment. The
target of a request, divided at slashes and decoded, gives back the path of the interface and then these parts, with one
exception: a part that is a dot segment is left out without a word, and the request goes to another place.

- `listingRequest`, `contentRequest`: the requests; an answer depends on the transport at its request only.
- `endpoint_names`: what an address below a repository names.
- `requests_name_resources`: which targets the requests have, when they name what was asked for, and that requests for
  different things have different targets as long as no part is a dot segment.
- `listing_of_dots_elsewhere`: an address whose owner is a dot segment is accepted, and its listing is asked for at the
  place of another one.
-/
import ClassAtlas.Proofs.Repository.Spelling
import ClassAtlas.Proofs.Web.Targets
import ClassAtlas.Repository.Client

namespace ClassAtlas.Repository

open ClassAtlas.Text ClassAtlas.Web

namespace Client

/-! ## Requests -/

/-- the request that a listing makes -/
def listingRequest (c : Client) (l : Location) : Except FetchError Request :=
  (c.listingAddress l.owner l.repo l.ref).map fun a => c.request a listingType

/-- the request that asks for the text of a file -/
def contentRequest (c : Client) (l : Location) (path : String) : Except FetchError Request :=
  (c.contentAddress l.owner l.repo path l.ref).map fun a => c.request a contentType

theorem fetch_congr {α : Type} {c : Client} {a : Address} {accept : String} {t t' : Transport}
    (h : t (c.request a accept) = t' (c.request a accept)) (read : Response → Option α) :
    c.fetch t accept read a = c.fetch t' accept read a := by
  unfold fetch
  rw [h]

/-- a listing asks for nothing else -/
theorem listing_congr {c : Client} {l : Location} {r : Request} (hr : c.listingRequest l = .ok r) {t t' : Transport}
    (h : t r = t' r) : c.listing t l = c.listing t' l := by
  unfold listingRequest at hr
  unfold listing
  cases ha : c.listingAddress l.owner l.repo l.ref with
  | error e => rfl
  | ok a =>
    rw [ha] at hr
    cases hr
    exact fetch_congr h _

/-- nor does the look at a file -/
theorem content_congr {c : Client} {l : Location} {path : String} {r : Request} (hr : c.contentRequest l path = .ok r)
    {t t' : Transport} (h : t r = t' r) : c.content t l path = c.content t' l path := by
  unfold contentRequest at hr
  unfold content
  cases ha : c.contentAddress l.owner l.repo path l.ref with
  | error e => rfl
  | ok a =>
    rw [ha] at hr
    cases hr
    exact fetch_congr h _

end Client

/-! ## Names -/

/-- names as bytes -/
def bytesOf (names : List String) : List (List UInt8) := names.map fun n => Utf8.encode n.toList

/-- names without dot segments -/
def spoken (names : List String) : List String := names.filter fun n => !isDots n

/-- the path of the interface, decoded; an empty segment at its end does not count -/
def basePath (a : Address) : List (List UInt8) := a.dropEmptyEnd.root.map fun p => percentDecode p.toList

/-- what the listing of a location is asked for under -/
def listingNames (l : Location) : List String := ["repos", l.owner, l.repo, "git", "trees", l.ref]

/-- what a file is asked for under -/
def contentNames (l : Location) (path : String) : List String :=
  "repos" :: l.owner :: l.repo :: "contents" :: Client.pathSegments path

theorem bytesOf_injective : Function.Injective bytesOf := by
  apply List.map_injective_iff.2
  intro n m h
  exact String.toList_injective (encode_injective h)

theorem spoken_eq_self_iff {names : List String} : spoken names = names ↔ ∀ n ∈ names, isDots n = false := by
  rw [spoken, List.filter_eq_self]
  simp only [Bool.not_eq_true']

/-- the target of the request names the path of the interface and then these -/
def Names (a : Address) (r : Request) (names : List String) : Prop :=
  namedSegments r.address.target = basePath a ++ bytesOf names

/-- none of the names is a dot segment -/
def Undotted (names : List String) : Prop := ∀ n ∈ names, isDots n = false

/-- a request for what stands under some names below the interface, with a pair in its query -/
structure AsksFor (a : Address) (r : Request) (names : List String) (pair : List Char) : Prop where
  /-- dot segments are left out -/
  named : Names a r (spoken names)
  /-- so that all names are there exactly if none of them is one -/
  complete : Names a r names ↔ Undotted names
  /-- the pair comes after those that the address of the interface has of its own -/
  query : queryPairs (queryOf r.address.target) = a.ownPairs ++ [pair]

section

variable {a : Address} {r r' : Request} {names names' : List String} {pair pair' : List Char}

/-- of names of which dot segments are left out, all are named only if there are none -/
theorem names_iff_undotted (h : Names a r (spoken names)) : Names a r names ↔ Undotted names := by
  unfold Names at h ⊢
  rw [h, List.append_cancel_left_eq, bytesOf_injective.eq_iff, spoken_eq_self_iff]
  rfl

/-- without dot segments a target tells what was asked for -/
theorem AsksFor.eq_of_target_eq (h : AsksFor a r names pair) (h' : AsksFor a r' names' pair') (hdots : Undotted names)
    (hdots' : Undotted names') (htarget : r.address.target = r'.address.target) : names = names' ∧ pair = pair' := by
  have hnames : Names a r names := h.complete.2 hdots
  have hnames' : Names a r' names' := h'.complete.2 hdots'
  have hquery := h.query
  unfold Names at hnames hnames'
  rw [htarget, hnames', List.append_cancel_left_eq] at hnames
  rw [htarget, h'.query, List.append_cancel_left_eq] at hquery
  exact ⟨bytesOf_injective hnames.symm, (List.cons.inj hquery).1.symm⟩

end

/-! ## Addresses below a repository -/

section

variable {c : Client} {a : Address}

theorem dropEmptyEnd_query (a : Address) : a.dropEmptyEnd.query = a.query := by
  unfold Address.dropEmptyEnd
  split_ifs <;> rfl

theorem unbrokenPath_dropEmptyEnd (h : UnbrokenPath a.path) : UnbrokenPath a.dropEmptyEnd.path := by
  unfold Address.dropEmptyEnd
  split_ifs
  · exact fun p hp => h p ((List.dropLast_sublist a.path).mem hp)
  · exact h

theorem unbrokenPath_root (h : UnbrokenPath a.path) : UnbrokenPath a.root := by
  unfold Address.root
  split_ifs
  · exact fun p hp => absurd hp List.not_mem_nil
  · exact h

/-- the first segment that is added is the same for all requests, and it is neither empty nor a drive -/
theorem encodeSegment_repos (scheme : String) : encodeSegment scheme "repos" = "repos" := by
  unfold encodeSegment
  cases (schemeKind scheme).isSpecial <;> decide

theorem push_repos_path (a : Address) : (a.push "repos").path = a.root ++ ["repos"] := by
  have hblank : "repos".toList.all (fun c => !isBlank c) = true := by decide
  have hdrive : isDrive (encodeSegment a.scheme "repos").toList = false := by
    rw [encodeSegment_repos]
    decide
  rw [Address.push_path (by decide) (by simpa using hblank) (Or.inr hdrive), encodeSegment_repos]

theorem hasRoot_push_repos (a : Address) : (a.push "repos").HasRoot := by
  unfold Address.HasRoot
  rw [push_repos_path]
  refine ⟨by simp, ?_⟩
  intro h
  have hlast := congrArg List.getLast? h
  rw [List.getLast?_concat] at hlast
  exact absurd hlast (by decide)

theorem map_decode_encodeSegment (scheme : String) (names : List String) :
    (names.map (encodeSegment scheme)).map (fun p => percentDecode p.toList) = bytesOf names := by
  rw [List.map_map, bytesOf]
  apply List.map_congr_left
  intro n _
  rw [Function.comp_apply, percentDecode_encodeSegment]

/-- the address that an endpoint is given, and what it names -/
theorem endpoint_names (hapi : Address.parse c.apiUrl = some a) {owner repo : String} {segments : List String}
    (hblank : ∀ s ∈ owner :: repo :: segments, ∀ x ∈ s.toList, isBlank x = false) :
    ∃ b, c.endpoint owner repo segments = .ok b ∧ UnbrokenPath b.path ∧ b.query = a.query ∧
      (b.path.map fun p => percentDecode p.toList) =
        basePath a ++ bytesOf (spoken ("repos" :: owner :: repo :: segments)) := by
  have hendpoint : c.endpoint owner repo segments =
      .ok ((a.dropEmptyEnd.push "repos").pushAll (owner :: repo :: segments)) := by
    unfold Client.endpoint
    rw [hapi]
    rfl
  have hunbroken : UnbrokenPath (a.dropEmptyEnd.push "repos").path := by
    rw [push_repos_path]
    intro p hp
    rcases List.mem_append.1 hp with hp | hp
    · exact unbrokenPath_root (unbrokenPath_dropEmptyEnd (unbrokenPath_parse hapi)) p hp
    · have hrepos := unbroken_encodeSegment a.scheme "repos"
      rw [encodeSegment_repos] at hrepos
      rw [List.mem_singleton.1 hp]
      exact hrepos
  have hrepos : percentDecode "repos".toList = Utf8.encode "repos".toList := by
    have hdecoded := percentDecode_encodeSegment a.scheme "repos"
    rwa [encodeSegment_repos] at hdecoded
  refine ⟨_, hendpoint, ?_, ?_, ?_⟩
  · exact Address.unbrokenPath_pushAll (hasRoot_push_repos _) hunbroken hblank
  · rw [Address.pushAll_query, Address.push_query, dropEmptyEnd_query]
  · rw [Address.pushAll_path (hasRoot_push_repos _) hblank, push_repos_path]
    rw [List.map_append, List.map_append, List.map_singleton, map_decode_encodeSegment, hrepos,
      List.append_assoc]
    rfl

/-- a pair in the query leaves alone what the path names -/
theorem asksFor_addQuery {b : Address} (hpath : UnbrokenPath b.path) (hquery : b.query = a.query) {names : List String}
    (hnames : (b.path.map fun p => percentDecode p.toList) = basePath a ++ bytesOf (spoken names))
    (name value accept : String) : AsksFor a (c.request (b.addQuery name value) accept) names (pairText name value) := by
  have hadded : UnbrokenPath (b.addQuery name value).path := hpath
  have hown : b.ownPairs = a.ownPairs := by rw [Address.ownPairs, hquery, ← Address.ownPairs]
  have hspoken : Names a (c.request (b.addQuery name value) accept) (spoken names) :=
    (namedSegments_target hadded).trans hnames
  refine ⟨hspoken, names_iff_undotted hspoken, ?_⟩
  calc queryPairs (queryOf (c.request (b.addQuery name value) accept).address.target)
      = queryPairs ((b.addQuery name value).query.getD "").toList := congrArg queryPairs (queryOf_target hadded)
    _ = b.ownPairs ++ [pairText name value] := queryPairs_addQuery b name value
    _ = a.ownPairs ++ [pairText name value] := by rw [hown]

theorem unblank_of_fixed {s : String} (hs : s ∈ ["git", "trees", "contents"]) : ∀ x ∈ s.toList, isBlank x = false := by
  have hall : (["git", "trees", "contents"].all fun s => s.toList.all fun x => !isBlank x) = true := by decide
  intro x hx
  simpa using List.all_eq_true.1 (List.all_eq_true.1 hall s hs) x hx

theorem unblank_of_mem_pathSegments {path : String} (hpath : ∀ x ∈ path.toList, isBlank x = false) {s : String}
    (hs : s ∈ Client.pathSegments path) : ∀ x ∈ s.toList, isBlank x = false := by
  obtain ⟨p, hp, rfl⟩ := List.mem_map.1 hs
  obtain ⟨before, after, hpiece⟩ := mem_splitOnP_iff.1 hp
  intro x hx
  rw [String.toList_ofList] at hx
  apply hpath
  rw [hpiece.text]
  exact List.mem_append_left _ (List.mem_append_right _ hx)

/-- the request for the listing of a location -/
theorem listingRequest_asksFor (hapi : Address.parse c.apiUrl = some a) {l : Location} (hl : l.Addressable) :
    ∃ r, c.listingRequest l = .ok r ∧ AsksFor a r (listingNames l) "recursive=1".toList := by
  have hblank : ∀ s ∈ [l.owner, l.repo, "git", "trees", l.ref], ∀ x ∈ s.toList, isBlank x = false := by
    intro s hs
    simp only [List.mem_cons, List.not_mem_nil, or_false] at hs
    rcases hs with rfl | rfl | rfl | rfl | rfl
    · exact fun x hx => (hl.owner.of_mem hx).1
    · exact fun x hx => (hl.repo.of_mem hx).1
    · exact unblank_of_fixed (by decide)
    · exact unblank_of_fixed (by decide)
    · exact fun x hx => (hl.ref.of_mem hx).1
  have hpair : pairText "recursive" "1" = "recursive=1".toList := by decide
  obtain ⟨b, hb, hpath, hquery, hnames⟩ := endpoint_names hapi hblank
  have hrequest : c.listingRequest l = .ok (c.request (b.addQuery "recursive" "1") Client.listingType) := by
    unfold Client.listingRequest Client.listingAddress
    rw [hb]
    rfl
  rw [← hpair]
  exact ⟨_, hrequest, asksFor_addQuery hpath hquery hnames "recursive" "1" Client.listingType⟩

/-- the request for a file -/
theorem contentRequest_asksFor (hapi : Address.parse c.apiUrl = some a) {l : Location} (hl : l.Addressable) {path : String}
    (hpath : ∀ x ∈ path.toList, isBlank x = false) :
    ∃ r, c.contentRequest l path = .ok r ∧ AsksFor a r (contentNames l path) (pairText "ref" l.ref) := by
  have hblank : ∀ s ∈ l.owner :: l.repo :: "contents" :: Client.pathSegments path, ∀ x ∈ s.toList, isBlank x = false := by
    intro s hs
    simp only [List.mem_cons] at hs
    rcases hs with rfl | rfl | rfl | hs
    · exact fun x hx => (hl.owner.of_mem hx).1
    · exact fun x hx => (hl.repo.of_mem hx).1
    · exact unblank_of_fixed (by decide)
    · exact unblank_of_mem_pathSegments hpath hs
  obtain ⟨b, hb, hunbroken, hquery, hnames⟩ := endpoint_names hapi hblank
  have hrequest : c.contentRequest l path = .ok (c.request (b.addQuery "ref" l.ref) Client.contentType) := by
    unfold Client.contentRequest Client.contentAddress
    rw [hb]
    rfl
  exact ⟨_, hrequest, asksFor_addQuery hunbroken hquery hnames "ref" l.ref Client.contentType⟩

end

/-! ## Requests and resources -/

/-- read from an address without white space -/
def ReadFromAddress (l : Location) : Prop :=
  ∃ address : String, (∀ x ∈ address.toList, isBlank x = false) ∧ Location.parse address = .ok l

theorem ReadFromAddress.addressable {l : Location} (h : ReadFromAddress l) : l.Addressable := by
  obtain ⟨address, hblank, hparse⟩ := h
  exact addressable_of_parse hblank hparse

theorem pathSegments_injective : Function.Injective Client.pathSegments := by
  intro p q h
  have hsplit : p.toList.splitOnP (· == '/') = q.toList.splitOnP (· == '/') :=
    List.map_injective_iff.2 (fun _ _ => String.ofList_injective) h
  have hjoin := congrArg (['/'].intercalate ·) hsplit
  simp only [← List.splitOn_eq_splitOnP, List.intercalate_splitOn] at hjoin
  exact String.toList_injective hjoin

theorem pairText_injective {name value value' : String} (h : pairText name value = pairText name value') :
    value = value' := by
  have hvalue := List.append_cancel_left h
  exact String.toList_injective (formEncode_injective (List.cons.inj hvalue).2)

/-- **Requests and what they name.** A listing makes one request, and so does the look at a file. The target of the request
names the path of the interface and then what was asked for, dot segments left out; it names all of it exactly if no part
is a dot segment, and then requests for different things have different targets. -/
theorem requests_name_resources {c : Client} {a : Address} (hapi : Address.parse c.apiUrl = some a) :
    (∀ l, ReadFromAddress l → ∃ r, c.listingRequest l = .ok r ∧
      (∀ t t' : Transport, t r = t' r → c.listing t l = c.listing t' l) ∧
      AsksFor a r (listingNames l) "recursive=1".toList) ∧
    (∀ l path, ReadFromAddress l → (∀ x ∈ path.toList, isBlank x = false) → ∃ r, c.contentRequest l path = .ok r ∧
      (∀ t t' : Transport, t r = t' r → c.content t l path = c.content t' l path) ∧
      AsksFor a r (contentNames l path) (pairText "ref" l.ref)) ∧
    (∀ l l' r r', ReadFromAddress l → ReadFromAddress l' → Undotted (listingNames l) → Undotted (listingNames l') →
      c.listingRequest l = .ok r → c.listingRequest l' = .ok r' → r.address.target = r'.address.target →
      l.owner = l'.owner ∧ l.repo = l'.repo ∧ l.ref = l'.ref) ∧
    ∀ l l' path path' r r', ReadFromAddress l → ReadFromAddress l' → (∀ x ∈ path.toList, isBlank x = false) →
      (∀ x ∈ path'.toList, isBlank x = false) → Undotted (contentNames l path) → Undotted (contentNames l' path') →
      c.contentRequest l path = .ok r → c.contentRequest l' path' = .ok r' → r.address.target = r'.address.target →
      l.owner = l'.owner ∧ l.repo = l'.repo ∧ l.ref = l'.ref ∧ path = path' := by
  refine ⟨?_, ?_, ?_, ?_⟩
  · intro l hl
    obtain ⟨r, hr, hasks⟩ := listingRequest_asksFor hapi hl.addressable
    exact ⟨r, hr, fun t t' h => Client.listing_congr hr h, hasks⟩
  · intro l path hl hpath
    obtain ⟨r, hr, hasks⟩ := contentRequest_asksFor hapi hl.addressable hpath
    exact ⟨r, hr, fun t t' h => Client.content_congr hr h, hasks⟩
  · intro l l' r r' hl hl' hdots hdots' hr hr' htarget
    obtain ⟨s, hs, hasks⟩ := listingRequest_asksFor hapi hl.addressable
    obtain ⟨s', hs', hasks'⟩ := listingRequest_asksFor hapi hl'.addressable
    rw [hr] at hs
    rw [hr'] at hs'
    cases hs
    cases hs'
    have hnames := (hasks.eq_of_target_eq hasks' hdots hdots' htarget).1
    simpa [listingNames] using hnames
  · intro l l' path path' r r' hl hl' hpath hpath' hdots hdots' hr hr' htarget
    obtain ⟨s, hs, hasks⟩ := contentRequest_asksFor hapi hl.addressable hpath
    obtain ⟨s', hs', hasks'⟩ := contentRequest_asksFor hapi hl'.addressable hpath'
    rw [hr] at hs
    rw [hr'] at hs'
    cases hs
    cases hs'
    obtain ⟨hnames, hpair⟩ := hasks.eq_of_target_eq hasks' hdots hdots' htarget
    simp only [contentNames, List.cons.injEq, true_and] at hnames
    exact ⟨hnames.1, hnames.2.1, pairText_injective hpair, pathSegments_injective hnames.2.2⟩

/-- the interface below a path of its own, with a query -/
def enterprise : Client := ⟨"https://ghe.example.com/api/v3?cache=no", "repolens/0.1.0", none⟩

def enterpriseAddress : Address :=
  ⟨"https", some { host := "ghe.example.com" }, ["api", "v3"], some "cache=no", none⟩

theorem requests_name_resources_enterprise :
    Address.parse enterprise.apiUrl = some enterpriseAddress ∧
      Location.parse "github.com/shop/a%2F..%3F/tree/v1" = .ok ⟨"shop", "a%2F..%3F", "v1", "", false⟩ ∧
      ∃ r, enterprise.listingRequest ⟨"shop", "a%2F..%3F", "v1", "", false⟩ = .ok r ∧
        AsksFor enterpriseAddress r ["repos", "shop", "a%2F..%3F", "git", "trees", "v1"] "recursive=1".toList := by
  have hapi : Address.parse enterprise.apiUrl = some enterpriseAddress := by decide +kernel
  have hparse : Location.parse "github.com/shop/a%2F..%3F/tree/v1" = .ok ⟨"shop", "a%2F..%3F", "v1", "", false⟩ := by
    decide +kernel
  have hblank : "github.com/shop/a%2F..%3F/tree/v1".toList.all (fun x => !isBlank x) = true := by decide
  have hread : ReadFromAddress ⟨"shop", "a%2F..%3F", "v1", "", false⟩ := ⟨_, by simpa using hblank, hparse⟩
  obtain ⟨r, hr, -, hasks⟩ := (requests_name_resources hapi).1 _ hread
  exact ⟨hapi, hparse, r, hr, hasks⟩

/-- the interface of the site itself -/
def site : Client := ⟨"https://api.github.com", "repolens/0.1.0", none⟩

def siteAddress : Address := ⟨"https", some { host := "api.github.com" }, [""], none, none⟩

/-- a repository of an owner who is a dot segment -/
def ofDots (owner : String) : Location := ⟨owner, "orders", "main", "", false⟩

/-- **Dot segments lead elsewhere.** Two addresses are read as repositories of different owners, yet the listings of both
are asked for by one request, and this names neither owner. -/
theorem listing_of_dots_elsewhere :
    Location.parse "https://github.com/../orders/tree/main" = .ok (ofDots "..") ∧
      Location.parse "https://github.com/./orders/tree/main" = .ok (ofDots ".") ∧
      Address.parse site.apiUrl = some siteAddress ∧
      ∃ r, site.listingRequest (ofDots "..") = .ok r ∧ site.listingRequest (ofDots ".") = .ok r ∧
        r.address.target = "/repos/orders/git/trees/main?recursive=1" ∧
        ¬ Names siteAddress r (listingNames (ofDots "..")) ∧ ¬ Names siteAddress r (listingNames (ofDots ".")) := by
  refine ⟨by decide +kernel, by decide +kernel, by decide +kernel, ?_⟩
  refine ⟨⟨⟨"https", some { host := "api.github.com" }, ["repos", "orders", "git", "trees", "main"], some "recursive=1",
    none⟩, Client.listingType, "repolens/0.1.0", none⟩, by decide +kernel, by decide +kernel, by decide +kernel, ?_, ?_⟩
  · unfold Names
    decide +kernel
  · unfold Names
    decide +kernel

end ClassAtlas.Repository
