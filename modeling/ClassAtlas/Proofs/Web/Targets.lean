/-
Request targets and the segments they name.

The path of an address is kept as encoded segments. None of them holds a slash, a question mark or a number sign, neither
as read from a text (`unbroken_of_parse`) nor after segments are added (`pushAll_path`), so a target falls apart into just
these segments and the query.

- `namedSegments`: what a target names: its path divided at slashes, each part decoded.
- `root`: the segments that an address has of its own when others are added to it.
- `pushAll_path`: added segments follow these, each encoded; dot segments are left out.
- `namedSegments_target`: a target names the decoded segments of its address.
-/
import ClassAtlas.Proofs.Text.Words
import ClassAtlas.Proofs.Web.Encoding

namespace ClassAtlas.Web

open ClassAtlas.Text

/-! ## Segments as read -/

/-- what no segment holds: the characters that end one -/
def isSegmentChar (c : Char) : Bool := c != '/' && c != '?' && c != '#'

/-- a segment without any of them -/
def Unbroken (s : List Char) : Prop := s.all isSegmentChar = true

theorem unbroken_percentEncode {keeps : Char → Bool} {s : List Char}
    (h : ∀ c ∈ s, keeps c = true → isSegmentChar c = true) : Unbroken (percentEncode keeps s) := by
  apply List.all_eq_true.2
  intro c hc
  exact of_mem_percentEncode isSegmentChar (by decide) (by decide) h hc

section

variable {kind : SchemeKind} {path : List (List Char)}

theorem mem_goUp {p : List Char} (hp : p ∈ goUp path) : p ∈ path := by
  unfold goUp at hp
  split_ifs at hp
  · exact hp
  · exact (List.dropLast_sublist path).mem hp

/-- a segment that is added, or what it becomes, is unbroken like those before it -/
theorem unbroken_addSegment (hpath : ∀ p ∈ path, Unbroken p) {s : List Char} (hs : Unbroken s) (last : Bool) :
    ∀ p ∈ addSegment kind path s last, Unbroken p := by
  have hclosing : ∀ q ∈ (if last then [[]] else [] : List (List Char)), Unbroken q := by
    intro q hq
    split_ifs at hq
    · rw [List.mem_singleton.1 hq]
      rfl
    · cases hq
  have hdrive : Unbroken (s.take 1 ++ [':']) := by
    apply List.all_eq_true.2
    intro c hc
    rcases List.mem_append.1 hc with hc | hc
    · exact List.all_eq_true.1 hs c (List.mem_of_mem_take hc)
    · rw [List.mem_singleton.1 hc]
      decide
  intro p hp
  unfold addSegment at hp
  simp only at hp
  generalize (if last then [[]] else [] : List (List Char)) = closing at hp hclosing
  split_ifs at hp <;> rcases List.mem_append.1 hp with hp | hp
  · exact hpath p (mem_goUp hp)
  · exact hclosing p hp
  · exact hpath p hp
  · exact hclosing p hp
  · exact hpath p hp
  · rwa [List.mem_singleton.1 hp]
  · exact hpath p hp
  · rwa [List.mem_singleton.1 hp]

theorem unbroken_addSegments (hpath : ∀ p ∈ path, Unbroken p) {ss : List (List Char)} (hss : ∀ s ∈ ss, Unbroken s) :
    ∀ p ∈ addSegments kind path ss, Unbroken p := by
  fun_induction addSegments kind path ss with
  | case1 path => exact hpath
  | case2 path s => exact unbroken_addSegment hpath (hss s List.mem_cons_self) true
  | case3 path s rest hrest ih =>
    apply ih
    · exact unbroken_addSegment hpath (hss s List.mem_cons_self) false
    · exact fun t ht => hss t (List.mem_cons_of_mem s ht)

theorem unbroken_dropEmptyStart (hpath : ∀ p ∈ path, Unbroken p) : ∀ p ∈ dropEmptyStart path, Unbroken p := by
  intro p hp
  unfold dropEmptyStart at hp
  split at hp
  · rw [List.mem_singleton.1 hp]
    rfl
  · exact hpath p ((List.dropWhile_sublist _).mem hp)

end

/-- the path holds unbroken segments only -/
def UnbrokenPath (path : List String) : Prop := ∀ p ∈ path, Unbroken p.toList

/-- slashes are gone once a path is divided at them, and the rest of what ends a segment is encoded -/
theorem unbrokenPath_readPath (kind : SchemeKind) (s : List Char) : UnbrokenPath (readPath kind s) := by
  have hencoded : ∀ p ∈ (s.splitOnP (isSlash kind)).map (percentEncode keptInPath), Unbroken p := by
    intro p hp
    obtain ⟨q, hq, rfl⟩ := List.mem_map.1 hp
    obtain ⟨before, after, hpiece⟩ := mem_splitOnP_iff.1 hq
    apply unbroken_percentEncode
    intro c hc hkept
    have hslash : c ≠ '/' := by
      rintro rfl
      exact absurd (hpiece.inside '/' hc) (by simp [isSlash])
    have hother : c ≠ '?' ∧ c ≠ '#' := by
      refine ⟨?_, ?_⟩
      all_goals
        rintro rfl
        exact absurd hkept (by decide)
    simp [isSegmentChar, hslash, hother]
  have hadded := @unbroken_addSegments kind [] (by simp) _ hencoded
  intro p hp
  unfold readPath at hp
  obtain ⟨q, hq, rfl⟩ := List.mem_map.1 hp
  rw [String.toList_ofList]
  split_ifs at hq
  · exact unbroken_dropEmptyStart hadded q hq
  · exact hadded q hq

theorem unbrokenPath_pathAfterAuthority (kind : SchemeKind) (s : List Char) :
    UnbrokenPath (pathAfterAuthority kind s) := by
  unfold pathAfterAuthority
  split
  · split_ifs
    · intro p hp
      rw [List.mem_singleton.1 hp]
      rfl
    · simp [UnbrokenPath]
  · exact unbrokenPath_readPath kind _

theorem unbrokenPath_readFile {s : List Char} {x : Authority × List String} (h : readFile s = some x) :
    UnbrokenPath x.2 := by
  revert h
  fun_cases readFile s with
  | case1 =>
    rintro ⟨⟩
    exact unbrokenPath_readPath _ _
  | case2 =>
    rintro ⟨⟩
    exact unbrokenPath_readPath _ _
  | case3 =>
    rintro ⟨⟩
    exact unbrokenPath_pathAfterAuthority _ _
  | case4 =>
    intro h
    obtain ⟨host, -, hx⟩ := Option.bind_eq_some_iff.1 h
    cases hx
    exact unbrokenPath_pathAfterAuthority _ _

theorem unbrokenPath_readBody {kind : SchemeKind} {more : Bool} {s : List Char} {x : Option Authority × List String}
    (h : readBody kind more s = some x) : UnbrokenPath x.2 := by
  unfold readBody at h
  split at h
  · obtain ⟨y, hy, hx⟩ := Option.bind_eq_some_iff.1 h
    cases hx
    exact unbrokenPath_readFile hy
  · obtain ⟨y, -, hx⟩ := Option.bind_eq_some_iff.1 h
    cases hx
    exact unbrokenPath_pathAfterAuthority _ _
  · split at h
    · obtain ⟨y, -, hx⟩ := Option.bind_eq_some_iff.1 h
      cases hx
      exact unbrokenPath_pathAfterAuthority _ _
    · cases h
      exact unbrokenPath_readPath _ _
    · cases h

/-- **Segments of an address that is read are unbroken.** -/
theorem unbrokenPath_parse {text : String} {a : Address} (h : Address.parse text = some a) : UnbrokenPath a.path := by
  unfold Address.parse at h
  obtain ⟨x, -, h⟩ := Option.bind_eq_some_iff.1 h
  obtain ⟨y, hy, h⟩ := Option.bind_eq_some_iff.1 h
  cases h
  exact unbrokenPath_readBody hy

/-! ## Segments that are added -/

/-- a segment that is left out -/
def isDots (segment : String) : Bool := segment == "." || segment == ".."

/-- a segment as it is added to an address with a scheme -/
def encodeSegment (scheme segment : String) : String :=
  String.ofList (percentEncode (keptInSegment (schemeKind scheme).isSpecial) segment.toList)

theorem percentDecode_encodeSegment (scheme segment : String) :
    percentDecode (encodeSegment scheme segment).toList = Utf8.encode segment.toList := by
  have hpercent : keptInSegment (schemeKind scheme).isSpecial '%' = false := by
    cases (schemeKind scheme).isSpecial <;> decide
  rw [encodeSegment, String.toList_ofList, percentDecode_percentEncode hpercent]

theorem unbroken_encodeSegment (scheme segment : String) : Unbroken (encodeSegment scheme segment).toList := by
  rw [encodeSegment, String.toList_ofList]
  apply unbroken_percentEncode
  intro c _ hkept
  have hother : ∀ d, keptInSegment (schemeKind scheme).isSpecial d = false → c ≠ d := by
    rintro d hd rfl
    rw [hkept] at hd
    cases hd
  have hslash : c ≠ '/' := hother '/' (by cases (schemeKind scheme).isSpecial <;> decide)
  have hquery : c ≠ '?' := hother '?' (by cases (schemeKind scheme).isSpecial <;> decide)
  have hfragment : c ≠ '#' := hother '#' (by cases (schemeKind scheme).isSpecial <;> decide)
  simp [isSegmentChar, hslash, hquery, hfragment]

/-- once encoded, a segment is a dot segment only if it was one -/
theorem plainDots_encodeSegment {scheme segment : String} (h : isDots segment = false) {n : Nat} (hn : n = 1 ∨ n = 2) :
    plainDots (encodeSegment scheme segment).toList ≠ List.replicate n '.' := by
  intro hdots
  rw [encodeSegment, String.toList_ofList] at hdots
  have hpercent : keptInSegment (schemeKind scheme).isSpecial '%' = false := by
    cases (schemeKind scheme).isSpecial <;> decide
  have hdot : keptInSegment (schemeKind scheme).isSpecial '.' = true := by
    cases (schemeKind scheme).isSpecial <;> decide
  have hsegment := eq_dots_of_plainDots hpercent hdot hdots
  have hplain : segment = String.ofList (List.replicate n '.') := by rw [← hsegment, String.ofList_toList]
  rcases hn with rfl | rfl <;> rw [hplain] at h <;> exact absurd h (by decide)

/-- any other segment is added as it is, but for a drive at the very start -/
theorem addSegment_eq {kind : SchemeKind} {path : List (List Char)} {s : List Char} {last : Bool}
    (hdots : isDoubleDot s = false) (hdot : isDot s = false) (hdrive : path ≠ [] ∨ isDrive s = false) :
    addSegment kind path s last = path ++ [s] := by
  have hstart : (kind == .file && path.isEmpty && isDrive s) = false := by
    rcases hdrive with h | h
    · have hfilled : path.isEmpty = false := List.isEmpty_eq_false_iff.2 h
      simp [hfilled]
    · simp [h]
  simp [addSegment, hdots, hdot, hstart]

namespace Address

/-- the segments that an address has of its own: the path `/` has none -/
def root (a : Address) : List String := if a.path == [""] then [] else a.path

variable {a : Address} {s : String}

theorem push_of_isDots (h : isDots s = true) : a.push s = a := by
  unfold push
  exact if_pos h

theorem push_scheme (a : Address) (s : String) : (a.push s).scheme = a.scheme := by
  unfold push
  split_ifs <;> rfl

theorem push_query (a : Address) (s : String) : (a.push s).query = a.query := by
  unfold push
  split_ifs <;> rfl

/-- an added segment follows those before it -/
theorem push_path (hdots : isDots s = false) (hblank : ∀ c ∈ s.toList, isBlank c = false)
    (hdrive : a.root ≠ [] ∨ isDrive (encodeSegment a.scheme s).toList = false) :
    (a.push s).path = a.root ++ [encodeSegment a.scheme s] := by
  have hkept : s.toList.filter (fun c => c != '\t' && c != '\n' && c != '\r') = s.toList := by
    apply List.filter_eq_self.2
    intro c hc
    have hother : ∀ d, isBlank d = true → c ≠ d := by
      rintro d hd rfl
      rw [hblank c hc] at hd
      cases hd
    simp [hother '\t' (by decide), hother '\n' (by decide), hother '\r' (by decide)]
  have hroot : (if a.path == [""] then [] else a.path.map String.toList) = a.root.map String.toList := by
    unfold root
    split_ifs <;> rfl
  have hadd : addSegment (schemeKind a.scheme) (a.root.map String.toList) (encodeSegment a.scheme s).toList true =
      a.root.map String.toList ++ [(encodeSegment a.scheme s).toList] := by
    apply addSegment_eq
    · exact beq_eq_false_iff_ne.2 (plainDots_encodeSegment hdots (Or.inr rfl))
    · exact beq_eq_false_iff_ne.2 (plainDots_encodeSegment hdots (Or.inl rfl))
    · rcases hdrive with h | h
      · exact Or.inl (by simpa using h)
      · exact Or.inr h
  have hlist : (encodeSegment a.scheme s).toList =
      percentEncode (keptInSegment (schemeKind a.scheme).isSpecial) s.toList := String.toList_ofList
  unfold push
  rw [if_neg (by rw [← isDots, hdots]; exact Bool.false_ne_true)]
  simp only [hkept, hroot, ← hlist, hadd, List.map_append, List.map_map, List.map_cons, List.map_nil]
  simp

/-- an address with segments of its own, not the path `/` and not the empty one -/
def HasRoot (a : Address) : Prop := a.path ≠ [] ∧ a.path ≠ [""]

theorem HasRoot.root_eq (h : a.HasRoot) : a.root = a.path := by
  unfold root
  exact if_neg (by simpa using h.2)

/-- **Segments that are added follow in their order, dot segments left out.** -/
theorem pushAll_path (h : a.HasRoot) {ss : List String} (hblank : ∀ s ∈ ss, ∀ c ∈ s.toList, isBlank c = false) :
    (a.pushAll ss).path = a.path ++ (ss.filter fun s => !isDots s).map (encodeSegment a.scheme) := by
  induction ss generalizing a with
  | nil => simp [pushAll]
  | cons s ss ih =>
    have hrest : ∀ t ∈ ss, ∀ c ∈ t.toList, isBlank c = false := fun t ht => hblank t (List.mem_cons_of_mem s ht)
    have hstep : a.pushAll (s :: ss) = (a.push s).pushAll ss := rfl
    rw [hstep]
    cases hdots : isDots s with
    | true =>
      rw [push_of_isDots hdots, ih h hrest]
      simp [hdots]
    | false =>
      have hroot : a.root ≠ [] := by
        rw [h.root_eq]
        exact h.1
      have hpath := push_path hdots (hblank s List.mem_cons_self) (Or.inl hroot)
      rw [h.root_eq] at hpath
      have hnext : (a.push s).HasRoot := by
        unfold HasRoot
        rw [hpath]
        refine ⟨by simp, ?_⟩
        intro hsingle
        have hlength := congrArg List.length hsingle
        simp only [List.length_append, List.length_cons, List.length_nil] at hlength
        exact h.1 (List.eq_nil_of_length_eq_zero (by omega))
      rw [ih hnext hrest, hpath, push_scheme]
      simp [hdots]

theorem pushAll_query (a : Address) (ss : List String) : (a.pushAll ss).query = a.query := by
  induction ss generalizing a with
  | nil => rfl
  | cons s ss ih => exact (ih (a.push s)).trans (push_query a s)

theorem unbrokenPath_pushAll (h : a.HasRoot) (hpath : UnbrokenPath a.path) {ss : List String}
    (hblank : ∀ s ∈ ss, ∀ c ∈ s.toList, isBlank c = false) : UnbrokenPath (a.pushAll ss).path := by
  intro p hp
  rw [pushAll_path h hblank, List.mem_append] at hp
  rcases hp with hp | hp
  · exact hpath p hp
  · obtain ⟨s, -, rfl⟩ := List.mem_map.1 hp
    exact unbroken_encodeSegment a.scheme s

end Address

/-! ## Targets -/

/-- the segments that a target names: its path divided at slashes, each part decoded -/
def namedSegments (target : String) : List (List UInt8) :=
  ((target.toList.takeWhile (· != '?')).splitOnP (· == '/')).tail.map percentDecode

/-- the query of a target -/
def queryOf (target : String) : List Char := (target.toList.dropWhile (· != '?')).tail

theorem toList_pathText (path : List String) : (Address.pathText path).toList = path.flatMap fun p => '/' :: p.toList := by
  have hslash : ∀ p : String, ("/" ++ p).toList = '/' :: p.toList := fun p => by simp
  rw [Address.pathText, String.toList_join, List.flatMap_map]
  simp only [hslash]

theorem splitOnP_append_path {p : List Char} (hp : Unbroken p) {path : List String} (h : UnbrokenPath path) :
    (p ++ path.flatMap fun q => '/' :: q.toList).splitOnP (· == '/') = p :: path.map String.toList := by
  have hslash : ∀ {q : List Char}, Unbroken q → ∀ c ∈ q, (c == '/') = false := by
    intro q hq c hc
    have hchar := List.all_eq_true.1 hq c hc
    simp only [isSegmentChar, Bool.and_eq_true, bne_iff_ne] at hchar
    exact beq_eq_false_iff_ne.2 hchar.1.1
  induction path generalizing p with
  | nil => rw [List.flatMap_nil, List.append_nil, List.splitOnP_eq_singleton (hslash hp), List.map_nil]
  | cons q path ih =>
    rw [List.flatMap_cons, List.cons_append, List.splitOnP_append_cons_of_forall_mem (hslash hp) '/' rfl,
      ih (h q List.mem_cons_self) fun r hr => h r (List.mem_cons_of_mem q hr), List.map_cons]

/-- a path starts with a slash, and its slashes stand between segments -/
theorem splitOnP_pathText {path : List String} (h : UnbrokenPath path) :
    (Address.pathText path).toList.splitOnP (· == '/') = [] :: path.map String.toList := by
  have hempty : Unbroken [] := rfl
  rw [toList_pathText]
  exact splitOnP_append_path hempty h

theorem question_not_mem_pathText {path : List String} (h : UnbrokenPath path) {c : Char}
    (hc : c ∈ (Address.pathText path).toList) : (c != '?') = true := by
  rw [toList_pathText] at hc
  obtain ⟨p, hp, hcp⟩ := List.mem_flatMap.1 hc
  rcases List.mem_cons.1 hcp with rfl | hcp
  · decide
  · have hchar := List.all_eq_true.1 (h p hp) c hcp
    simp only [isSegmentChar, Bool.and_eq_true] at hchar
    exact hchar.1.2

theorem toList_target (a : Address) :
    a.target.toList = (Address.pathText a.path).toList ++ a.query.elim [] ('?' :: ·.toList) := by
  unfold Address.target
  cases a.query <;> simp

theorem namedSegments_target {a : Address} (h : UnbrokenPath a.path) :
    namedSegments a.target = a.path.map fun p => percentDecode p.toList := by
  have hcut : (a.query.elim [] ('?' :: ·.toList)).takeWhile (· != '?') = [] := by
    cases a.query <;> simp
  rw [namedSegments, toList_target, List.takeWhile_append_of_pos fun c => question_not_mem_pathText h, hcut,
    List.append_nil, splitOnP_pathText h, List.tail_cons, List.map_map]
  rfl

theorem queryOf_target {a : Address} (h : UnbrokenPath a.path) : queryOf a.target = (a.query.getD "").toList := by
  have hcut : (a.query.elim [] ('?' :: ·.toList)).dropWhile (· != '?') = a.query.elim [] ('?' :: ·.toList) := by
    cases a.query <;> simp
  rw [queryOf, toList_target, List.dropWhile_append_of_pos fun c => question_not_mem_pathText h, hcut]
  cases a.query <;> simp

/-! ## Queries -/

/-- the pairs of a query -/
def queryPairs (query : List Char) : List (List Char) := query.splitOnP (· == '&')

/-- the pairs that an address has of its own -/
def Address.ownPairs (a : Address) : List (List Char) :=
  if (a.query.getD "").isEmpty then [] else queryPairs (a.query.getD "").toList

/-- a name and a value, as they stand in a query -/
def pairText (name value : String) : List Char := formEncode name.toList ++ '=' :: formEncode value.toList

theorem amp_not_mem_formEncode (s : List Char) : '&' ∉ formEncode s := by
  intro hmem
  obtain ⟨c, -, hc⟩ := List.mem_flatMap.1 hmem
  split at hc
  · exact absurd hc (by decide)
  · have hchar : '&' ∈ percentEncode keptInForm [c] := by simpa [percentEncode] using hc
    have hother := of_mem_percentEncode (fun d => d != '&') (by decide) (by decide) ?_ hchar
    · exact absurd hother (by decide)
    · intro d _ hkept
      rw [bne_iff_ne]
      rintro rfl
      exact absurd hkept (by decide)

theorem queryPairs_pairText (name value : String) : queryPairs (pairText name value) = [pairText name value] := by
  apply List.splitOnP_eq_singleton
  intro c hc
  rw [beq_eq_false_iff_ne]
  rintro rfl
  rcases List.mem_append.1 hc with hc | hc
  · exact amp_not_mem_formEncode _ hc
  · rcases List.mem_cons.1 hc with hc | hc
    · exact absurd hc (by decide)
    · exact amp_not_mem_formEncode _ hc

/-- a pair that is added comes after the others -/
theorem queryPairs_addQuery (a : Address) (name value : String) :
    queryPairs ((a.addQuery name value).query.getD "").toList = a.ownPairs ++ [pairText name value] := by
  have hpair : (String.ofList (formEncode name.toList) ++ "=" ++ String.ofList (formEncode value.toList)).toList =
      pairText name value := by
    simp [pairText]
  unfold Address.addQuery Address.ownPairs
  simp only
  cases hquery : a.query with
  | none =>
    rw [Option.getD_some, Option.getD_none, hpair, queryPairs_pairText]
    rfl
  | some q =>
    rw [Option.getD_some, Option.getD_some]
    split_ifs with hempty
    · rw [hpair, queryPairs_pairText]
      rfl
    · have hjoin : (q ++ "&" ++ (String.ofList (formEncode name.toList) ++ "=" ++
          String.ofList (formEncode value.toList))).toList = q.toList ++ '&' :: pairText name value := by
        rw [String.toList_append, String.toList_append, hpair]
        simp
      rw [hjoin, queryPairs, List.splitOnP_append_cons _ _ rfl, ← queryPairs, ← queryPairs, queryPairs_pairText]

end ClassAtlas.Web
