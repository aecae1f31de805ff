/-
Addresses and the locations they name: every location read from an address has a plain address that reads back as it, and
all the ways to spell that address read as the same location.

- `Location.Addressable`: what a location looks like that some address names; `addressable_of_parse`: nothing else is read.
- `Location.url`: the plain address of a location.
- `Spelling`: what is free when an address is written: the scheme or none, the case of scheme and host, slashes beyond the
  needed ones, `.git` after the repository, and whatever follows `?` or `#`. `parse_write`: none of it changes what is read.

`spellings_read_back` says both.
-/
import ClassAtlas.Proofs.Repository.Address
import ClassAtlas.Proofs.Text.Identifiers

namespace ClassAtlas.Repository

open ClassAtlas.Text

/-! ## Parts of an address -/

/-- characters that a part of an address can hold: no white space, and none that ends the part -/
def isPartChar (c : Char) : Bool := !isBlank c && c != '/' && c != '?' && c != '#'

/-- what can stand between two slashes of an address -/
def IsPart (p : List Char) : Prop := p ≠ [] ∧ p.all isPartChar = true

instance (p : List Char) : Decidable (IsPart p) := inferInstanceAs (Decidable (_ ∧ _))

theorem IsPart.of_mem {p : List Char} (h : IsPart p) {c : Char} (hc : c ∈ p) :
    isBlank c = false ∧ c ≠ '/' ∧ c ≠ '?' ∧ c ≠ '#' := by
  have hchar := List.all_eq_true.1 h.2 c hc
  simpa [isPartChar, and_assoc] using hchar

/-- parts with slashes after them, at least one after each but the last; `extra` counts the others, part by part -/
def slashed (extra : Nat → Nat) : List (List Char) → List Char
  | [] => []
  | [p] => p ++ List.replicate (extra 0) '/'
  | p :: q :: ps => p ++ List.replicate (extra 0 + 1) '/' ++ slashed (fun i => extra (i + 1)) (q :: ps)

theorem segments_slash (s : List Char) : segments (· == '/') ('/' :: s) = segments (· == '/') s :=
  segments_append_cons (s := []) rfl s

theorem segments_slashes (n : Nat) (s : List Char) :
    segments (· == '/') (List.replicate n '/' ++ s) = segments (· == '/') s := by
  induction n with
  | zero => rfl
  | succ n ih => rw [List.replicate_succ, List.cons_append, segments_slash, ih]

theorem segments_part {p : List Char} (h : IsPart p) : segments (· == '/') p = [p] := by
  refine segments_eq_singleton h.1 fun c hc => ?_
  simpa using (h.of_mem hc).2.1

/-- the slashes after a part divide it from the rest, however many there are -/
theorem segments_part_append {p : List Char} (h : IsPart p) (n : Nat) (s : List Char) :
    segments (· == '/') (p ++ List.replicate (n + 1) '/' ++ s) = p :: segments (· == '/') s := by
  rw [List.append_assoc, List.replicate_succ, List.cons_append, segments_append_cons rfl, segments_part h,
    segments_slashes]
  rfl

theorem segments_slashed {ps : List (List Char)} (h : ∀ p ∈ ps, IsPart p) (extra : Nat → Nat) :
    segments (· == '/') (slashed extra ps) = ps := by
  fun_induction slashed extra ps with
  | case1 => rfl
  | case2 extra p =>
    have hp : IsPart p := h p List.mem_cons_self
    cases extra 0 with
    | zero => rw [List.replicate_zero, List.append_nil, segments_part hp]
    | succ n =>
      have hdivided := segments_part_append hp n []
      rw [List.append_nil] at hdivided
      exact hdivided
  | case3 extra p q ps ih =>
    rw [segments_part_append (h p List.mem_cons_self), ih fun r hr => h r (List.mem_cons_of_mem p hr)]

theorem mem_slashed {ps : List (List Char)} {extra : Nat → Nat} {c : Char} (hc : c ∈ slashed extra ps) :
    c = '/' ∨ ∃ p ∈ ps, c ∈ p := by
  fun_induction slashed extra ps with
  | case1 => cases hc
  | case2 extra p =>
    rcases List.mem_append.1 hc with hc | hc
    · exact Or.inr ⟨p, List.mem_cons_self, hc⟩
    · exact Or.inl (List.eq_of_mem_replicate hc)
  | case3 extra p q ps ih =>
    rcases List.mem_append.1 hc with hc | hc
    · rcases List.mem_append.1 hc with hc | hc
      · exact Or.inr ⟨p, List.mem_cons_self, hc⟩
      · exact Or.inl (List.eq_of_mem_replicate hc)
    · rcases ih hc with hslash | ⟨r, hr, hcr⟩
      · exact Or.inl hslash
      · exact Or.inr ⟨r, List.mem_cons_of_mem p hr, hcr⟩

theorem slashed_eq_intercalate (ps : List (List Char)) : slashed (fun _ => 0) ps = ['/'].intercalate ps := by
  generalize hextra : (fun _ : Nat => 0) = extra
  fun_induction slashed extra ps with
  | case1 => rfl
  | case2 extra p => subst hextra; simp
  | case3 extra p q ps ih =>
    subst hextra
    rw [ih rfl, List.intercalate_cons_cons]
    simp

theorem isPart_of_mem_segments {s p : List Char} (hs : ∀ c ∈ s, isBlank c = false ∧ c ≠ '?' ∧ c ≠ '#')
    (hp : p ∈ segments (· == '/') s) : IsPart p := by
  obtain ⟨hne, hinside⟩ := of_mem_segments hp
  refine ⟨hne, List.all_eq_true.2 ?_⟩
  intro c hc
  have hslash := hinside c hc
  have hother := hs c ((infix_of_mem_segments hp).subset hc)
  simpa [isPartChar, hother] using hslash

/-! ## `.git` after the repository -/

/-- `.git`, a number of times -/
def gits (n : Nat) : List Char := (List.replicate n ".git".toList).flatten

theorem dropGitBackwards_suffix (s : List Char) : dropGitBackwards s <:+ s := by
  fun_induction dropGitBackwards s with
  | case1 r ih => exact ih.trans ⟨['t', 'i', 'g', '.'], rfl⟩
  | case2 s hs => exact List.suffix_rfl

theorem dropGit_isPrefix (s : List Char) : dropGit s <+: s := by
  rw [← List.reverse_suffix, dropGit, List.reverse_reverse]
  exact dropGitBackwards_suffix s.reverse

theorem not_git_prefix_dropGitBackwards (s : List Char) : ¬ ['t', 'i', 'g', '.'] <+: dropGitBackwards s := by
  fun_induction dropGitBackwards s with
  | case1 r ih => exact ih
  | case2 s hs =>
    rintro ⟨r, rfl⟩
    exact hs r rfl

/-- all of them are dropped -/
theorem not_git_suffix_dropGit (s : List Char) : ¬ ".git".toList <:+ dropGit s := by
  intro h
  rw [dropGit, ← List.reverse_prefix, List.reverse_reverse] at h
  exact not_git_prefix_dropGitBackwards s.reverse h

theorem dropGitBackwards_eq_self {s : List Char} (h : ¬ ['t', 'i', 'g', '.'] <+: s) : dropGitBackwards s = s := by
  fun_cases dropGitBackwards s with
  | case1 r => exact absurd ⟨r, rfl⟩ h
  | case2 s hs => rfl

theorem dropGit_git (s : List Char) : dropGit (s ++ ".git".toList) = dropGit s := by
  simp [dropGit, dropGitBackwards]

/-- and nothing else is -/
theorem dropGit_append_gits {s : List Char} (h : ¬ ".git".toList <:+ s) (n : Nat) : dropGit (s ++ gits n) = s := by
  induction n with
  | zero =>
    have hback : ¬ ['t', 'i', 'g', '.'] <+: s.reverse := by
      rw [← List.reverse_suffix, List.reverse_reverse]
      exact h
    rw [gits, List.replicate_zero, List.flatten_nil, List.append_nil, dropGit, dropGitBackwards_eq_self hback,
      List.reverse_reverse]
  | succ n ih =>
    have hlast : gits (n + 1) = gits n ++ ".git".toList := by
      rw [gits, List.replicate_succ', List.flatten_concat, ← gits]
    rw [hlast, ← List.append_assoc, dropGit_git, ih]

theorem isPart_append_gits {p : List Char} (h : IsPart p) (n : Nat) : IsPart (p ++ gits n) := by
  refine ⟨by simp [h.1], ?_⟩
  have hgit : ".git".toList.all isPartChar = true := by decide
  have hgits : (gits n).all isPartChar = true := by
    induction n with
    | zero => rfl
    | succ n ih => rw [gits, List.replicate_succ, List.flatten_cons, List.all_append, hgit, ← gits, ih]; rfl
  rw [List.all_append, h.2, hgits]
  rfl

/-! ## Locations -/

namespace Location

/-- a location that some address names -/
structure Addressable (l : Location) : Prop where
  owner : IsPart l.owner.toList
  repo : IsPart l.repo.toList
  ref : IsPart l.ref.toList
  noGit : ¬ ".git".toList <:+ l.repo.toList
  path : ∃ parts, (∀ p ∈ parts, IsPart p) ∧ l.path = String.ofList (['/'].intercalate parts)
  file : l.isFile = true → l.path ≠ ""

/-- the word that tells a file from a folder -/
def kind (l : Location) : String := if l.isFile then "blob" else "tree"

/-- the parts of the path -/
def pathParts (l : Location) : List (List Char) := segments (· == '/') l.path.toList

/-- the plain address of a location -/
def url (l : Location) : String :=
  "https://github.com/" ++ l.owner ++ "/" ++ l.repo ++ "/" ++ l.kind ++ "/" ++ l.ref ++
    if l.path.isEmpty then "" else "/" ++ l.path

variable {l : Location}

theorem isPart_kind (l : Location) : IsPart l.kind.toList := by
  unfold kind
  split <;> decide

theorem Addressable.pathParts (h : l.Addressable) :
    (∀ p ∈ l.pathParts, IsPart p) ∧ ['/'].intercalate l.pathParts = l.path.toList := by
  obtain ⟨parts, hparts, hpath⟩ := h.path
  have heq : l.pathParts = parts := by
    rw [Location.pathParts, hpath, String.toList_ofList, ← slashed_eq_intercalate, segments_slashed hparts]
  rw [heq, hpath, String.toList_ofList]
  exact ⟨hparts, rfl⟩

theorem Addressable.pathParts_ne_nil (h : l.Addressable) (hfile : l.isFile = true) : l.pathParts ≠ [] := by
  intro hnil
  have hpath := h.pathParts.2
  rw [hnil] at hpath
  exact h.file hfile (String.toList_eq_nil_iff.1 hpath.symm)

end Location

/-! ## What is read -/

/-- what the parts after the repository can be, and what they say -/
inductive RestNames (owner repo : String) : List (List Char) → Location → Prop where
  | root : RestNames owner repo [] ⟨owner, repo, defaultRef, "", false⟩
  | folder (ref : List Char) (path : List (List Char)) : RestNames owner repo ("tree".toList :: ref :: path)
      ⟨owner, repo, String.ofList ref, String.ofList (['/'].intercalate path), false⟩
  | file (ref : List Char) {path : List (List Char)} (hpath : path ≠ []) :
      RestNames owner repo ("blob".toList :: ref :: path)
        ⟨owner, repo, String.ofList ref, String.ofList (['/'].intercalate path), true⟩

theorem parseRest_eq_ok_iff {address owner repo : String} {rest : List (List Char)} {l : Location} :
    parseRest address owner repo rest = .ok l ↔ RestNames owner repo rest l := by
  constructor
  · intro h
    unfold parseRest at h
    split at h
    · cases h
      exact .root
    · rename_i kind rest
      split_ifs at h with hkind
      cases rest with
      | nil => cases h
      | cons ref path =>
        simp only at h
        split_ifs at h with hpath
        cases h
        by_cases hfile : kind = "blob".toList
        · subst hfile
          exact .file ref fun hnil => hpath (by rw [hnil]; decide)
        · simp only [Bool.or_eq_true, beq_iff_eq] at hkind
          obtain rfl := hkind.resolve_right hfile
          exact .folder ref path
  · intro h
    cases h with
    | root => rfl
    | folder ref path => simp [parseRest]
    | file ref hpath => simp [parseRest, hpath]

/-- what an address must look like to be read, and what is read from it -/
theorem parse_eq_ok_iff {address : String} {l : Location} :
    Location.parse address = .ok l ↔ ∃ host owner repo rest,
      addressParts (trim address.toList) = host :: owner :: repo :: rest ∧ isHost host = true ∧ dropGit repo ≠ [] ∧
        RestNames (String.ofList owner) (String.ofList (dropGit repo)) rest l := by
  constructor
  · intro h
    simp only [Location.parse] at h
    split_ifs at h
    split at h
    · cases h
    · rename_i host parts hparts
      split_ifs at h with hhost
      split at h
      · cases h
      · cases h
      · rename_i owner repo rest
        split_ifs at h with hrepo
        exact ⟨host, owner, repo, rest, hparts, hhost, by simpa using hrepo, parseRest_eq_ok_iff.1 h⟩
  · rintro ⟨host, owner, repo, rest, hparts, hhost, hrepo, hrest⟩
    have hne : (trim address.toList).isEmpty = false := by
      rw [List.isEmpty_eq_false_iff]
      intro hnil
      rw [hnil] at hparts
      cases hparts
    simp [Location.parse, hne, hparts, hhost, hrepo, parseRest_eq_ok_iff.2 hrest]

theorem isPart_of_mem_addressParts {s p : List Char} (hs : ∀ c ∈ s, isBlank c = false) (hp : p ∈ addressParts s) :
    IsPart p := by
  refine isPart_of_mem_segments (fun c hc => ?_) hp
  have hcut : ¬ (c = '?' ∨ c = '#') := by simpa using List.mem_takeWhile_imp hc
  rw [not_or] at hcut
  exact ⟨hs c ((dropScheme_suffix s).subset ((List.takeWhile_prefix _).subset hc)), hcut⟩

/-- **What is read from an address can be addressed.** -/
theorem addressable_of_parse {address : String} {l : Location} (hblank : ∀ c ∈ address.toList, isBlank c = false)
    (h : Location.parse address = .ok l) : l.Addressable := by
  obtain ⟨host, owner, repo, rest, hparts, -, hrepo, hrest⟩ := parse_eq_ok_iff.1 h
  rw [trim_eq_self hblank] at hparts
  have hpart : ∀ p ∈ host :: owner :: repo :: rest, IsPart p := by
    intro p hp
    rw [← hparts] at hp
    exact isPart_of_mem_addressParts hblank hp
  simp only [List.forall_mem_cons] at hpart
  obtain ⟨-, howner, hgit, hpart⟩ := hpart
  have hname : IsPart (dropGit repo) :=
    ⟨hrepo, List.all_eq_true.2 fun c hc => List.all_eq_true.1 hgit.2 c ((dropGit_isPrefix repo).subset hc)⟩
  have hclean := not_git_suffix_dropGit repo
  cases hrest with
  | root =>
    exact ⟨by simpa using howner, by simpa using hname, (by decide : IsPart defaultRef.toList), by simpa using hclean,
      ⟨[], by simp⟩, by simp⟩
  | folder ref path =>
    simp only [List.forall_mem_cons] at hpart
    exact ⟨by simpa using howner, by simpa using hname, by simpa using hpart.2.1, by simpa using hclean,
      ⟨path, hpart.2.2, rfl⟩, by simp⟩
  | @file ref path hpath =>
    simp only [List.forall_mem_cons] at hpart
    refine ⟨by simpa using howner, by simpa using hname, by simpa using hpart.2.1, by simpa using hclean,
      ⟨path, hpart.2.2, rfl⟩, ?_⟩
    -- the parts are found again in the joined path, so it is empty only if there are none
    intro _ hempty
    have hjoin : ['/'].intercalate path = [] := by simpa using hempty
    apply hpath
    rw [← segments_slashed hpart.2.2 fun _ => 0, slashed_eq_intercalate, hjoin]
    rfl

/-! ## Spellings -/

/-- what is free when the address of a location is written -/
structure Spelling where
  /-- `https://` or `http://` in any case, or nothing -/
  scheme : List Char
  /-- the host, with or without `www.`, in any case -/
  host : List Char
  /-- slashes after each part, beyond the one that divides it from the next -/
  slashes : Nat → Nat
  /-- how often `.git` follows the repository -/
  gitCount : Nat
  /-- what follows the parts, from `?` or `#` on -/
  suffix : List Char
  scheme_eq : scheme = [] ∨ sameIgnoringCase scheme "https://".toList = true ∨
    sameIgnoringCase scheme "http://".toList = true
  host_eq : sameIgnoringCase host "github.com".toList = true ∨ sameIgnoringCase host "www.github.com".toList = true
  suffix_start : suffix.head?.all (fun c => c == '?' || c == '#') = true
  suffix_unblank : suffix.all (fun c => !isBlank c) = true

namespace Spelling

/-- the plain spelling -/
def plain : Spelling where
  scheme := "https://".toList
  host := "github.com".toList
  slashes _ := 0
  gitCount := 0
  suffix := []
  scheme_eq := by decide
  host_eq := by decide
  suffix_start := rfl
  suffix_unblank := rfl

/-- the parts of the address of a location -/
def parts (sp : Spelling) (l : Location) : List (List Char) :=
  sp.host :: l.owner.toList :: (l.repo.toList ++ gits sp.gitCount) :: l.kind.toList :: l.ref.toList :: l.pathParts

/-- the address of a location -/
def write (sp : Spelling) (l : Location) : String :=
  String.ofList (sp.scheme ++ slashed sp.slashes (sp.parts l) ++ sp.suffix)

end Spelling

/-! ### Either case of a letter -/

theorem toLower_eq_self {c : Char} (h : isUpperAscii c = false) : c.toLower = c := by
  unfold Char.toLower
  rw [dif_neg]
  intro hrange
  simp only [isUpperAscii, Bool.and_eq_false_iff, decide_eq_false_iff_not] at h
  rcases h with h | h
  · exact h hrange.1
  · exact h hrange.2

/-- in a class that holds the capital letters, a text is in it if its small letters are -/
theorem all_of_sameIgnoringCase {ok : Char → Bool} (hupper : ∀ c, isUpperAscii c = true → ok c = true)
    {s t : List Char} (h : sameIgnoringCase s t = true) (ht : (t.map Char.toLower).all ok = true) : s.all ok = true := by
  have hlower : s.map Char.toLower = t.map Char.toLower := by simpa [sameIgnoringCase] using h
  rw [← hlower, List.all_map] at ht
  rw [List.all_eq_true] at ht ⊢
  intro c hc
  cases hc' : isUpperAscii c with
  | true => exact hupper c hc'
  | false =>
    have hsmall := ht c hc
    rwa [Function.comp_apply, toLower_eq_self hc'] at hsmall

theorem not_isBlank_of_isUpperAscii {c : Char} (h : isUpperAscii c = true) : isBlank c = false :=
  isBlank_eq_false isUpperAscii (by decide) h

theorem isPartChar_of_isUpperAscii {c : Char} (h : isUpperAscii c = true) : isPartChar c = true := by
  have hother : ∀ d, isUpperAscii d = false → c ≠ d := by
    rintro d hd rfl
    rw [h] at hd
    cases hd
  simp [isPartChar, not_isBlank_of_isUpperAscii h, hother '/' (by decide), hother '?' (by decide),
    hother '#' (by decide)]

/-! ### Scheme and query left out -/

theorem dropLead?_append {lead scheme : List Char} (h : sameIgnoringCase scheme lead = true) (s : List Char) :
    dropLead? lead (scheme ++ s) = some s := by
  have hlower : scheme.map Char.toLower = lead.map Char.toLower := by simpa [sameIgnoringCase] using h
  have hlength : lead.length = scheme.length := by simpa using (congrArg List.length hlower).symm
  rw [dropLead?, hlength, List.take_left, List.drop_left, if_pos h]

/-- a scheme is dropped only where the text starts with it, in small letters -/
theorem dropLead?_eq_none {lead s : List Char} (h : ¬ lead.map Char.toLower <+: s.map Char.toLower) :
    dropLead? lead s = none := by
  rw [dropLead?, if_neg]
  intro hsame
  apply h
  have hlower : (s.take lead.length).map Char.toLower = lead.map Char.toLower := by simpa [sameIgnoringCase] using hsame
  rw [← hlower]
  exact (List.take_prefix _ _).map _

theorem dropScheme_of_none {s : List Char} (hs : dropLead? "https://".toList s = none)
    (h : dropLead? "http://".toList s = none) : dropScheme s = s := by
  unfold dropScheme
  rw [hs, h]
  rfl

namespace Spelling

variable (sp : Spelling)

/-- neither host starts like a scheme -/
theorem dropScheme_host (s : List Char) : dropScheme (sp.host ++ s) = sp.host ++ s := by
  have hlower : sp.host.map Char.toLower = "github.com".toList ∨ sp.host.map Char.toLower = "www.github.com".toList := by
    have hgit : "github.com".toList.map Char.toLower = "github.com".toList := by decide
    have hwww : "www.github.com".toList.map Char.toLower = "www.github.com".toList := by decide
    simpa only [sameIgnoringCase, beq_iff_eq, hgit, hwww] using sp.host_eq
  have hscheme : "https://".toList.map Char.toLower = "https://".toList := by decide
  have hplain : "http://".toList.map Char.toLower = "http://".toList := by decide
  apply dropScheme_of_none
  · apply dropLead?_eq_none
    rw [hscheme, List.map_append]
    rcases hlower with h | h <;> rw [h] <;> simp
  · apply dropLead?_eq_none
    rw [hplain, List.map_append]
    rcases hlower with h | h <;> rw [h] <;> simp

theorem dropScheme_scheme (s : List Char) : dropScheme (sp.scheme ++ (sp.host ++ s)) = sp.host ++ s := by
  rcases sp.scheme_eq with h | h | h
  · rw [h, List.nil_append]
    exact sp.dropScheme_host s
  · unfold dropScheme
    rw [dropLead?_append h]
  · have hlower : sp.scheme.map Char.toLower = "http://".toList := by
      have hplain : "http://".toList.map Char.toLower = "http://".toList := by decide
      simpa only [sameIgnoringCase, beq_iff_eq, hplain] using h
    have hnone : dropLead? "https://".toList (sp.scheme ++ (sp.host ++ s)) = none := by
      have hscheme : "https://".toList.map Char.toLower = "https://".toList := by decide
      apply dropLead?_eq_none
      rw [hscheme, List.map_append, hlower]
      simp
    unfold dropScheme
    rw [hnone, dropLead?_append h]
    rfl

theorem isPart_host : IsPart sp.host := by
  rcases sp.host_eq with h | h
  all_goals
    refine ⟨?_, all_of_sameIgnoringCase (fun c => isPartChar_of_isUpperAscii) h (by decide)⟩
    intro hnil
    rw [hnil] at h
    exact absurd h (by decide)

theorem scheme_unblank : sp.scheme.all (fun c => !isBlank c) = true := by
  have hupper : ∀ c, isUpperAscii c = true → (!isBlank c) = true := fun c hc => by
    rw [not_isBlank_of_isUpperAscii hc]
    rfl
  rcases sp.scheme_eq with h | h | h
  · rw [h]
    rfl
  · exact all_of_sameIgnoringCase hupper h (by decide)
  · exact all_of_sameIgnoringCase hupper h (by decide)

variable {l : Location}

theorem isPart_of_mem_parts (hl : l.Addressable) {p : List Char} (hp : p ∈ sp.parts l) : IsPart p := by
  simp only [parts, List.mem_cons] at hp
  rcases hp with rfl | rfl | rfl | rfl | rfl | hp
  · exact sp.isPart_host
  · exact hl.owner
  · exact isPart_append_gits hl.repo sp.gitCount
  · exact l.isPart_kind
  · exact hl.ref
  · exact hl.pathParts.1 p hp

theorem of_mem_slashed_parts (hl : l.Addressable) {c : Char} (hc : c ∈ slashed sp.slashes (sp.parts l)) :
    isBlank c = false ∧ c ≠ '?' ∧ c ≠ '#' := by
  rcases mem_slashed hc with rfl | ⟨p, hp, hcp⟩
  · decide
  · have hpart := (sp.isPart_of_mem_parts hl hp).of_mem hcp
    exact ⟨hpart.1, hpart.2.2⟩

theorem write_unblank (hl : l.Addressable) : ∀ c ∈ (sp.write l).toList, isBlank c = false := by
  intro c hc
  rw [write, String.toList_ofList, List.mem_append, List.mem_append] at hc
  rcases hc with (hc | hc) | hc
  · simpa using List.all_eq_true.1 sp.scheme_unblank c hc
  · exact (sp.of_mem_slashed_parts hl hc).1
  · simpa using List.all_eq_true.1 sp.suffix_unblank c hc

/-- the scheme and the suffix are left out, and the slashes divide the parts -/
theorem addressParts_write (hl : l.Addressable) : addressParts (sp.write l).toList = sp.parts l := by
  have hhost : ∃ s, slashed sp.slashes (sp.parts l) = sp.host ++ s := ⟨_, List.append_assoc _ _ _⟩
  obtain ⟨s, hs⟩ := hhost
  have hscheme : dropScheme (sp.write l).toList = slashed sp.slashes (sp.parts l) ++ sp.suffix := by
    rw [write, String.toList_ofList, List.append_assoc, hs, List.append_assoc, sp.dropScheme_scheme]
  have hsuffix : sp.suffix.takeWhile (fun c => !(c == '?' || c == '#')) = [] := by
    have hstart := sp.suffix_start
    cases hcases : sp.suffix with
    | nil => rfl
    | cons c r =>
      rw [hcases] at hstart
      have hc : (c == '?' || c == '#') = true := by simpa using hstart
      rw [List.takeWhile_cons, hc]
      rfl
  have hkept : ∀ c ∈ slashed sp.slashes (sp.parts l), (!(c == '?' || c == '#')) = true := by
    intro c hc
    simpa using (sp.of_mem_slashed_parts hl hc).2
  rw [addressParts, hscheme, List.takeWhile_append_of_pos hkept, hsuffix, List.append_nil,
    segments_slashed fun p => sp.isPart_of_mem_parts hl]

end Spelling

theorem Location.Addressable.restNames {l : Location} (hl : l.Addressable) :
    RestNames l.owner l.repo (l.kind.toList :: l.ref.toList :: l.pathParts) l := by
  have hjoin : String.ofList (['/'].intercalate l.pathParts) = l.path := by
    rw [hl.pathParts.2, String.ofList_toList]
  have hne := hl.pathParts_ne_nil
  obtain ⟨owner, repo, ref, path, isFile⟩ := l
  cases isFile with
  | false =>
    have hfolder : RestNames owner repo _ _ := .folder ref.toList (Location.pathParts ⟨owner, repo, ref, path, false⟩)
    rwa [hjoin, String.ofList_toList] at hfolder
  | true =>
    have hfile : RestNames owner repo _ _ := .file ref.toList (hne rfl)
    rwa [hjoin, String.ofList_toList] at hfile

/-- **However it is spelled, an address names its location.** -/
theorem parse_write {l : Location} (hl : l.Addressable) (sp : Spelling) : Location.parse (sp.write l) = .ok l := by
  have hgit : dropGit (l.repo.toList ++ gits sp.gitCount) = l.repo.toList := dropGit_append_gits hl.noGit sp.gitCount
  have hhost : isHost sp.host = true := by
    rw [isHost, Bool.or_eq_true]
    exact sp.host_eq
  apply parse_eq_ok_iff.2
  refine ⟨sp.host, l.owner.toList, l.repo.toList ++ gits sp.gitCount, l.kind.toList :: l.ref.toList :: l.pathParts,
    ?_, hhost, ?_, ?_⟩
  · rw [trim_eq_self (sp.write_unblank hl), sp.addressParts_write hl]
    rfl
  · rw [hgit]
    exact hl.repo.1
  · rw [hgit, String.ofList_toList, String.ofList_toList]
    exact hl.restNames

/-- the characters of a plain address -/
theorem toList_url (l : Location) :
    l.url.toList = "https://".toList ++ ("github.com".toList ++ '/' :: (l.owner.toList ++ '/' :: (l.repo.toList ++
      '/' :: (l.kind.toList ++ '/' :: (l.ref.toList ++ if l.path.isEmpty then [] else '/' :: l.path.toList))))) := by
  have hlead : "https://github.com/".toList = "https://".toList ++ ("github.com".toList ++ ['/']) := by decide
  have hslash : "/".toList = ['/'] := by decide
  unfold Location.url
  split <;> simp only [String.toList_append, List.append_assoc] <;> rw [hlead, hslash] <;> simp

theorem intercalate_slash (p q : List Char) (ps : List (List Char)) :
    ['/'].intercalate (p :: q :: ps) = p ++ '/' :: ['/'].intercalate (q :: ps) := by
  rw [List.intercalate_cons_cons, List.append_assoc, List.singleton_append]

/-- the path follows after a slash, if there is one -/
theorem Location.Addressable.intercalate_cons {l : Location} (hl : l.Addressable) (p : List Char) :
    ['/'].intercalate (p :: l.pathParts) = p ++ if l.path.isEmpty then [] else '/' :: l.path.toList := by
  obtain ⟨hparts, hjoin⟩ := hl.pathParts
  have hempty : l.path.isEmpty = true ↔ l.pathParts = [] := by
    rw [String.isEmpty_iff, ← String.toList_eq_nil_iff]
    refine ⟨fun h => ?_, fun h => ?_⟩
    · rw [Location.pathParts, h]
      rfl
    · rw [← hjoin, h]
      rfl
  cases hcases : l.pathParts with
  | nil => rw [if_pos (hempty.2 hcases), List.append_nil, List.intercalate_singleton]
  | cons q ps => rw [if_neg (by simp [hempty, hcases]), intercalate_slash, ← hcases, hjoin]

theorem parts_plain (l : Location) :
    Spelling.plain.parts l =
      "github.com".toList :: l.owner.toList :: l.repo.toList :: l.kind.toList :: l.ref.toList :: l.pathParts := by
  have hgits : gits Spelling.plain.gitCount = [] := rfl
  rw [Spelling.parts, hgits, List.append_nil]
  rfl

theorem write_plain {l : Location} (hl : l.Addressable) : Spelling.plain.write l = l.url := by
  have hslashed : slashed Spelling.plain.slashes (Spelling.plain.parts l) = ['/'].intercalate (Spelling.plain.parts l) :=
    slashed_eq_intercalate _
  have hsuffix : Spelling.plain.suffix = [] := rfl
  apply String.toList_injective
  rw [toList_url, ← hl.intercalate_cons, ← intercalate_slash, ← intercalate_slash, ← intercalate_slash,
    ← intercalate_slash, ← parts_plain, Spelling.write, String.toList_ofList, hslashed, hsuffix, List.append_nil]
  rfl

/-- **Addresses and locations.** A location read from an address without white space is made of parts, and its plain
address reads back as it; the address of such a location, however it is spelled, reads as the location. -/
theorem spellings_read_back :
    (∀ (address : String) (l : Location), (∀ c ∈ address.toList, isBlank c = false) → Location.parse address = .ok l →
      l.Addressable ∧ Location.parse l.url = .ok l) ∧
    ∀ l : Location, l.Addressable → ∀ sp : Spelling, Location.parse (sp.write l) = .ok l := by
  refine ⟨?_, fun l hl sp => parse_write hl sp⟩
  intro address l hblank hparse
  have hl : l.Addressable := addressable_of_parse hblank hparse
  refine ⟨hl, ?_⟩
  rw [← write_plain hl]
  exact parse_write hl .plain

/-- capital letters, more slashes after each part than after the one before, `.git` twice, a query and a fragment -/
def Spelling.loud : Spelling where
  scheme := "HTTP://".toList
  host := "WWW.GitHub.com".toList
  slashes i := i
  gitCount := 2
  suffix := "?plain=1#L3".toList
  scheme_eq := by decide
  host_eq := by decide
  suffix_start := by decide
  suffix_unblank := by decide

theorem spellings_read_back_orders :
    Location.parse "GitHub.com/shop//orders.git/tree/main/src/" = .ok ⟨"shop", "orders", "main", "src", false⟩ ∧
      Location.parse "https://github.com/shop/orders/tree/main/src" = .ok ⟨"shop", "orders", "main", "src", false⟩ ∧
      Location.parse "HTTP://WWW.GitHub.com/shop//orders.git.git///tree////main/////src/////?plain=1#L3" =
        .ok ⟨"shop", "orders", "main", "src", false⟩ := by
  have hblank : "GitHub.com/shop//orders.git/tree/main/src/".toList.all (fun c => !isBlank c) = true := by decide
  have hparse : Location.parse "GitHub.com/shop//orders.git/tree/main/src/" =
      .ok ⟨"shop", "orders", "main", "src", false⟩ := by decide +kernel
  obtain ⟨hl, hurl⟩ := spellings_read_back.1 _ _ (by simpa using hblank) hparse
  refine ⟨hparse, hurl, ?_⟩
  exact spellings_read_back.2 _ hl .loud

end ClassAtlas.Repository
