/-
Loaded settings: what a file, the environment and the command line make of the defaults.

A file gives some of the fields. Each field is taken from the file or left at its default, whatever the other fields are,
and the result is checked. The token may be replaced afterwards, by the environment and then any number of times.

- `Says d path p`: what the file at a path says; a missing file says nothing.
- `Merges p s`: the fields of `s` but the token are those of the file, or the defaults.
- `TokenOf sources token`: the token is what the last source that gives one stands for.
- `FirstViolated s field reason`: the check that refuses `s`, and its complaint.
- `Loaded.withToken`, `Loaded.overrides`: replacing the token keeps all this, once and any number of times.
- `settings_loaded`: what loading gives if it succeeds, and why it fails if it fails.
-/
import ClassAtlas.Proofs.Text.Words
import ClassAtlas.Settings.Load

namespace ClassAtlas.Settings

open ClassAtlas.Files ClassAtlas.Text

/-! ## Fields -/

/-- a field read from what a file gives for it, or left at its default -/
structure TakenFrom {α : Type} (reads : α → α → Prop) (given : Option α) (default value : α) : Prop where
  ofFile : ∀ v, given = some v → reads v value
  ofDefault : given = none → value = default

/-- a text, less the slashes at its end -/
def WithoutSlashes (s t : String) : Prop :=
  (∃ n, s.toList = t.toList ++ List.replicate n '/') ∧ t.toList.getLast? ≠ some '/'

/-- every field but the token is what the file gives for it, or its default -/
structure Merges (p : Part) (s : Settings) : Prop where
  apiUrl : TakenFrom WithoutSlashes p.host.apiUrl "https://api.github.com" s.host.apiUrl
  userAgent : TakenFrom Eq p.host.userAgent "repolens/0.1.0" s.host.userAgent
  timeoutSecs : TakenFrom Eq p.host.timeoutSecs 30 s.host.timeoutSecs
  extension : TakenFrom Eq p.analysis.extension ".java" s.analysis.extension
  warn : TakenFrom Eq p.analysis.warn 5 s.analysis.thresholds.warn
  high : TakenFrom Eq p.analysis.high 10 s.analysis.thresholds.high

theorem takenFrom_getD {α : Type} (given : Option α) (default : α) :
    TakenFrom Eq given default (given.getD default) := by
  refine ⟨fun v h => ?_, fun h => ?_⟩
  · rw [h, Option.getD_some]
  · rw [h, Option.getD_none]

theorem withoutSlashes_dropSlashes (s : String) : WithoutSlashes s (dropSlashes s) := by
  obtain ⟨g, hg, hs⟩ := exists_dropEndWhile_append (· == '/') s.toList
  have hslashes : g = List.replicate g.length '/' :=
    List.eq_replicate_iff.2 ⟨rfl, fun c hc => by simpa using hg c hc⟩
  rw [WithoutSlashes, dropSlashes, String.toList_ofList]
  refine ⟨⟨g.length, ?_⟩, fun hlast => ?_⟩
  · rw [← hslashes]
    exact hs
  · exact absurd (not_of_getLast?_dropEndWhile hlast) (by decide)

theorem takenFrom_dropSlashes (given : Option String) (default : String) :
    TakenFrom WithoutSlashes given default ((given.map dropSlashes).getD default) := by
  refine ⟨fun url h => ?_, fun h => ?_⟩
  · rw [h, Option.map_some, Option.getD_some]
    exact withoutSlashes_dropSlashes url
  · rw [h, Option.map_none, Option.getD_none]

theorem merges_merge (p : Part) : Merges p p.merge :=
  ⟨takenFrom_dropSlashes _ _, takenFrom_getD _ _, takenFrom_getD _ _, takenFrom_getD _ _, takenFrom_getD _ _,
    takenFrom_getD _ _⟩

/-- an address without slashes at its end, from a file or by default -/
theorem Merges.getLast?_apiUrl {p : Part} {s : Settings} (h : Merges p s) : s.host.apiUrl.toList.getLast? ≠ some '/' := by
  cases hgiven : p.host.apiUrl with
  | some url => exact (h.apiUrl.ofFile url hgiven).2
  | none =>
    rw [h.apiUrl.ofDefault hgiven]
    decide

/-! ## Tokens -/

/-- what a token that is given stands for: what is left of it without white space around it, unless this is nothing or
the placeholder -/
def StandsFor (given : String) (token : Option String) : Prop :=
  ∃ g core g', given.toList = g ++ (core ++ g') ∧ (∀ c ∈ g ++ g', isBlank c = true) ∧ Trimmed core ∧
    token = if core = [] ∨ core = tokenPlaceholder.toList then none else some (String.ofList core)

/-- the last source that gives a token -/
def lastGiven (sources : List (Option String)) : Option String := (sources.filterMap id).getLast?

/-- the token is what the last source that gives one stands for -/
def TokenOf (sources : List (Option String)) (token : Option String) : Prop :=
  match lastGiven sources with
  | none => token = none
  | some given => StandsFor given token

theorem lastGiven_none (sources : List (Option String)) : lastGiven (sources ++ [none]) = lastGiven sources := by
  simp [lastGiven, List.filterMap_append]

theorem lastGiven_some (sources : List (Option String)) (given : String) :
    lastGiven (sources ++ [some given]) = some given := by
  simp [lastGiven, List.filterMap_append]

theorem standsFor_readToken (given : String) : StandsFor given (readToken given) := by
  obtain ⟨g, g', hg, hg', hgiven⟩ := exists_blanks_trim given.toList
  refine ⟨g, trim given.toList, g', hgiven, ?_, trimmed_trim _, ?_⟩
  · exact List.forall_mem_append.2 ⟨hg, hg'⟩
  · have hnone : ((String.ofList (trim given.toList)).isEmpty || String.ofList (trim given.toList) == tokenPlaceholder) = true ↔
        trim given.toList = [] ∨ trim given.toList = tokenPlaceholder.toList := by
      rw [Bool.or_eq_true, String.isEmpty_iff, String.ofList_eq_empty_iff, beq_iff_eq, ← String.toList_inj,
        String.toList_ofList]
    simp only [readToken]
    exact if_congr hnone rfl rfl

/-- a token that is used has no white space around it and is neither empty nor the placeholder -/
def UsableToken (token : Option String) : Prop :=
  ∀ t, token = some t → Trimmed t.toList ∧ t ≠ "" ∧ t ≠ tokenPlaceholder

theorem StandsFor.usable {given : String} {token : Option String} (h : StandsFor given token) : UsableToken token := by
  obtain ⟨g, core, g', -, -, htrimmed, rfl⟩ := h
  intro t ht
  split_ifs at ht with hnone
  obtain rfl := Option.some.inj ht
  obtain ⟨hempty, hplaceholder⟩ := not_or.1 hnone
  refine ⟨by rwa [String.toList_ofList], mt String.ofList_eq_empty_iff.1 hempty, fun heq => hplaceholder ?_⟩
  rw [← heq, String.toList_ofList]

theorem tokenOf_readToken (sources : List (Option String)) (given : String) :
    TokenOf (sources ++ [some given]) (readToken given) := by
  rw [TokenOf, lastGiven_some]
  exact standsFor_readToken given

theorem tokenOf_bind (given : Option String) : TokenOf [given] (given.bind readToken) := by
  cases given with
  | none => exact rfl
  | some t =>
    rw [Option.bind_some]
    exact tokenOf_readToken [] t

theorem TokenOf.usable {sources : List (Option String)} {token : Option String} (h : TokenOf sources token) :
    UsableToken token := by
  rw [TokenOf] at h
  split at h
  · intro t ht
    rw [h] at ht
    cases ht
  · exact h.usable

/-! ## Checks -/

/-- a dot, and something behind it -/
def IsExtension (s : String) : Prop := s.toList.head? = some '.' ∧ 2 ≤ s.utf8ByteSize

/-- the first check that settings do not pass: the field it is about, and what it asks for -/
inductive FirstViolated (s : Settings) : String → String → Prop
  | timeout (zero : s.host.timeoutSecs = 0) : FirstViolated s "github.timeout_secs" "must be positive"
  | extension (timeout : 0 < s.host.timeoutSecs) (bad : ¬ IsExtension s.analysis.extension) :
    FirstViolated s "analysis.extension" "must start with '.'"
  | thresholds (timeout : 0 < s.host.timeoutSecs) (extension : IsExtension s.analysis.extension)
      (crossed : s.analysis.thresholds.high < s.analysis.thresholds.warn) :
    FirstViolated s "analysis.complexity_warn" "must not exceed analysis.complexity_high"

/-- what holds of all settings that are loaded -/
structure Valid (s : Settings) : Prop where
  timeout : 0 < s.host.timeoutSecs
  extension : IsExtension s.analysis.extension
  thresholds : s.analysis.thresholds.warn ≤ s.analysis.thresholds.high
  apiUrl : s.host.apiUrl.toList.getLast? ≠ some '/'
  token : UsableToken s.host.token

/-- behind the dot, which takes one byte, one more character takes at least one more -/
theorem isExtension_iff {s : String} : isExtension s = true ↔ IsExtension s := by
  rw [isExtension, IsExtension, Bool.and_eq_true, beq_iff_eq, decide_eq_true_iff]
  refine and_congr_right fun hdot => ?_
  obtain ⟨r, hr⟩ := List.head?_eq_some_iff.1 hdot
  have hsize : s.utf8ByteSize = 1 + (String.ofList r).utf8ByteSize := by
    have hs : s = "." ++ String.ofList r := by
      rw [← String.toList_inj, hr]
      simp
    rw [hs, String.utf8ByteSize_append]
    rfl
  have hempty : (String.ofList r).utf8ByteSize = 0 ↔ r.length = 0 := by
    rw [String.utf8ByteSize_eq_zero_iff, String.ofList_eq_empty_iff, List.length_eq_zero_iff]
  rw [hr, List.length_cons]
  omega

theorem check_cases (s : Settings) :
    (s.check = .ok s ∧ 0 < s.host.timeoutSecs ∧ IsExtension s.analysis.extension ∧
        s.analysis.thresholds.warn ≤ s.analysis.thresholds.high) ∨
      ∃ field reason, FirstViolated s field reason ∧ s.check = .error (.invalidValue field reason) := by
  rw [check]
  split_ifs with htimeout hextension hthresholds
  · exact Or.inr ⟨_, _, .timeout (by simpa using htimeout), rfl⟩
  all_goals have hpositive : 0 < s.host.timeoutSecs := Nat.pos_of_ne_zero (by simpa using htimeout)
  · refine Or.inr ⟨_, _, .extension hpositive fun hgood => ?_, rfl⟩
    rw [isExtension_iff.2 hgood] at hextension
    exact absurd hextension (by decide)
  all_goals have hgood : IsExtension s.analysis.extension := isExtension_iff.1 (by simpa using hextension)
  · exact Or.inr ⟨_, _, .thresholds hpositive hgood hthresholds, rfl⟩
  · exact Or.inl ⟨rfl, hpositive, hgood, Nat.le_of_not_lt hthresholds⟩

/-- the defaults pass the checks -/
theorem check_defaults : ({} : Part).merge.check = .ok {} := by
  decide

/-! ## Sources one after the other -/

section WithToken

-- by unfolding and not by `rfl`, which would compare the tokens as well and compute them
variable (s : Settings) (token : String)

theorem token_withToken : (s.withToken token).host.token = readToken token := by
  simp only [withToken]

theorem apiUrl_withToken : (s.withToken token).host.apiUrl = s.host.apiUrl := by
  simp only [withToken]

theorem userAgent_withToken : (s.withToken token).host.userAgent = s.host.userAgent := by
  simp only [withToken]

theorem timeoutSecs_withToken : (s.withToken token).host.timeoutSecs = s.host.timeoutSecs := by
  simp only [withToken]

end WithToken

theorem Merges.withToken {p : Part} {s : Settings} (h : Merges p s) (token : String) : Merges p (s.withToken token) := by
  refine ⟨?_, ?_, ?_, h.extension, h.warn, h.high⟩
  · rw [apiUrl_withToken]
    exact h.apiUrl
  · rw [userAgent_withToken]
    exact h.userAgent
  · rw [timeoutSecs_withToken]
    exact h.timeoutSecs

/-- settings made from what a file says and from some sources of a token -/
structure Loaded (p : Part) (sources : List (Option String)) (s : Settings) : Prop where
  valid : Valid s
  merges : Merges p s
  token : TokenOf sources s.host.token

namespace Loaded

variable {p : Part} {sources : List (Option String)} {s : Settings}

theorem of_check (h : p.merge.check = .ok s) : Loaded p [p.host.token] s := by
  rcases check_cases p.merge with ⟨hok, htimeout, hextension, hthresholds⟩ | ⟨field, reason, -, herror⟩
  · obtain rfl : p.merge = s := Except.ok.inj (hok.symm.trans h)
    have htoken : TokenOf [p.host.token] p.merge.host.token := by
      simp only [Part.merge]
      exact tokenOf_bind p.host.token
    exact ⟨⟨htimeout, hextension, hthresholds, (merges_merge p).getLast?_apiUrl, htoken.usable⟩, merges_merge p, htoken⟩
  · rw [herror] at h
    cases h

theorem withToken (h : Loaded p sources s) (token : String) :
    Loaded p (sources ++ [some token]) (s.withToken token) := by
  have htoken : TokenOf (sources ++ [some token]) (s.withToken token).host.token := by
    rw [token_withToken]
    exact tokenOf_readToken sources token
  refine ⟨⟨?_, ?_, ?_, ?_, htoken.usable⟩, h.merges.withToken token, htoken⟩
  · rw [timeoutSecs_withToken]
    exact h.valid.timeout
  · exact h.valid.extension
  · exact h.valid.thresholds
  · rw [apiUrl_withToken]
    exact h.valid.apiUrl

theorem withEnvironment (h : Loaded p sources s) (env : Environment) :
    Loaded p (sources ++ [env.token]) (s.withEnvironment env) := by
  cases hgiven : env.token with
  | none =>
    have htoken : TokenOf (sources ++ [none]) s.host.token := by
      rw [TokenOf, lastGiven_none]
      exact h.token
    rw [Settings.withEnvironment, hgiven]
    exact ⟨h.valid, h.merges, htoken⟩
  | some token =>
    rw [Settings.withEnvironment, hgiven]
    exact h.withToken token

/-- any number of tokens, one after the other -/
theorem overrides (h : Loaded p sources s) (tokens : List String) :
    Loaded p (sources ++ tokens.map some) (tokens.foldl Settings.withToken s) := by
  induction tokens generalizing sources s with
  | nil => simpa using h
  | cons token tokens ih =>
    have hnext := ih (h.withToken token)
    rw [List.append_assoc, List.singleton_append] at hnext
    rw [List.map_cons, List.foldl_cons]
    exact hnext

end Loaded

/-! ## Loading -/

/-- what the file at a path says; a missing file says nothing -/
inductive Says (d : Disk) (path : String) : Part → Prop
  | missing (absent : d.holds path = false) : Says d path {}
  | file {content : String} {p : Part} (read : d.readText path = .ok content) (decoded : Part.parse content = some p) :
    Says d path p

theorem holds_of_readText {d : Disk} {path content : String} (h : d.readText path = .ok content) :
    d.holds path = true := by
  rw [Disk.readText, Disk.read] at h
  rw [Disk.holds]
  cases hplace : d.locate path with
  | error f =>
    rw [hplace] at h
    cases h
  | ok place =>
    rw [hplace] at h
    cases place with
    | found path node => rfl
    | free path => cases h

/-- a missing file is as good as one that gives no field -/
theorem found_eq_check {d : Disk} {path : String} {p : Part} (h : Says d path p) :
    (found? d path).elim (.ok {}) (ofRead path) = p.merge.check := by
  cases h with
  | missing absent =>
    rw [found?, absent]
    exact check_defaults.symm
  | file read decoded =>
    rw [found?, if_pos (holds_of_readText read), Option.elim_some, read, ofRead, decoded]

theorem load_eq_check {d : Disk} {env : Environment} {given : Option String} {p : Part}
    (h : Says d (settingsPath env given) p) : load d env given = p.merge.check.map (·.withEnvironment env) := by
  simp only [load, ofFound, found_eq_check h]
  cases p.merge.check <;> rfl

/-- **Settings are loaded field by field and always valid.** From a file that can be read and decoded, or none, loading
either succeeds or names the first check that the merged values do not pass. If it succeeds, then also after any number
of tokens from the command line the settings are valid, every field but the token is the file's or the default, and the
token is what the last of the file, the environment and the command line that gives one stands for. -/
theorem settings_loaded (d : Disk) (env : Environment) (given : Option String) (p : Part)
    (h : Says d (settingsPath env given) p) :
    (∀ s, load d env given = .ok s → ∀ tokens : List String,
        Loaded p (p.host.token :: env.token :: tokens.map some) (tokens.foldl withToken s)) ∧
      ∀ e, load d env given = .error e →
        ∃ merged field reason, Merges p merged ∧ FirstViolated merged field reason ∧ e = .invalidValue field reason := by
  rw [load_eq_check h]
  refine ⟨fun s hs tokens => ?_, fun e he => ?_⟩
  · cases hcheck : p.merge.check with
    | error e =>
      rw [hcheck] at hs
      cases hs
    | ok checked =>
      rw [hcheck] at hs
      obtain rfl : checked.withEnvironment env = s := Except.ok.inj hs
      exact ((Loaded.of_check hcheck).withEnvironment env).overrides tokens
  · rcases check_cases p.merge with ⟨hok, -⟩ | ⟨field, reason, hviolated, herror⟩
    · rw [hok] at he
      cases he
    · rw [herror] at he
      exact ⟨p.merge, field, reason, merges_merge p, hviolated, (Except.error.inj he).symm⟩

/-- a disk with one settings file -/
def diskWith (content : String) : Disk := { nodes := [(["config.toml"], .file (Utf8.encode content.toList))] }

/-- a file with an address and a token -/
def hostFile : String := "[github]\napi_url = \"https://ghe.example.com/api//\"\ntoken = \"file\"\n"

/-- a file with one threshold, above the default of the other -/
def warnFile : String := "[analysis]\ncomplexity_warn = 11\n"

theorem settings_loaded_samples :
    (∃ p s, Says (diskWith hostFile) "/config.toml" p ∧
      load (diskWith hostFile) { token := some " env " } (some "/config.toml") = .ok s ∧
      Loaded p [p.host.token, some " env ", some " last ", some " "] ([" last ", " "].foldl withToken s)) ∧
      ∃ p e, Says (diskWith warnFile) "/config.toml" p ∧ load (diskWith warnFile) {} (some "/config.toml") = .error e ∧
        ∃ merged field reason, Merges p merged ∧ FirstViolated merged field reason ∧ e = .invalidValue field reason := by
  have hhost : Says (diskWith hostFile) "/config.toml"
      { host := { apiUrl := some "https://ghe.example.com/api//", token := some "file" } } := by
    have hread : (diskWith hostFile).readText "/config.toml" = .ok hostFile := by decide +kernel
    exact .file hread (by decide +kernel)
  have hwarn : Says (diskWith warnFile) "/config.toml" { analysis := { warn := some 11 } } := by
    have hread : (diskWith warnFile).readText "/config.toml" = .ok warnFile := by decide +kernel
    exact .file hread (by decide +kernel)
  -- the files are read above, so that only the merged values are left to compute
  have hok : load (diskWith hostFile) { token := some " env " } (some "/config.toml") =
      .ok { host := { apiUrl := "https://ghe.example.com/api", token := some "env" } } :=
    (load_eq_check hhost).trans (by decide +kernel)
  have herror : load (diskWith warnFile) {} (some "/config.toml") =
      .error (.invalidValue "analysis.complexity_warn" "must not exceed analysis.complexity_high") :=
    (load_eq_check hwarn).trans (by decide +kernel)
  refine ⟨⟨_, _, hhost, hok, ?_⟩, _, _, hwarn, herror, ?_⟩
  · exact (settings_loaded _ { token := some " env " } (some "/config.toml") _ hhost).1 _ hok [" last ", " "]
  · exact (settings_loaded _ {} (some "/config.toml") _ hwarn).2 _ herror

end ClassAtlas.Settings
