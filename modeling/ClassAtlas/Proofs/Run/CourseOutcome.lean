/-
What comes of a run that nothing disturbs, said of its address and of the host's answers.

- `Complete`: the address names a folder, the listing is there, and so is every listed file with the extension.
- `FilesOf`: the files that are then analysed, down to their order.
- `FirstFailure`: the earliest thing that goes wrong; for files, the first of the listing that cannot be fetched.
- `exists_course_ok_iff`, `course_of_complete`, `course_eq_error_iff`: a complete run gives the analysis of its files, and
  any other run ends with its first failure.
-/
import ClassAtlas.Proofs.Analysis
import ClassAtlas.Proofs.Repository.Selection
import ClassAtlas.Proofs.Run.Course

namespace ClassAtlas.Run

open ClassAtlas.Source ClassAtlas.Graph ClassAtlas.Repository

/-- the file at the path can be fetched -/
def Answers.Has (a : Answers) (l : Location) (p : String) : Prop := ∃ text, a.content l p = .ok text

/-- all that a run asks for is there -/
structure Complete (a : Answers) (extension url : String) (l : Location) (paths : List String) : Prop where
  folder : NamesFolder url l
  listing : a.listing l = .ok paths
  content : ∀ p ∈ paths, extension.toList <:+ p.toList → a.Has l p

/-- the listed files with the extension whose path names a class, each once and in the order of the listing -/
structure FilesOf (a : Answers) (extension : String) (l : Location) (paths : List String) (files : List SourceFile) :
    Prop where
  nodup : (files.map (·.path)).Nodup
  mem_paths_iff : ∀ p, p ∈ files.map (·.path) ↔
    p ∈ paths ∧ extension.toList <:+ p.toList ∧ isBlankName (className p) = false
  order : (files.map (·.path)).Pairwise fun p q => paths.idxOf p < paths.idxOf q
  content : ∀ f ∈ files, a.content l f.path = .ok f.content

/-- the earliest thing that goes wrong -/
inductive FirstFailure (a : Answers) (extension url : String) : RunError → Prop where
  | address {f : AddressFault} (h : Refused url f) : FirstFailure a extension url (.invalidUrl f.message)
  | listing {l : Location} {e : FetchError} (hl : NamesFolder url l) (h : a.listing l = .error e) :
      FirstFailure a extension url (.fetch e)
  /-- the first path of the listing that has the extension and cannot be fetched -/
  | content {l : Location} {earlier later : List String} {p : String} {e : FetchError} (hl : NamesFolder url l)
      (hpaths : a.listing l = .ok (earlier ++ p :: later)) (hp : extension.toList <:+ p.toList)
      (h : a.content l p = .error e) (hearlier : ∀ q ∈ earlier, extension.toList <:+ q.toList → a.Has l q) :
      FirstFailure a extension url (.fetch e)

/-- the patterns for the class of every listed file with the extension are accepted -/
def PatternsCompile (a : Answers) (setup : Setup) (url : String) : Prop :=
  ∀ l paths, NamesFolder url l → a.listing l = .ok paths →
    ∀ p ∈ paths, setup.extension.toList <:+ p.toList → isBlankName (className p) = false →
      setup.refusal (className p) = none

variable {a : Answers} {setup : Setup} {extension url : String} {l : Location} {paths todo : List String}
  {files : List SourceFile}

/-! ## Downloads -/

/-- the file at the path cannot be fetched -/
def Answers.lacks (a : Answers) (l : Location) (p : String) : Bool :=
  match a.content l p with
  | .error _ => true
  | .ok _ => false

theorem Answers.has_iff {p : String} : a.Has l p ↔ a.lacks l p = false := by
  unfold Has lacks
  cases a.content l p with
  | error e => simp
  | ok text => simp

theorem paths_of? (p text : String) :
    (SourceFile.of? p text).toList.map (·.path) = [p].filter fun p => !isBlankName (className p) := by
  unfold SourceFile.of?
  split_ifs with h
  · simp [h]
  · simp [h]

theorem content_of? {p text : String} {f : SourceFile} (h : f ∈ (SourceFile.of? p text).toList) :
    f.path = p ∧ f.content = text := by
  unfold SourceFile.of? at h
  split_ifs at h
  · simp only [Option.toList_some, List.mem_singleton] at h
    subst h
    exact ⟨rfl, rfl⟩
  · cases h

/-- a download that succeeds has every file, and keeps those whose path names a class -/
theorem Answers.of_download_ok (h : a.download l todo = .ok files) :
    (∀ p ∈ todo, a.Has l p) ∧ files.map (·.path) = todo.filter (fun p => !isBlankName (className p)) ∧
      ∀ f ∈ files, a.content l f.path = .ok f.content := by
  induction todo generalizing files with
  | nil =>
    cases h
    exact ⟨by simp, rfl, by simp⟩
  | cons p todo ih =>
    rw [download] at h
    cases hcontent : a.content l p with
    | error e => simp [hcontent] at h
    | ok text =>
      cases hrest : a.download l todo with
      | error e => simp [hcontent, hrest, Except.map] at h
      | ok more =>
        simp only [hcontent, hrest, Except.map, Except.ok.injEq] at h
        subst h
        obtain ⟨hhas, hpaths, hmore⟩ := ih hrest
        refine ⟨List.forall_mem_cons.2 ⟨⟨text, hcontent⟩, hhas⟩, ?_, fun f hf => ?_⟩
        · rw [List.map_append, paths_of?, hpaths, ← List.filter_append, List.singleton_append]
        · rcases List.mem_append.1 hf with hf | hf
          · obtain ⟨hpath, htext⟩ := content_of? hf
            rw [hpath, htext, hcontent]
          · exact hmore f hf

/-- a download fails with the first file that cannot be fetched -/
theorem Answers.download_eq_error_iff {e : FetchError} :
    a.download l todo = .error e ↔
      ∃ p, todo.find? (a.lacks l) = some p ∧ a.content l p = .error e := by
  induction todo with
  | nil => simp [download]
  | cons p todo ih =>
    rw [download]
    cases hcontent : a.content l p with
    | error e' =>
      have hlacks : a.lacks l p = true := by simp only [lacks, hcontent]
      rw [List.find?_cons_of_pos hlacks]
      simp [hcontent]
    | ok text =>
      have hhas : ¬ a.lacks l p = true := by simp [lacks, hcontent]
      rw [List.find?_cons_of_neg hhas, ← ih]
      cases a.download l todo <;> simp [Except.map]

/-- the same of the listing that the paths were taken from -/
theorem download_withExtension_eq_error_iff {e : FetchError} :
    a.download l (withExtension paths extension) = .error e ↔
      ∃ earlier p later, paths = earlier ++ p :: later ∧ extension.toList <:+ p.toList ∧ a.content l p = .error e ∧
        ∀ q ∈ earlier, extension.toList <:+ q.toList → a.Has l q := by
  rw [Answers.download_eq_error_iff]
  simp only [find?_withExtension, List.find?_eq_some_iff_append, Answers.has_iff]
  constructor
  · rintro ⟨p, ⟨hp, earlier, later, rfl, hearlier⟩, herror⟩
    refine ⟨earlier, p, later, rfl, ?_, herror, fun q hq hsuffix => ?_⟩
    · simp only [Bool.and_eq_true, decide_eq_true_eq] at hp
      exact hp.1
    · simpa [hsuffix] using hearlier q hq
  · rintro ⟨earlier, p, later, rfl, hp, herror, hearlier⟩
    refine ⟨p, ⟨?_, earlier, later, rfl, fun q hq => ?_⟩, herror⟩
    · simp [hp, Answers.lacks, herror]
    · by_cases hsuffix : extension.toList <:+ q.toList
      · simp [hearlier q hq hsuffix]
      · simp [hsuffix]

theorem filesOf_download (h : a.download l (withExtension paths extension) = .ok files) :
    FilesOf a extension l paths files := by
  obtain ⟨-, hpaths, hcontent⟩ := Answers.of_download_ok h
  refine ⟨?_, fun p => ?_, ?_, hcontent⟩ <;> rw [hpaths]
  · exact (withExtension_nodup paths extension).filter _
  · rw [List.mem_filter, mem_withExtension, Bool.not_eq_true', and_assoc]
  · exact (withExtension_pairwise paths extension).filter _

/-! ## The outcome -/

theorem conclude_eq_ofFiles (h : ∀ f ∈ files, setup.refusal f.className = none) :
    ∃ r, Analysis.ofFiles files = .ok r ∧ conclude setup files = .ok r :=
  ⟨_, ofFiles_eq_ok files, conclude_of_classes (tryReadClasses_eq_ok h)⟩

theorem refusal_of_filesOf (hcompile : PatternsCompile a setup url) (hl : NamesFolder url l)
    (hpaths : a.listing l = .ok paths) (hfiles : FilesOf a setup.extension l paths files) :
    ∀ f ∈ files, setup.refusal f.className = none := by
  intro f hf
  obtain ⟨hmem, hsuffix, hnamed⟩ := (hfiles.mem_paths_iff f.path).1 (List.mem_map_of_mem hf)
  exact hcompile l paths hl hpaths f.path hmem hsuffix hnamed

theorem course_of_firstFailure {e : RunError} (h : FirstFailure a setup.extension url e) :
    course a setup url = .error e := by
  cases h with
  | address h => exact course_of_refused (folderAt_eq_error_iff.2 h)
  | listing hl h => exact course_of_unlisted (folderAt_eq_ok_iff.2 hl) h
  | @content l earlier later p e hl hpaths hp h hearlier =>
    refine course_of_unfetched (folderAt_eq_ok_iff.2 hl) hpaths ?_
    exact download_withExtension_eq_error_iff.2 ⟨earlier, p, later, rfl, hp, h, hearlier⟩

theorem course_of_complete (hcompile : PatternsCompile a setup url) (h : Complete a setup.extension url l paths) :
    ∃ files r, FilesOf a setup.extension l paths files ∧ Presents files r ∧ course a setup url = .ok r := by
  cases hfiles : a.download l (withExtension paths setup.extension) with
  | error e =>
    obtain ⟨earlier, p, later, rfl, hp, herror, -⟩ := download_withExtension_eq_error_iff.1 hfiles
    obtain ⟨text, htext⟩ := h.content p (by simp) hp
    rw [htext] at herror
    cases herror
  | ok files =>
    have hof := filesOf_download hfiles
    obtain ⟨r, hr, hend⟩ := conclude_eq_ofFiles (refusal_of_filesOf hcompile h.folder h.listing hof)
    refine ⟨files, r, hof, presents_ofFiles hr, ?_⟩
    rw [course_of_files (folderAt_eq_ok_iff.2 h.folder) h.listing hfiles, hend]

/-- something goes wrong first, or all is there -/
theorem firstFailure_or_complete (a : Answers) (extension url : String) :
    (∃ e, FirstFailure a extension url e) ∨ ∃ l paths, Complete a extension url l paths := by
  cases hurl : folderAt url with
  | error f => exact Or.inl ⟨_, .address (folderAt_eq_error_iff.1 hurl)⟩
  | ok l =>
    have hl : NamesFolder url l := folderAt_eq_ok_iff.1 hurl
    cases hpaths : a.listing l with
    | error e => exact Or.inl ⟨_, .listing hl hpaths⟩
    | ok paths =>
      cases hfiles : a.download l (withExtension paths extension) with
      | error e =>
        obtain ⟨earlier, p, later, rfl, hp, herror, hearlier⟩ := download_withExtension_eq_error_iff.1 hfiles
        exact Or.inl ⟨_, .content hl hpaths hp herror hearlier⟩
      | ok files =>
        refine Or.inr ⟨l, paths, hl, hpaths, fun p hp hsuffix => ?_⟩
        exact (Answers.of_download_ok hfiles).1 p (mem_withExtension.2 ⟨hp, hsuffix⟩)

/-- **Which runs succeed.** -/
theorem exists_course_ok_iff (hcompile : PatternsCompile a setup url) :
    (∃ r, course a setup url = .ok r) ↔ ∃ l paths, Complete a setup.extension url l paths := by
  constructor
  · rintro ⟨r, hr⟩
    rcases firstFailure_or_complete a setup.extension url with ⟨e, he⟩ | hcomplete
    · rw [course_of_firstFailure he] at hr
      cases hr
    · exact hcomplete
  · rintro ⟨l, paths, h⟩
    obtain ⟨files, r, -, -, hr⟩ := course_of_complete hcompile h
    exact ⟨r, hr⟩

/-- **Why the others fail.** -/
theorem course_eq_error_iff (hcompile : PatternsCompile a setup url) {e : RunError} :
    course a setup url = .error e ↔ FirstFailure a setup.extension url e := by
  constructor
  · intro h
    rcases firstFailure_or_complete a setup.extension url with ⟨e', he'⟩ | ⟨l, paths, hcomplete⟩
    · rw [course_of_firstFailure he'] at h
      cases h
      exact he'
    · obtain ⟨files, r, -, -, hr⟩ := course_of_complete hcompile hcomplete
      rw [hr] at h
      cases h
  · exact course_of_firstFailure

end ClassAtlas.Run
