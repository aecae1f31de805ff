/-
The course of a run that nothing disturbs.

A run is a machine of small steps that waits for answers and looks at its token and at the current generation over and over.
Left alone it does what `course` says in one piece: read the address, list, download, analyse.

- `Answers`: what a host has to say, one answer to each question; `Answers.Fits`: a host that gives these answers or lets
  the run wait.
- `Phase.leads_course`: the steps of a run that is current, not cancelled and answered lead to the outcome of `course`.
- `Phase.step_of_fits`: where the host lets it wait, a run stays where it is; otherwise it steps as if answered at once.
- `Phase.folderAt_of_toBeListed`: a run asks for a listing only if its address names the folder.
-/
import ClassAtlas.Proofs.Graph.Restriction
import ClassAtlas.Proofs.Repository.Address
import ClassAtlas.Run.Phase

namespace ClassAtlas.Run

open ClassAtlas.Source ClassAtlas.Graph ClassAtlas.Repository

/-- what a host has to say: one answer to each question, a result or an error -/
structure Answers where
  listing : Location → Except FetchError (List String)
  content : Location → String → Except FetchError String

namespace Answers

/-- the host that gives the answers at once -/
def host (a : Answers) : Host := ⟨fun l => .answer (a.listing l), fun l p => .answer (a.content l p)⟩

/-- a host that gives the answers or lets wait -/
structure Fits (a : Answers) (h : Host) : Prop where
  listing : ∀ l, h.listing l = .waiting ∨ h.listing l = .answer (a.listing l)
  content : ∀ l p, h.content l p = .waiting ∨ h.content l p = .answer (a.content l p)

theorem fits_host (a : Answers) : a.Fits a.host := ⟨fun _ => Or.inr rfl, fun _ _ => Or.inr rfl⟩

/-- the files at some paths, fetched one after the other until one fails -/
def download (a : Answers) (l : Location) : List String → Except FetchError (List SourceFile)
  | [] => .ok []
  | p :: todo =>
    match a.content l p with
    | .error e => .error e
    | .ok text => (a.download l todo).map ((SourceFile.of? p text).toList ++ ·)

end Answers

/-- the outcome of a run that has its files -/
def conclude (setup : Setup) (files : List SourceFile) : Outcome := do
  let classes ← (tryReadClasses setup.refusal files).mapError .internal
  let g ← (build classes).mapError .ofGraph
  return ⟨files.map (·.size), g.coupling, Diagram.ofGraph g⟩

/-- the outcome of a run that nothing disturbs -/
def course (a : Answers) (setup : Setup) (url : String) : Outcome := do
  let l ← (folderAt url).mapError .ofAddress
  let paths ← (a.listing l).mapError .fetch
  let files ← (a.download l (withExtension paths setup.extension)).mapError .fetch
  conclude setup files

/-- what a run sees that is current, not cancelled and answered at once -/
def undisturbedSight (a : Answers) (setup : Setup) (url : String) : Sight := ⟨a.host, setup, url, true, false⟩

section

variable {a : Answers} {setup : Setup} {url : String} {l : Location} {paths : List String} {files : List SourceFile}

theorem conclude_of_refusal {reason : String} (h : tryReadClasses setup.refusal files = .error reason) :
    conclude setup files = .error (.internal reason) := by
  rw [conclude, h]
  rfl

theorem conclude_of_classes {classes : List ClassInfo} (h : tryReadClasses setup.refusal files = .ok classes) :
    conclude setup files =
      .ok ⟨files.map (·.size), (assemble classes).coupling, Diagram.ofGraph (assemble classes)⟩ := by
  rw [conclude, h]
  simp only [Except.mapError, bind, Except.bind, build_eq_ok]
  rfl

theorem course_of_refused {f : AddressFault} (h : folderAt url = .error f) :
    course a setup url = .error (.ofAddress f) := by
  rw [course, h]
  rfl

theorem course_of_unlisted {e : FetchError} (hl : folderAt url = .ok l) (h : a.listing l = .error e) :
    course a setup url = .error (.fetch e) := by
  simp only [course, hl, Except.mapError, bind, Except.bind, h]

theorem course_of_unfetched {e : FetchError} (hl : folderAt url = .ok l) (hpaths : a.listing l = .ok paths)
    (h : a.download l (withExtension paths setup.extension) = .error e) : course a setup url = .error (.fetch e) := by
  simp only [course, hl, Except.mapError, bind, Except.bind, hpaths, h]

theorem course_of_files (hl : folderAt url = .ok l) (hpaths : a.listing l = .ok paths)
    (h : a.download l (withExtension paths setup.extension) = .ok files) :
    course a setup url = conclude setup files := by
  simp only [course, hl, Except.mapError, bind, Except.bind, hpaths, h]

end

namespace Phase

variable {v : Sight} {p q r : Phase} {a : Answers} {setup : Setup} {url : String} {l : Location}

/-! ## Sequences of steps -/

/-- where so many steps lead -/
def stepsOn (v : Sight) : Nat → Phase → Phase
  | 0, p => p
  | n + 1, p => stepsOn v n (p.step v).1

theorem stepsOn_add (m n : Nat) (p : Phase) : stepsOn v (m + n) p = stepsOn v n (stepsOn v m p) := by
  induction m generalizing p with
  | zero => rw [Nat.zero_add]; rfl
  | succ m ih => rw [Nat.succ_add]; exact ih _

theorem stepsOn_succ (n : Nat) (p : Phase) : stepsOn v (n + 1) p = ((stepsOn v n p).step v).1 := stepsOn_add n 1 p

/-- an ended run has come to rest -/
theorem stepsOn_eq_ended {m n : Nat} {o : Outcome} (hle : m ≤ n) (h : stepsOn v m p = .ended o) :
    stepsOn v n p = .ended o := by
  obtain ⟨k, rfl⟩ := Nat.exists_eq_add_of_le hle
  rw [stepsOn_add, h]
  clear hle
  induction k with
  | zero => rfl
  | succ k ih => exact ih

/-- some number of steps leads from one phase to another -/
def Leads (v : Sight) (p q : Phase) : Prop := ∃ n, stepsOn v n p = q

theorem Leads.trans (h : Leads v p q) (h' : Leads v q r) : Leads v p r := by
  obtain ⟨m, rfl⟩ := h
  obtain ⟨n, rfl⟩ := h'
  exact ⟨m + n, stepsOn_add m n p⟩

theorem leads_of_step (h : (p.step v).1 = q) : Leads v p q := ⟨1, h⟩

/-! ## The course, stage by stage -/

theorem leads_settling {e : RunError} (he : e.isInterruption = false) :
    Leads (undisturbedSight a setup url) (.settling e) (.ended (.error e)) := by
  refine ⟨2, ?_⟩
  simp [stepsOn, step, settle, undisturbedSight, he]

/-- a checkpoint does not hold the run up -/
theorem leads_checking (next : Stage) :
    Leads (undisturbedSight a setup url) (.checking next) (enter (undisturbedSight a setup url) next).1 := ⟨3, rfl⟩

theorem leads_relate (files : List SourceFile) :
    Leads (undisturbedSight a setup url) (.checking (.relate files (files.map (·.size))))
      (.ended (conclude setup files)) := by
  refine (leads_checking _).trans ?_
  cases hread : tryReadClasses setup.refusal files with
  | error reason =>
    have henter : (enter (undisturbedSight a setup url) (.relate files (files.map (·.size)))).1 =
        .settling (.internal reason) := by
      simp only [enter, undisturbedSight, hread]
    rw [henter, conclude_of_refusal hread]
    exact leads_settling rfl
  | ok classes =>
    have henter : (enter (undisturbedSight a setup url) (.relate files (files.map (·.size)))).1 =
        .checking (.draw (files.map (·.size)) (assemble classes)) := by
      simp only [enter, undisturbedSight, hread, build_eq_ok]
    rw [henter, conclude_of_classes hread]
    -- past the last checkpoint: draw, publish, report
    exact (leads_checking _).trans ⟨2, rfl⟩

/-- fetching goes on to the first failure, or until all files are there -/
theorem leads_fetching (l : Location) (todo : List String) (files : List SourceFile) :
    Leads (undisturbedSight a setup url) (.fetching l todo files)
      (match a.download l todo with
        | .error e => .settling (.fetch e)
        | .ok more => .checking (.measure (files ++ more))) := by
  induction todo generalizing files with
  | nil =>
    refine leads_of_step ?_
    simp only [step, fetch, Answers.download, List.append_nil]
  | cons p todo ih =>
    cases hcontent : a.content l p with
    | error e =>
      refine leads_of_step ?_
      simp [step, fetch, undisturbedSight, Answers.host, Answers.download, hcontent]
    | ok text =>
      have hstep : Leads (undisturbedSight a setup url) (.fetching l (p :: todo) files)
          (.fetching l todo (files ++ (SourceFile.of? p text).toList)) := by
        refine leads_of_step ?_
        simp [step, fetch, undisturbedSight, Answers.host, hcontent]
      refine hstep.trans ?_
      have hrest := ih (files ++ (SourceFile.of? p text).toList)
      rw [Answers.download, hcontent]
      cases hmore : a.download l todo with
      | error e => simpa [hmore, Except.map] using hrest
      | ok more => simpa [hmore, Except.map] using hrest

theorem leads_listing (hl : folderAt url = .ok l) :
    Leads (undisturbedSight a setup url) .opening (.entering (.list l)) := by
  refine ⟨4, ?_⟩
  simp [stepsOn, step, undisturbedSight, hl]

/-- **The course of an undisturbed run.** Its steps lead to the outcome. -/
theorem leads_course (a : Answers) (setup : Setup) (url : String) :
    Leads (undisturbedSight a setup url) .opening (.ended (course a setup url)) := by
  cases hl : folderAt url with
  | error f =>
    have hstop : Leads (undisturbedSight a setup url) .opening (.settling (.ofAddress f)) := by
      refine ⟨2, ?_⟩
      simp [stepsOn, step, undisturbedSight, hl]
    rw [course_of_refused hl]
    exact hstop.trans (leads_settling rfl)
  | ok l =>
    refine (leads_listing hl).trans ?_
    cases hpaths : a.listing l with
    | error e =>
      have hstop : Leads (undisturbedSight a setup url) (.entering (.list l)) (.settling (.fetch e)) := by
        refine leads_of_step ?_
        simp [step, enter, undisturbedSight, Answers.host, hpaths]
      rw [course_of_unlisted hl hpaths]
      exact hstop.trans (leads_settling rfl)
    | ok paths =>
      have hlisted : Leads (undisturbedSight a setup url) (.entering (.list l)) (.checking (.download l paths)) := by
        refine leads_of_step ?_
        simp [step, enter, undisturbedSight, Answers.host, hpaths]
      refine hlisted.trans ((leads_checking _).trans ?_)
      refine (leads_fetching l (withExtension paths setup.extension) []).trans ?_
      cases hfiles : a.download l (withExtension paths setup.extension) with
      | error e =>
        rw [course_of_unfetched hl hpaths hfiles]
        exact leads_settling rfl
      | ok files =>
        rw [course_of_files hl hpaths hfiles]
        exact (leads_checking _).trans (leads_relate files)

/-- where so many steps of its course bring an undisturbed run -/
def courseAt (a : Answers) (setup : Setup) (url : String) (n : Nat) : Phase :=
  stepsOn (undisturbedSight a setup url) n .opening

theorem courseAt_succ (n : Nat) :
    courseAt a setup url (n + 1) = ((courseAt a setup url n).step (undisturbedSight a setup url)).1 :=
  stepsOn_succ n .opening

theorem courseAt_eq_ended {m n : Nat} {o : Outcome} (hle : m ≤ n) (h : courseAt a setup url m = .ended o) :
    courseAt a setup url n = .ended o := stepsOn_eq_ended hle h

/-- an undisturbed run has no other outcome -/
theorem eq_course_of_ended {n : Nat} {o : Outcome} (h : courseAt a setup url n = .ended o) :
    o = course a setup url := by
  obtain ⟨m, hm⟩ := leads_course a setup url
  have hn := courseAt_eq_ended (Nat.le_max_left n m) h
  rw [courseAt_eq_ended (Nat.le_max_right n m) hm] at hn
  cases hn
  rfl

/-! ## Waiting -/

/-- where the host lets it wait a run stays as it is, and otherwise it steps as if answered at once -/
theorem step_of_fits {host : Host} (hfits : a.Fits host) (p : Phase) :
    p.step ⟨host, setup, url, true, false⟩ = (p, []) ∨
      p.step ⟨host, setup, url, true, false⟩ = p.step (undisturbedSight a setup url) := by
  cases p with
  | entering next =>
    cases next with
    | list l =>
      rcases hfits.listing l with hwait | hanswer
      · left
        simp [step, enter, hwait]
      · right
        simp [step, enter, undisturbedSight, Answers.host, hanswer]
    | _ => exact Or.inr rfl
  | fetching l todo files =>
    cases todo with
    | nil => exact Or.inr rfl
    | cons path todo =>
      rcases hfits.content l path with hwait | hanswer
      · left
        simp [step, fetch, hwait]
      · right
        simp [step, fetch, undisturbedSight, Answers.host, hanswer]
  | reporting o => cases o <;> exact Or.inr rfl
  | _ => exact Or.inr rfl

/-! ## The listing call -/

/-- the location a run is about to list -/
def toBeListed? : Phase → Option Location
  | .checking (.list l) => some l
  | .confirming (.list l) => some l
  | .entering (.list l) => some l
  | _ => none

theorem toBeListed?_step {v : Sight} {p : Phase} (h : (p.step v).1.toBeListed? = some l) :
    p.toBeListed? = some l ∨ folderAt v.url = .ok l := by
  cases p with
  | locating =>
    right
    simp only [step] at h
    cases hl : folderAt v.url with
    | error f => simp [hl, toBeListed?] at h
    | ok l' => simpa [hl, toBeListed?] using h
  | checking next =>
    left
    simp only [step] at h
    split_ifs at h
    · cases h
    · cases next <;> exact h
  | confirming next =>
    left
    simp only [step] at h
    split_ifs at h
    · cases next <;> exact h
    · cases h
  | entering next =>
    left
    -- past the checkpoint before the listing, only waiting for it keeps it ahead
    cases next with
    | list l' =>
      simp only [step, enter] at h
      split_ifs at h
      · cases h
      · cases hlisting : v.host.listing l' with
        | waiting => simpa [hlisting] using h
        | crash => simp [hlisting, toBeListed?] at h
        | answer result => cases result <;> simp [hlisting, toBeListed?] at h
    | relate files sizes =>
      simp only [step, enter, build_eq_ok] at h
      cases hread : tryReadClasses v.setup.refusal files <;> simp [hread, toBeListed?] at h
    | _ => cases h
  | fetching l' todo files =>
    cases todo with
    | nil => cases h
    | cons path todo =>
      simp only [step, fetch] at h
      split_ifs at h
      · cases h
      · cases hcontent : v.host.content l' path with
        | waiting => simp [hcontent, toBeListed?] at h
        | crash => simp [hcontent, toBeListed?] at h
        | answer result => cases result <;> simp [hcontent, toBeListed?] at h
  | publishing result =>
    simp only [step] at h
    split_ifs at h <;> cases h
  | settling e =>
    simp only [step] at h
    split_ifs at h <;> cases h
  | reporting o => cases o <;> cases h
  | _ => cases h

/-- a run asks for the listing of the folder that its address names -/
theorem folderAt_of_toBeListed {n : Nat} (h : (courseAt a setup url n).toBeListed? = some l) : folderAt url = .ok l := by
  induction n with
  | zero => cases h
  | succ n ih =>
    rw [courseAt_succ] at h
    rcases toBeListed?_step h with hbefore | hfolder
    · exact ih hbefore
    · exact hfolder

end Phase

end ClassAtlas.Run
