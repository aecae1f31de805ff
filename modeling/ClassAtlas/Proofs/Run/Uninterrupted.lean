/-
A run that is neither superseded nor cancelled, from its start to its end.

After any history a run is started, and then only steps happen: steps of older runs, whatever their hosts do, and steps of
the run itself, whose host lets it wait or gives the answers.

- `OnCourse`: the run is so many steps along its course, and the store holds its result as soon as it has one.
  `OnCourse.step` and `OnCourse.performAll`: it stays on course, and passes every stage on the way.
- `OnCourse.progress`: steps that are answered at once bring it forward, however they are interleaved with others.
- `uninterrupted_run`: the run ends; when it asks for the listing, when it publishes, what it publishes, and with which
  error it ends otherwise.
-/
import ClassAtlas.Proofs.Run.CourseOutcome
import ClassAtlas.Proofs.Run.Outcome
import ClassAtlas.Run.Want

namespace ClassAtlas.Run

open ClassAtlas.Source ClassAtlas.Repository

namespace System

/-- nothing but steps, and no step of run `g` sees anything but the answers -/
def Undisturbed (a : Answers) (g : Nat) (later : List Action) : Prop :=
  ∀ act ∈ later, ∃ g' host, act = .step g' host ∧ (g' = g → a.Fits host)

/-- the generation of a run started after a history -/
def nextGeneration (setup : Setup) (before : List Action) : Nat := (after setup before).generation + 1

/-- run `g` has ended with the outcome -/
def Ended (s : System) (g : Nat) (o : Outcome) : Prop := ∃ r ∈ s.runs, r.generation = g ∧ r.phase = .ended o

/-- run `g` asks a question next -/
def Asks (s : System) (g : Nat) (w : Want) : Prop := ∃ r ∈ s.runs, r.generation = g ∧ r.phase.want? = some w

/-- run `g` is current, not cancelled and `n` steps along its course; what it found replaces what was stored before -/
structure OnCourse (a : Answers) (setup : Setup) (url : String) (stored : Option Analysis) (g n : Nat) (s : System) :
    Prop where
  numbered : Numbered s
  current : s.generation = g
  run : ⟨g, url, false, Phase.courseAt a setup url n⟩ ∈ s.runs
  store : s.store = (Phase.courseAt a setup url n).result?.or stored

variable {a : Answers} {setup : Setup} {url : String} {stored : Option Analysis} {g n : Nat} {s : System}
  {later : List Action} {o : Outcome} {l : Location}

/-! ## The store -/

theorem store_stepped {r : Started} (hnum : Numbered s) (hr : r ∈ s.runs) (host : Host)
    (h : s.store = r.phase.result?.or stored) :
    (s.perform setup (.step r.generation host)).1.store = (stepped setup s host r).phase.result?.or stored := by
  have hevents : ∀ g b, Event.published g b ∈ (s.perform setup (.step r.generation host)).2 ↔
      g = r.generation ∧ Output.publish b ∈ (r.phase.step (s.sight host setup r)).2 := by
    intro g b
    rw [perform_step_of_mem hnum hr]
    exact published_mem_eventsOf
  by_cases hpub : ∃ b, Output.publish b ∈ (r.phase.step (s.sight host setup r)).2
  · obtain ⟨b, hb⟩ := hpub
    have hresult : (stepped setup s host r).phase.result? = some b := Phase.result?_step.2 (Or.inr hb)
    rw [store_of_published hnum ((hevents _ b).2 ⟨rfl, hb⟩), hresult]
    rfl
  · have hresult : (stepped setup s host r).phase.result? = r.phase.result? := by
      refine Option.ext fun b => ?_
      rw [stepped, Phase.result?_step]
      exact ⟨fun hb => hb.resolve_right fun hmem => hpub ⟨b, hmem⟩, Or.inl⟩
    rw [store_step_of_not_published hnum fun g b hmem => hpub ⟨b, ((hevents g b).1 hmem).2⟩, hresult, h]

/-- a run that is not current leaves the store alone -/
theorem store_step_of_stale {g' : Nat} (hnum : Numbered s) (hstale : g' ≠ s.generation) (host : Host) :
    (s.perform setup (.step g' host)).1.store = s.store := by
  refine store_step_of_not_published hnum fun g b hmem => ?_
  obtain ⟨host', hact, -, -, -, hcur, -⟩ := published_mem_perform hnum hmem
  cases hact
  exact hstale hcur

/-! ## One step -/

theorem onCourse_start (setup : Setup) (a : Answers) (url : String) (before : List Action) :
    OnCourse a setup url (after setup before).store (nextGeneration setup before) 0
      (after setup (before ++ [.start url])) := by
  refine ⟨numbered_after _, ?_, ?_, ?_⟩ <;> rw [after_snoc]
  · rfl
  · exact List.mem_append_right _ List.mem_cons_self
  · rfl

/-- its own step takes the run as far as the step goes -/
theorem OnCourse.own (h : OnCourse a setup url stored g n s) {host : Host} {m : Nat}
    (hm : ((Phase.courseAt a setup url n).step ⟨host, setup, url, true, false⟩).1 = Phase.courseAt a setup url m) :
    OnCourse a setup url stored g m (s.perform setup (.step g host)).1 := by
  have hsight : s.sight host setup ⟨g, url, false, Phase.courseAt a setup url n⟩ = ⟨host, setup, url, true, false⟩ := by
    simp [sight, h.current]
  have hnext : stepped setup s host ⟨g, url, false, Phase.courseAt a setup url n⟩ =
      ⟨g, url, false, Phase.courseAt a setup url m⟩ := by
    rw [stepped, hsight, hm]
  refine ⟨numbered_perform h.numbered _, (generation_step h.numbered host).trans h.current, ?_, ?_⟩
  · exact (mem_runs_step h.numbered h.run).2 (Or.inl hnext.symm)
  · rw [store_stepped h.numbered h.run host h.store, hnext]

/-- the steps of the other runs do not touch it -/
theorem OnCourse.other (h : OnCourse a setup url stored g n s) {g' : Nat} (hne : g' ≠ g) (host : Host) :
    OnCourse a setup url stored g n (s.perform setup (.step g' host)).1 := by
  refine ⟨numbered_perform h.numbered _, (generation_step h.numbered host).trans h.current, ?_, ?_⟩
  · rcases exists_run_or s g' with ⟨r, hr, rfl⟩ | hg
    · exact (mem_runs_step h.numbered hr).2 (Or.inr ⟨h.run, hne.symm⟩)
    · rw [perform_step_of_not_mem hg]
      exact h.run
  · rw [store_step_of_stale h.numbered (h.current ▸ hne) host]
    exact h.store

theorem OnCourse.answered (h : OnCourse a setup url stored g n s) :
    OnCourse a setup url stored g (n + 1) (s.perform setup (.step g a.host)).1 :=
  h.own (Phase.courseAt_succ n).symm

/-- **A step keeps the run on course.** -/
theorem OnCourse.step (h : OnCourse a setup url stored g n s) {g' : Nat} {host : Host} (hfits : g' = g → a.Fits host) :
    ∃ m, n ≤ m ∧ m ≤ n + 1 ∧ OnCourse a setup url stored g m (s.perform setup (.step g' host)).1 := by
  by_cases heq : g' = g
  · subst heq
    rcases Phase.step_of_fits (hfits rfl) (Phase.courseAt a setup url n) with hwait | hmove
    · exact ⟨n, Nat.le_refl n, Nat.le_succ n, h.own (by rw [hwait])⟩
    · exact ⟨n + 1, Nat.le_succ n, Nat.le_refl _, h.own (by rw [hmove, Phase.courseAt_succ])⟩
  · exact ⟨n, Nat.le_refl n, Nat.le_succ n, h.other heq host⟩

/-! ## Whole histories -/

/-- **The run stays on course,** and passes every stage on the way -/
theorem OnCourse.performAll (h : OnCourse a setup url stored g n s) (hlater : Undisturbed a g later) :
    ∃ m, n ≤ m ∧ OnCourse a setup url stored g m (s.performAll setup later).1 ∧ ∀ i, n ≤ i → i ≤ m →
      ∃ earlier, earlier <+: later ∧ OnCourse a setup url stored g i (s.performAll setup earlier).1 := by
  induction later generalizing s n with
  | nil =>
    refine ⟨n, Nat.le_refl n, h, fun i hn hm => ⟨[], List.prefix_rfl, ?_⟩⟩
    rw [Nat.le_antisymm hm hn]
    exact h
  | cons act later ih =>
    obtain ⟨hact, hrest⟩ := List.forall_mem_cons.1 hlater
    obtain ⟨g', host, rfl, hfits⟩ := hact
    obtain ⟨k, hnk, hkn, hk⟩ := h.step hfits
    obtain ⟨m, hkm, hm, hvisits⟩ := ih hk hrest
    refine ⟨m, Nat.le_trans hnk hkm, hm, fun i hn him => ?_⟩
    by_cases hki : k ≤ i
    · obtain ⟨earlier, hearlier, hi⟩ := hvisits i hki him
      exact ⟨_ :: earlier, List.cons_prefix_cons.2 ⟨rfl, hearlier⟩, hi⟩
    · -- the step went past this stage, so the run stood there before it
      refine ⟨[], List.nil_prefix, ?_⟩
      rw [show i = n by omega]
      exact h

/-- **Answered steps bring the run forward,** whatever happens between them -/
theorem OnCourse.progress (h : OnCourse a setup url stored g n s) (hlater : Undisturbed a g later) {k : Nat}
    (hk : (List.replicate k (Action.step g a.host)).Sublist later) :
    ∃ m, n + k ≤ m ∧ OnCourse a setup url stored g m (s.performAll setup later).1 := by
  induction later generalizing s n k with
  | nil =>
    have hzero : k = 0 := by simpa using hk
    exact ⟨n, by omega, h⟩
  | cons act later ih =>
    obtain ⟨hact, hrest⟩ := List.forall_mem_cons.1 hlater
    rcases List.sublist_cons_iff.1 hk with hskip | ⟨taken, htaken, hsub⟩
    · obtain ⟨g', host, rfl, hfits⟩ := hact
      obtain ⟨n', hn', -, hstep⟩ := h.step hfits
      obtain ⟨m, hm, hend⟩ := ih hstep hrest hskip
      exact ⟨m, by omega, hend⟩
    · cases k with
      | zero => cases htaken
      | succ k =>
        rw [List.replicate_succ] at htaken
        cases htaken
        obtain ⟨m, hm, hend⟩ := ih h.answered hrest hsub
        exact ⟨m, by omega, hend⟩

theorem onCourse_after (setup : Setup) (url : String) (before : List Action)
    (hlater : Undisturbed a (nextGeneration setup before) later) :
    ∃ m, OnCourse a setup url (after setup before).store (nextGeneration setup before) m
        (after setup (before ++ .start url :: later)) ∧
      ∀ i ≤ m, ∃ earlier, earlier <+: later ∧ OnCourse a setup url (after setup before).store
        (nextGeneration setup before) i (after setup (before ++ .start url :: earlier)) := by
  obtain ⟨m, -, hm, hvisits⟩ := (onCourse_start setup a url before).performAll hlater
  refine ⟨m, ?_, fun i hi => ?_⟩
  · rw [List.append_cons, after_append]
    exact hm
  · obtain ⟨earlier, hearlier, hi⟩ := hvisits i (Nat.zero_le i) hi
    refine ⟨earlier, hearlier, ?_⟩
    rw [List.append_cons, after_append]
    exact hi

/-! ## Where the run stands -/

theorem OnCourse.phase_eq (h : OnCourse a setup url stored g n s) {r : Started} (hr : r ∈ s.runs)
    (hg : r.generation = g) : r.phase = Phase.courseAt a setup url n := by
  rw [h.numbered.eq_of_generation_eq hr h.run hg]

theorem OnCourse.ended_iff (h : OnCourse a setup url stored g n s) :
    Ended s g o ↔ Phase.courseAt a setup url n = .ended o := by
  constructor
  · rintro ⟨r, hr, hg, hphase⟩
    rw [← h.phase_eq hr hg, hphase]
  · exact fun hphase => ⟨_, h.run, rfl, hphase⟩

theorem want?_eq_listing {p : Phase} : p.want? = some (.listing l) ↔ p = .entering (.list l) := by
  cases p with
  | entering next => cases next <;> simp [Phase.want?]
  | fetching l todo files => cases todo <;> simp [Phase.want?]
  | _ => simp [Phase.want?]

theorem OnCourse.asks_iff (h : OnCourse a setup url stored g n s) :
    Asks s g (.listing l) ↔ Phase.courseAt a setup url n = .entering (.list l) := by
  rw [← want?_eq_listing]
  constructor
  · rintro ⟨r, hr, hg, hwant⟩
    rw [← h.phase_eq hr hg, hwant]
  · exact fun hwant => ⟨_, h.run, rfl, hwant⟩

/-- a run that has ended has asked for the listing before, exactly if its address names a folder -/
theorem asks_listing_iff {before : List Action} (hlater : Undisturbed a (nextGeneration setup before) later)
    (hended : Ended (after setup (before ++ .start url :: later)) (nextGeneration setup before) o) :
    (∃ earlier, earlier <+: later ∧
        Asks (after setup (before ++ .start url :: earlier)) (nextGeneration setup before) (.listing l)) ↔
      NamesFolder url l := by
  rw [← folderAt_eq_ok_iff]
  constructor
  · rintro ⟨earlier, hearlier, hasks⟩
    obtain ⟨m, hm, -⟩ := onCourse_after setup url before fun act hact => hlater act (hearlier.subset hact)
    have hlisted : (Phase.courseAt a setup url m).toBeListed? = some l := by
      rw [hm.asks_iff.1 hasks]
      rfl
    exact Phase.folderAt_of_toBeListed hlisted
  · intro hl
    obtain ⟨m, hm, hvisits⟩ := onCourse_after setup url before hlater
    obtain ⟨i, hi⟩ : ∃ i, Phase.courseAt a setup url i = .entering (.list l) := Phase.leads_listing hl
    -- the end lies behind the listing
    have him : i ≤ m := by
      by_contra hlt
      have hend := Phase.courseAt_eq_ended (Nat.le_of_not_le hlt) (hm.ended_iff.1 hended)
      rw [hi] at hend
      cases hend
    obtain ⟨earlier, hearlier, hat⟩ := hvisits i him
    exact ⟨earlier, hearlier, hat.asks_iff.2 hi⟩

/-- what is to be said of the run that a history starts and later steps bring to its end -/
structure TookItsCourse (a : Answers) (setup : Setup) (url : String) (before later : List Action) (o : Outcome) :
    Prop where
  /-- the listing is asked for exactly if the address holds no white space and reads as a folder -/
  asks_iff : ∀ l, (∃ earlier, earlier <+: later ∧
    Asks (after setup (before ++ .start url :: earlier)) (nextGeneration setup before) (.listing l)) ↔
      NamesFolder url l
  /-- a result is published exactly if moreover the listing and all listed files with the extension are there -/
  publishes_iff : (∃ r, Event.published (nextGeneration setup before) r ∈
    log setup (before ++ .start url :: later)) ↔ ∃ l paths, Complete a setup.extension url l paths
  /-- it is the analysis of these files -/
  result : ∀ l paths, Complete a setup.extension url l paths → ∃ files r, FilesOf a setup.extension l paths files ∧
    Presents files r ∧ o = .ok r ∧
    Event.published (nextGeneration setup before) r ∈ log setup (before ++ .start url :: later)
  /-- otherwise the earliest failure is the error -/
  error_iff : ∀ e, o = .error e ↔ FirstFailure a setup.extension url e
  /-- and what was published before stays -/
  store : (after setup (before ++ .start url :: later)).store = o.toOption.or (after setup before).store

theorem tookItsCourse_of_ended {before : List Action} (hcompile : PatternsCompile a setup url)
    (hlater : Undisturbed a (nextGeneration setup before) later)
    (hended : Ended (after setup (before ++ .start url :: later)) (nextGeneration setup before) o) :
    TookItsCourse a setup url before later o := by
  obtain ⟨m, hm, -⟩ := onCourse_after setup url before hlater
  have hphase := hm.ended_iff.1 hended
  have hcourse : o = course a setup url := Phase.eq_course_of_ended hphase
  have hpublished : ∀ r, o = .ok r ↔ Event.published (nextGeneration setup before) r ∈
      log setup (before ++ .start url :: later) := by
    obtain ⟨q, hq, hgen, hqphase⟩ := hended
    rw [← hgen]
    exact outcome_iff_published hq (Phase.outcome?_eq_some.2 hqphase)
  refine ⟨fun l => asks_listing_iff hlater hended, ?_, fun l paths hcomplete => ?_, fun e => ?_, ?_⟩
  · rw [← exists_course_ok_iff hcompile, ← hcourse]
    exact exists_congr fun r => (hpublished r).symm
  · obtain ⟨files, r, hfiles, hshows, hr⟩ := course_of_complete hcompile hcomplete
    exact ⟨files, r, hfiles, hshows, hcourse.trans hr, (hpublished r).1 (hcourse.trans hr)⟩
  · rw [hcourse]
    exact course_eq_error_iff hcompile
  · rw [hm.store, hphase]
    cases o <;> rfl

/-- **An uninterrupted run, from its start to its end.** Whatever happened before the run, and however its steps are
interleaved with steps of older runs: enough answered steps bring it to its end, and then it has taken its course. -/
theorem uninterrupted_run (a : Answers) (setup : Setup) (url : String) (hcompile : PatternsCompile a setup url) :
    ∃ enough, ∀ before later, Undisturbed a (nextGeneration setup before) later →
      ((List.replicate enough (.step (nextGeneration setup before) a.host)).Sublist later →
        ∃ o, Ended (after setup (before ++ .start url :: later)) (nextGeneration setup before) o) ∧
      ∀ o, Ended (after setup (before ++ .start url :: later)) (nextGeneration setup before) o →
        TookItsCourse a setup url before later o := by
  obtain ⟨enough, hend⟩ := Phase.leads_course a setup url
  refine ⟨enough, fun before later hlater => ⟨fun hsteps => ?_, fun o => tookItsCourse_of_ended hcompile hlater⟩⟩
  obtain ⟨m, hm, hat⟩ := (onCourse_start setup a url before).progress hlater hsteps
  refine ⟨course a setup url, ?_⟩
  rw [List.append_cons, after_append]
  exact hat.ended_iff.2 (Phase.courseAt_eq_ended (by omega) hend)

/-- a listing that names a file twice, a file of another kind, and a file whose path names no class -/
def orderPaths : List String := ["src/Order.java", "README.md", "src/.java", "src/Order.java", "lib/Order.java"]

/-- a host that has all of them but the one that is not asked for -/
def orderAnswers : Answers where
  listing _ := .ok orderPaths
  content _ p := if p = "README.md" then .error (.notFound p) else .ok "abstract class Order { }"

/-- an engine that refuses the patterns for one name -/
def orderSetup : Setup where
  extension := ".java"
  refusal name := if name = "README" then some "refused" else none

theorem uninterrupted_run_orders :
    PatternsCompile orderAnswers orderSetup "GitHub.com/shop/orders" ∧
      Complete orderAnswers ".java" "GitHub.com/shop/orders" ⟨"shop", "orders", "HEAD", "", false⟩ orderPaths ∧
      ∃ enough files r, FilesOf orderAnswers ".java" ⟨"shop", "orders", "HEAD", "", false⟩ orderPaths files ∧
        Presents files r ∧
        Event.published 1 r ∈
          log orderSetup (.start "GitHub.com/shop/orders" :: List.replicate enough (.step 1 orderAnswers.host)) := by
  have hcompile : PatternsCompile orderAnswers orderSetup "GitHub.com/shop/orders" := by
    intro l paths _ hpaths
    cases hpaths
    decide
  have hblank : ("GitHub.com/shop/orders".toList.all fun c => !Text.isBlank c) = true := by decide
  have hcomplete : Complete orderAnswers ".java" "GitHub.com/shop/orders" ⟨"shop", "orders", "HEAD", "", false⟩
      orderPaths := by
    refine ⟨⟨by simpa using hblank, by decide, rfl⟩, rfl, fun p _ hp => ?_⟩
    have hother : p ≠ "README.md" := by
      rintro rfl
      exact absurd hp (by decide)
    exact ⟨_, if_neg hother⟩
  obtain ⟨enough, hruns⟩ := uninterrupted_run orderAnswers orderSetup "GitHub.com/shop/orders" hcompile
  have hlater : Undisturbed orderAnswers 1 (List.replicate enough (.step 1 orderAnswers.host)) := by
    intro act hact
    exact ⟨1, orderAnswers.host, List.eq_of_mem_replicate hact, fun _ => Answers.fits_host orderAnswers⟩
  obtain ⟨hends, htook⟩ := hruns [] _ hlater
  obtain ⟨o, ho⟩ := hends (List.Sublist.refl _)
  obtain ⟨files, r, hfiles, hshows, -, hpublished⟩ := (htook o ho).result _ _ hcomplete
  exact ⟨hcompile, hcomplete, enough, files, r, hfiles, hshows, hpublished⟩

end System

end ClassAtlas.Run
