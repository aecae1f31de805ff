/-
What a step of the runs can do, said once.

- `Phase.Advance`: all that one step of a run can do, as far as publication and outcome go. A working run goes on working,
  publishes, is stopped by an error or breaks off; a stopped run settles its error by the current generation; then it
  reports and ends. `Phase.step_advance`: every step is one of these.
- `Phase.Crashes`: the request that a run makes where it stands brings it down; `Phase.step_of_crashes`: then it breaks off.
- `System.Numbered`: the generations of the runs are 1, 2, … up to the current one, so a generation names one run.
- `System.mem_runs_step`: a step of a run changes the phase of that run, and no other run.
- `System.after`, `System.log`: the system and all events after a history of actions; they follow the history step by step.
- `System.published_mem_perform`: what a publication takes.
- `System.perform_store`, `System.performAll_store`: what is in the store follows from the events.
-/
import Mathlib.Data.List.Nodup
import ClassAtlas.Run.System

namespace ClassAtlas.Run

open ClassAtlas.Repository

namespace Phase

/-- neither stopped nor done -/
def working : Phase → Bool
  | .settling _ => false
  | .reporting _ => false
  | .ended _ => false
  | _ => true

/-- the host does not survive the request that a run makes at the phase -/
inductive Crashes (host : Host) : Phase → Prop where
  | listing {l : Location} (h : host.listing l = .crash) : Crashes host (.entering (.list l))
  | content {l : Location} {path : String} {todo : List String} {files : List Source.SourceFile}
      (h : host.content l path = .crash) : Crashes host (.fetching l (path :: todo) files)

theorem Crashes.working {host : Host} {p : Phase} (h : p.Crashes host) : p.working = true := by
  cases h <;> rfl

/-- what one step can do: from one phase to another, with what it shows -/
inductive Advance (v : Sight) : Phase → Phase → List Output → Prop where
  | work {p q : Phase} {out : List Output} (hp : p.working = true) (hq : q.working = true)
      (hout : ∀ a, Output.publish a ∉ out) : Advance v p q out
  | publish {a : Analysis} (hcur : v.isCurrent = true) (htok : v.cancelled = false) :
      Advance v (.publishing a) (.reporting (.ok a)) [.publish a]
  /-- an error stops the run; it is an interruption only if the token or the generation says so -/
  | stop {p : Phase} {e : RunError} {out : List Output} (hp : p.working = true)
      (htok : e = .cancelled → v.cancelled = true) (hcur : e = .superseded → v.isCurrent = false)
      (hout : ∀ a, Output.publish a ∉ out) : Advance v p (.settling e) out
  /-- a run whose token is set makes no request -/
  | crash {p : Phase} (htok : v.cancelled = false) (hhost : p.Crashes v.host) : Advance v p (.ended (.error .crashed)) []
  | supersede {e : RunError} (hcur : v.isCurrent = false) :
      Advance v (.settling e) (.ended (.error .superseded)) []
  | cancel {e : RunError} (hcur : v.isCurrent = true) (he : e.isInterruption = true) :
      Advance v (.settling e) (.ended (.error .cancelled)) []
  | fail {e : RunError} (hcur : v.isCurrent = true) (he : e.isInterruption = false) :
      Advance v (.settling e) (.reporting (.error e)) []
  | report {o : Outcome} {message : String} : Advance v (.reporting o) (.ended o) [.say message]
  | rest {o : Outcome} : Advance v (.ended o) (.ended o) []

theorem enter_advance (v : Sight) (next : Stage) :
    Advance v (.entering next) (enter v next).1 (enter v next).2 := by
  cases next with
  | list l =>
    simp only [enter]
    split_ifs with htok
    · exact .stop rfl (fun _ => htok) (by simp) (by simp)
    · cases hl : v.host.listing l with
      | waiting => exact .work rfl rfl (by simp)
      | crash => exact .crash (by simpa using htok) (.listing hl)
      | answer result =>
        cases result with
        | error e => exact .stop rfl (by simp) (by simp) (by simp)
        | ok paths => exact .work rfl rfl (by simp)
  | download l paths => exact .work rfl rfl (by simp [enter])
  | measure files => exact .work rfl rfl (by simp [enter])
  | relate files sizes =>
    simp only [enter]
    cases tryReadClasses v.setup.refusal files with
    | error reason => exact .stop rfl (by simp) (by simp) (by simp)
    | ok classes =>
      simp only
      cases Graph.build classes with
      | error f => exact .stop rfl (by simp [RunError.ofGraph]) (by simp [RunError.ofGraph]) (by simp)
      | ok g => exact .work rfl rfl (by simp)
  | draw sizes g => exact .work rfl rfl (by simp [enter])

theorem fetch_advance (v : Sight) (l : Location) (files : List Source.SourceFile) (todo : List String) :
    Advance v (.fetching l todo files) (fetch v l files todo).1 (fetch v l files todo).2 := by
  cases todo with
  | nil => exact .work rfl rfl (by simp [fetch])
  | cons path todo =>
    simp only [fetch]
    split_ifs with htok
    · exact .stop rfl (fun _ => htok) (by simp) (by simp)
    · cases hl : v.host.content l path with
      | waiting => exact .work rfl rfl (by simp)
      | crash => exact .crash (by simpa using htok) (.content hl)
      | answer result =>
        cases result with
        | error e => exact .stop rfl (by simp) (by simp) (by simp)
        | ok text => exact .work rfl rfl (by simp)

theorem settle_of_current {e : RunError} (he : e.isInterruption = true) : settle true e = .cancelled := by
  simp [settle, he]

/-- **Every step is an advance.** -/
theorem step_advance (v : Sight) (p : Phase) : Advance v p (p.step v).1 (p.step v).2 := by
  cases p with
  | opening => exact .work rfl rfl (by simp [step])
  | locating =>
    simp only [step]
    cases folderAt v.url with
    | error f => exact .stop rfl (by simp [RunError.ofAddress]) (by simp [RunError.ofAddress]) (by simp)
    | ok l => exact .work rfl rfl (by simp)
  | checking next =>
    simp only [step]
    split_ifs with htok
    · exact .stop rfl (fun _ => htok) (by simp) (by simp)
    · exact .work rfl rfl (by simp)
  | confirming next =>
    simp only [step]
    split_ifs with hcur
    · exact .work rfl rfl (by simp)
    · exact .stop rfl (by simp) (fun _ => by simpa using hcur) (by simp)
  | entering next => exact enter_advance v next
  | fetching l todo files => exact fetch_advance v l files todo
  | publishing a =>
    simp only [step]
    split_ifs with hcur htok
    · exact .stop rfl (by simp) (fun _ => by simpa using hcur) (by simp)
    · exact .stop rfl (fun _ => htok) (by simp) (by simp)
    · exact .publish (by simpa using hcur) (by simpa using htok)
  | settling e =>
    cases hcur : v.isCurrent with
    | false =>
      simp only [step, settle, hcur, Bool.false_eq_true, if_false, RunError.isInterruption, if_true]
      exact .supersede hcur
    | true =>
      cases he : e.isInterruption with
      | true =>
        simp only [step, hcur, settle_of_current he, RunError.isInterruption, if_true]
        exact .cancel hcur he
      | false =>
        simp only [step, settle, hcur, he, if_true, Bool.false_eq_true, if_false]
        exact .fail hcur he
  | reporting o =>
    cases o with
    | ok a => exact .report
    | error e => exact .report
  | ended o => exact .rest

theorem step_of_crashes {v : Sight} {p : Phase} (htok : v.cancelled = false) (h : p.Crashes v.host) :
    p.step v = (.ended (.error .crashed), []) := by
  cases h with
  | listing h => simp [step, enter, htok, h]
  | content h => simp [step, fetch, htok, h]

theorem of_publish_mem {v : Sight} {p : Phase} {a : Analysis} (h : Output.publish a ∈ (p.step v).2) :
    p = .publishing a ∧ v.isCurrent = true ∧ v.cancelled = false ∧ p.step v = (.reporting (.ok a), [.publish a]) := by
  have hadv := step_advance v p
  generalize p.step v = next at hadv h ⊢
  obtain ⟨q, out⟩ := next
  cases hadv with
  | work _ _ hout => exact absurd h (hout a)
  | stop _ _ _ hout => exact absurd h (hout a)
  | publish hcur htok =>
    cases List.mem_singleton.1 h
    exact ⟨rfl, hcur, htok, rfl⟩
  | _ => simp at h

/-- a run that works after a step worked before it -/
theorem working_of_step {v : Sight} {p : Phase} (h : (p.step v).1.working = true) : p.working = true := by
  have hadv := step_advance v p
  generalize p.step v = next at hadv h
  obtain ⟨q, out⟩ := next
  cases hadv with
  | work hp _ _ => exact hp
  | _ => cases h

end Phase

namespace System

variable {setup : Setup} {s : System} {r : Started} {g : Nat}

/-! ## Generations -/

/-- the generations of the runs are 1, 2, … up to the current one -/
def Numbered (s : System) : Prop := s.runs.map (·.generation) = List.range' 1 s.generation

theorem numbered_fresh : Numbered fresh := rfl

theorem Numbered.nodup (h : Numbered s) : (s.runs.map (·.generation)).Nodup := by
  rw [h]
  exact List.nodup_range'

theorem Numbered.eq_of_generation_eq (h : Numbered s) {q : Started} (hq : q ∈ s.runs) (hr : r ∈ s.runs)
    (heq : q.generation = r.generation) : q = r :=
  List.inj_on_of_nodup_map h.nodup hq hr heq

theorem Numbered.generation_le (h : Numbered s) (hr : r ∈ s.runs) : r.generation ≤ s.generation := by
  have hmem : r.generation ∈ s.runs.map (·.generation) := List.mem_map_of_mem hr
  rw [h, List.mem_range'_1] at hmem
  omega

theorem Numbered.exists_run (h : Numbered s) (hpos : 1 ≤ g) (hle : g ≤ s.generation) :
    ∃ r ∈ s.runs, r.generation = g := by
  have hmem : g ∈ s.runs.map (·.generation) := by
    rw [h, List.mem_range'_1]
    omega
  exact List.mem_map.1 hmem

theorem Numbered.find? (h : Numbered s) (hr : r ∈ s.runs) :
    s.runs.find? (fun q => q.generation == r.generation) = some r :=
  Collect.find?_of_nodup h.nodup hr

/-! ## Starting, cancelling and clearing -/

theorem mem_cancelCurrent :
    r ∈ s.cancelCurrent ↔ ∃ q ∈ s.runs, r = if q.generation = s.generation then { q with cancelled := true } else q := by
  simp only [cancelCurrent, List.mem_map, beq_iff_eq]
  exact ⟨fun ⟨q, hq, heq⟩ => ⟨q, hq, heq.symm⟩, fun ⟨q, hq, heq⟩ => ⟨q, hq, heq.symm⟩⟩

theorem generations_cancelCurrent (s : System) : s.cancelCurrent.map (·.generation) = s.runs.map (·.generation) := by
  rw [cancelCurrent, List.map_map]
  refine List.map_congr_left fun q _ => ?_
  simp only [Function.comp_apply]
  split_ifs <;> rfl

/-- cancelling leaves a run where it stands, and its token set once it is -/
theorem of_mem_cancelCurrent (hr : r ∈ s.cancelCurrent) :
    ∃ q ∈ s.runs, r.generation = q.generation ∧ r.phase = q.phase ∧ (q.cancelled = true → r.cancelled = true) := by
  obtain ⟨q, hq, rfl⟩ := mem_cancelCurrent.1 hr
  split_ifs with hgen
  · exact ⟨q, hq, rfl, rfl, fun _ => rfl⟩
  · exact ⟨q, hq, rfl, rfl, id⟩

theorem cancelled_of_mem_cancelCurrent (hr : r ∈ s.cancelCurrent) (hgen : r.generation = s.generation) :
    r.cancelled = true := by
  obtain ⟨q, -, rfl⟩ := mem_cancelCurrent.1 hr
  split_ifs at hgen ⊢ with h
  · rfl
  · exact absurd hgen h

/-! ## Steps of a run -/

theorem perform_step_of_not_mem {host : Host} (hg : ∀ r ∈ s.runs, r.generation ≠ g) :
    s.perform setup (.step g host) = (s, []) := by
  have hnone : s.runs.find? (fun r => r.generation == g) = none := by
    rw [List.find?_eq_none]
    intro r hr
    simpa using hg r hr
  simp only [perform, move, hnone]

/-- the run with its next phase -/
def stepped (setup : Setup) (s : System) (host : Host) (r : Started) : Started :=
  { r with phase := (r.phase.step (s.sight host setup r)).1 }

theorem perform_step_of_mem (h : Numbered s) (hr : r ∈ s.runs) (host : Host) :
    s.perform setup (.step r.generation host) =
      let events := eventsOf r (stepped setup s host r).phase (r.phase.step (s.sight host setup r)).2
      ({ s with
          runs := s.runs.map fun q => if q.generation == r.generation then stepped setup s host r else q
          store := events.foldl storeAfter s.store },
        events) := by
  have hruns : (s.runs.map fun q =>
      if q.generation == r.generation then { q with phase := (stepped setup s host r).phase } else q) =
      s.runs.map fun q => if q.generation == r.generation then stepped setup s host r else q := by
    refine List.map_congr_left fun q hq => ?_
    split_ifs with hgen
    · rw [h.eq_of_generation_eq hq hr (by simpa using hgen)]
      rfl
    · rfl
  simp only [perform, move, h.find? hr, ← hruns]
  rfl

/-- **A step moves one run.** -/
theorem mem_runs_step (h : Numbered s) (hr : r ∈ s.runs) {host : Host} {q : Started} :
    q ∈ (s.perform setup (.step r.generation host)).1.runs ↔
      q = stepped setup s host r ∨ q ∈ s.runs ∧ q.generation ≠ r.generation := by
  rw [perform_step_of_mem h hr]
  simp only [List.mem_map, beq_iff_eq]
  constructor
  · rintro ⟨p, hp, rfl⟩
    split_ifs with hgen
    · exact Or.inl rfl
    · exact Or.inr ⟨hp, hgen⟩
  · rintro (rfl | ⟨hq, hgen⟩)
    · exact ⟨r, hr, by simp⟩
    · exact ⟨q, hq, by simp [hgen]⟩

/-- a step goes to a run of the system, or to none -/
theorem exists_run_or (s : System) (g : Nat) : (∃ r ∈ s.runs, r.generation = g) ∨ ∀ r ∈ s.runs, r.generation ≠ g := by
  by_cases hg : ∃ r ∈ s.runs, r.generation = g
  · exact Or.inl hg
  · exact Or.inr fun r hr heq => hg ⟨r, hr, heq⟩

theorem generation_step (h : Numbered s) (host : Host) :
    (s.perform setup (.step g host)).1.generation = s.generation := by
  rcases exists_run_or s g with ⟨r, hr, rfl⟩ | hg
  · rw [perform_step_of_mem h hr]
  · rw [perform_step_of_not_mem hg]

theorem numbered_start (h : Numbered s) (url : String) : Numbered (s.start url) := by
  simp only [Numbered, start, List.map_append, generations_cancelCurrent]
  rw [h, List.range'_concat]
  simp [Nat.add_comm]

theorem numbered_perform (h : Numbered s) (a : Action) : Numbered (s.perform setup a).1 := by
  cases a with
  | start url => exact numbered_start h url
  | cancel => exact (generations_cancelCurrent s).trans h
  | clear => exact (generations_cancelCurrent s).trans h
  | step g host =>
    rcases exists_run_or s g with ⟨r, hr, rfl⟩ | hg
    · rw [Numbered, generation_step h, perform_step_of_mem h hr, List.map_map, ← h]
      refine List.map_congr_left fun q hq => ?_
      simp only [Function.comp_apply, beq_iff_eq]
      split_ifs with hgen
      · exact hgen.symm
      · rfl
    · rw [perform_step_of_not_mem hg]
      exact h

/-! ## Events and the store -/

theorem published_mem_eventsOf {q : Phase} {out : List Output} {a : Analysis} :
    Event.published g a ∈ eventsOf r q out ↔ g = r.generation ∧ Output.publish a ∈ out := by
  unfold eventsOf
  rw [List.mem_append, List.mem_map]
  constructor
  · rintro (⟨x, hx, heq⟩ | hfinished)
    · cases x with
      | say message => cases heq
      | publish b =>
        cases heq
        exact ⟨rfl, hx⟩
    · split at hfinished <;> simp at hfinished
  · rintro ⟨rfl, ha⟩
    exact Or.inl ⟨_, ha, rfl⟩

/-- **What a publication takes.** Only a step of the run itself publishes, from the phase before, while its generation is
current and its token is not set. The step shows nothing else, and the run is then about to report the result. -/
theorem published_mem_perform (h : Numbered s) {act : Action} {a : Analysis}
    (hp : Event.published g a ∈ (s.perform setup act).2) :
    ∃ host, act = .step g host ∧ ∃ r ∈ s.runs, r.generation = g ∧ g = s.generation ∧ r.cancelled = false ∧
      r.phase = .publishing a ∧ (stepped setup s host r).phase = .reporting (.ok a) ∧
      (s.perform setup act).2 = [.published g a] := by
  cases act with
  | start url => simp [perform] at hp
  | cancel => simp [perform] at hp
  | clear => simp [perform] at hp
  | step g' host =>
    rcases exists_run_or s g' with ⟨r, hr, rfl⟩ | hg
    · rw [perform_step_of_mem h hr] at hp ⊢
      obtain ⟨rfl, hpub⟩ := published_mem_eventsOf.1 hp
      obtain ⟨hphase, hcur, htok, hstep⟩ := Phase.of_publish_mem hpub
      have hnext : (stepped setup s host r).phase = .reporting (.ok a) := by rw [stepped, hstep]
      refine ⟨host, rfl, r, hr, rfl, by simpa [sight] using hcur, htok, hphase, hnext, ?_⟩
      simp only [hnext, hstep]
      rw [eventsOf, hphase]
      rfl
    · rw [perform_step_of_not_mem hg] at hp
      simp at hp

/-- a current run that is not cancelled is not refused -/
theorem published_of_publishing (h : Numbered s) (hr : r ∈ s.runs) {a : Analysis} (hphase : r.phase = .publishing a)
    (hcur : r.generation = s.generation) (htok : r.cancelled = false) (host : Host) :
    Event.published r.generation a ∈ (s.perform setup (.step r.generation host)).2 := by
  rw [perform_step_of_mem h hr]
  refine published_mem_eventsOf.2 ⟨rfl, ?_⟩
  simp [hphase, Phase.step, sight, hcur, htok]

theorem perform_store (s : System) (act : Action) :
    (s.perform setup act).1.store = (s.perform setup act).2.foldl storeAfter s.store := by
  cases act with
  | start url => rfl
  | cancel => rfl
  | clear => rfl
  | step g host =>
    simp only [perform, move]
    split <;> rfl

theorem foldl_storeAfter_of_no_event {events : List Event} {store : Option Analysis} (hclear : Event.cleared ∉ events)
    (hpub : ∀ g a, Event.published g a ∉ events) : events.foldl storeAfter store = store := by
  induction events generalizing store with
  | nil => rfl
  | cons e events ih =>
    have hstore : storeAfter store e = store := by
      cases e with
      | published g a => exact absurd List.mem_cons_self (hpub g a)
      | cleared => exact absurd List.mem_cons_self hclear
      | _ => rfl
    rw [List.foldl_cons, hstore]
    exact ih (fun hmem => hclear (List.mem_cons_of_mem e hmem)) fun g a hmem => hpub g a (List.mem_cons_of_mem e hmem)

/-! ## Histories -/

/-- the system after a history of actions -/
def after (setup : Setup) (history : List Action) : System := (fresh.performAll setup history).1

/-- the events of a history of actions -/
def log (setup : Setup) (history : List Action) : List Event := (fresh.performAll setup history).2

theorem performAll_append (s : System) (as bs : List Action) :
    s.performAll setup (as ++ bs) =
      (((s.performAll setup as).1.performAll setup bs).1,
        (s.performAll setup as).2 ++ ((s.performAll setup as).1.performAll setup bs).2) := by
  induction as generalizing s with
  | nil => rfl
  | cons a as ih => simp only [List.cons_append, performAll, ih, List.append_assoc]

theorem after_append (as bs : List Action) : after setup (as ++ bs) = ((after setup as).performAll setup bs).1 := by
  rw [after, performAll_append]
  rfl

theorem log_append (as bs : List Action) :
    log setup (as ++ bs) = log setup as ++ ((after setup as).performAll setup bs).2 := by
  rw [log, performAll_append]
  rfl

theorem performAll_singleton (s : System) (a : Action) : s.performAll setup [a] = s.perform setup a := by
  simp [performAll]

theorem after_snoc (as : List Action) (a : Action) :
    after setup (as ++ [a]) = ((after setup as).perform setup a).1 := by
  rw [after_append, performAll_singleton]

theorem log_snoc (as : List Action) (a : Action) :
    log setup (as ++ [a]) = log setup as ++ ((after setup as).perform setup a).2 := by
  rw [log_append, performAll_singleton]

theorem numbered_performAll (h : Numbered s) (as : List Action) : Numbered (s.performAll setup as).1 := by
  induction as generalizing s with
  | nil => exact h
  | cons a as ih => exact ih (numbered_perform h a)

theorem numbered_after (as : List Action) : Numbered (after setup as) := numbered_performAll numbered_fresh as

theorem performAll_store (s : System) (as : List Action) :
    (s.performAll setup as).1.store = (s.performAll setup as).2.foldl storeAfter s.store := by
  induction as generalizing s with
  | nil => rfl
  | cons a as ih => simp only [performAll, List.foldl_append, ih, perform_store]

end System

end ClassAtlas.Run
