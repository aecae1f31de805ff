/-
How runs end agrees with what they did to the store, under every interleaving.

The outcome of a run is settled in two places: where its work stops, and once more by the generation that is current by
then. The same token is set by a later start, by a cancel and by a clear. `Accounted` says, phase by phase, what the
history must hold for a run to stand where it does: a set token of the current run comes from a cancel or clear that came
while it was current, and a stop as superseded from a later start. `ledger` keeps this for all runs over every history,
together with the publications: a run has published exactly when it reports a result or has ended with it.
`outcomes_agree` reads off what ends a run and what changes the store.
-/
import Mathlib.Data.List.Induction
import ClassAtlas.Proofs.Run.Publication

namespace ClassAtlas.Run

open ClassAtlas.Repository

namespace Phase

/-- the result a run reports or has ended with -/
def result? : Phase → Option Analysis
  | .reporting (.ok a) => some a
  | .ended (.ok a) => some a
  | _ => none

theorem result?_of_working {p : Phase} (h : p.working = true) : p.result? = none := by
  cases p with
  | settling e => cases h
  | reporting o => cases h
  | ended o => cases h
  | _ => rfl

theorem outcome?_eq_some {p : Phase} {o : Outcome} : p.outcome? = some o ↔ p = .ended o := by
  cases p with
  | ended o' => simp [outcome?]
  | _ => simp [outcome?]

theorem result?_eq_some {p : Phase} {a : Analysis} :
    p.result? = some a ↔ p = .reporting (.ok a) ∨ p = .ended (.ok a) := by
  cases p with
  | reporting o => cases o <;> simp [result?]
  | ended o => cases o <;> simp [result?]
  | _ => simp [result?]

/-- a step gives a result exactly when it publishes it, and no result is lost -/
theorem result?_step {v : Sight} {p : Phase} {a : Analysis} :
    (p.step v).1.result? = some a ↔ p.result? = some a ∨ Output.publish a ∈ (p.step v).2 := by
  have hadv := step_advance v p
  generalize p.step v = next at hadv ⊢
  obtain ⟨q, out⟩ := next
  cases hadv with
  | work hp hq hout => simp [result?_of_working hp, result?_of_working hq, hout]
  | publish hcur htok => simp [result?, eq_comm]
  | stop hp _ _ hout =>
    rw [result?_of_working hp]
    simp [result?, hout]
  | crash _ hhost =>
    rw [result?_of_working hhost.working]
    simp [result?]
  | supersede hcur => simp [result?]
  | cancel hcur he => simp [result?]
  | fail hcur he => simp [result?]
  | @report o message => cases o <;> simp [result?]
  | rest => simp

theorem eq_of_isInterruption {e : RunError} (h : e.isInterruption = true) : e = .cancelled ∨ e = .superseded := by
  cases e with
  | cancelled => exact Or.inl rfl
  | superseded => exact Or.inr rfl
  | _ => cases h

end Phase

namespace System

variable {setup : Setup} {history : List Action} {act : Action} {r : Started} {g : Nat}

/-! ## Accounts of single runs -/

/-- a cancel or a clear came while run `g` was the current one -/
def StoppedWhileCurrent (setup : Setup) (history : List Action) (g : Nat) : Prop :=
  ∃ before act later, history = before ++ act :: later ∧ (act = .cancel ∨ act = .clear) ∧
    (after setup before).generation = g

theorem StoppedWhileCurrent.snoc (h : StoppedWhileCurrent setup history g) (act : Action) :
    StoppedWhileCurrent setup (history ++ [act]) g := by
  obtain ⟨before, stop, later, rfl, hstop, hgen⟩ := h
  exact ⟨before, stop, later ++ [act], by simp, hstop, hgen⟩

/-- what the history holds for a run to stand where it does -/
structure Accounted (setup : Setup) (history : List Action) (r : Started) : Prop where
  token : r.generation = (after setup history).generation → r.cancelled = true →
    StoppedWhileCurrent setup history r.generation
  stoppedCancelled : r.phase = .settling .cancelled → r.cancelled = true
  stoppedSuperseded : r.phase = .settling .superseded → r.generation < (after setup history).generation
  /-- only a failure of its own is reported as an error -/
  failing : ∀ e, r.phase = .reporting (.error e) → e.isInterruption = false
  endedCancelled : r.phase = .ended (.error .cancelled) → StoppedWhileCurrent setup history r.generation
  endedSuperseded : r.phase = .ended (.error .superseded) → r.generation < (after setup history).generation

/-- a run that only had its token set stays accounted for -/
theorem Accounted.carry {q : Started} (h : Accounted setup history q) (hgen : r.generation = q.generation)
    (hphase : r.phase = q.phase) (htok : q.cancelled = true → r.cancelled = true)
    (hmono : (after setup history).generation ≤ (after setup (history ++ [act])).generation)
    (hnew : r.generation = (after setup (history ++ [act])).generation → r.cancelled = true →
      StoppedWhileCurrent setup (history ++ [act]) r.generation) : Accounted setup (history ++ [act]) r := by
  refine ⟨hnew, ?_, ?_, ?_, ?_, ?_⟩
  · intro hp
    exact htok (h.stoppedCancelled (hphase ▸ hp))
  · intro hp
    have := h.stoppedSuperseded (hphase ▸ hp)
    omega
  · intro e hp
    exact h.failing e (hphase ▸ hp)
  · intro hp
    rw [hgen]
    exact (h.endedCancelled (hphase ▸ hp)).snoc act
  · intro hp
    have := h.endedSuperseded (hphase ▸ hp)
    omega

/-- a new run has nothing to account for -/
theorem accounted_opening (hphase : r.phase = .opening) (htok : r.cancelled = false) : Accounted setup history r := by
  refine ⟨fun _ h => ?_, fun h => ?_, fun h => ?_, fun e h => ?_, fun h => ?_, fun h => ?_⟩
  · rw [htok] at h
    cases h
  all_goals
    rw [hphase] at h
    cases h

/-- **A step keeps a run accounted for.** The split is over what the step can do. -/
theorem Accounted.step (h : Accounted setup history r) (hr : r ∈ (after setup history).runs) (host : Host)
    (hgen : (after setup (history ++ [act])).generation = (after setup history).generation) :
    Accounted setup (history ++ [act]) (stepped setup (after setup history) host r) := by
  have hle := (numbered_after history).generation_le hr
  have hadv := Phase.step_advance ((after setup history).sight host setup r) r.phase
  have htoken : r.generation = (after setup (history ++ [act])).generation → r.cancelled = true →
      StoppedWhileCurrent setup (history ++ [act]) r.generation := by
    intro hcur htok
    exact (h.token (hcur.trans hgen) htok).snoc act
  have hcurrent : ((after setup history).sight host setup r).isCurrent = true →
      r.generation = (after setup history).generation := by simp [sight]
  have hstale : ((after setup history).sight host setup r).isCurrent = false →
      r.generation < (after setup (history ++ [act])).generation := by
    intro hcur
    have : r.generation ≠ (after setup history).generation := by simpa [sight] using hcur
    omega
  rw [stepped]
  generalize hp : r.phase = p at hadv ⊢
  generalize p.step ((after setup history).sight host setup r) = next at hadv ⊢
  obtain ⟨q, out⟩ := next
  -- for each phase that must be accounted for, the steps that lead there
  refine ⟨htoken, ?_, ?_, ?_, ?_, ?_⟩
  · rintro rfl
    cases hadv with
    | work _ hq _ => cases hq
    | stop _ htok _ _ => exact htok rfl
  · rintro rfl
    cases hadv with
    | work _ hq _ => cases hq
    | stop _ _ hcur _ => exact hstale (hcur rfl)
  · rintro e rfl
    cases hadv with
    | work _ hq _ => cases hq
    | fail _ he => exact he
  · rintro rfl
    cases hadv with
    | work _ hq _ => cases hq
    | cancel hcur he =>
      rcases Phase.eq_of_isInterruption he with rfl | rfl
      · exact htoken ((hcurrent hcur).trans hgen.symm) (h.stoppedCancelled hp)
      · -- a run once found superseded is never current again
        have := h.stoppedSuperseded hp
        have := hcurrent hcur
        omega
    | report => exact absurd (h.failing _ hp) (by decide)
    | rest => exact (h.endedCancelled hp).snoc act
  · rintro rfl
    cases hadv with
    | work _ hq _ => cases hq
    | supersede hcur => exact hstale hcur
    | report => exact absurd (h.failing _ hp) (by decide)
    | rest =>
      have := h.endedSuperseded hp
      simp only
      omega

/-! ## The ledger of a history -/

theorem exists_mem_cancelCurrent {s : System} (hr : r ∈ s.runs) :
    ∃ q ∈ s.cancelCurrent, q.generation = r.generation ∧ q.phase = r.phase := by
  refine ⟨_, mem_cancelCurrent.2 ⟨r, hr, rfl⟩, ?_⟩
  split_ifs <;> exact ⟨rfl, rfl⟩

/-- what holds of the runs and the events of a history -/
structure Ledger (setup : Setup) (history : List Action) : Prop where
  runs : ∀ r ∈ (after setup history).runs, Accounted setup history r
  started : ∀ r ∈ (after setup history).runs, Event.started r.generation ∈ log setup history
  published : ∀ g a, Event.published g a ∈ log setup history ↔
    ∃ r ∈ (after setup history).runs, r.generation = g ∧ r.phase.result? = some a

theorem ledger_nil (setup : Setup) : Ledger setup [] := by
  refine ⟨fun r hr => ?_, fun r hr => ?_, fun g a => ⟨fun h => ?_, fun ⟨r, hr, _⟩ => ?_⟩⟩
  · cases hr
  · cases hr
  · cases h
  · cases hr

/-- an action that only sets tokens, and may start a run, keeps the ledger -/
theorem Ledger.of_tokens (h : Ledger setup history) (opened : List Started)
    (hruns : (after setup (history ++ [act])).runs = (after setup history).cancelCurrent ++ opened)
    (hopened : ∀ r ∈ opened, r.phase = .opening ∧ r.cancelled = false)
    (hstarted : ∀ r ∈ opened, Event.started r.generation ∈ log setup (history ++ [act]))
    (hevents : ∀ g a, Event.published g a ∉ ((after setup history).perform setup act).2)
    (hmono : (after setup history).generation ≤ (after setup (history ++ [act])).generation)
    (hact : (act = .cancel ∨ act = .clear) ∨ (after setup history).generation < (after setup (history ++ [act])).generation) :
    Ledger setup (history ++ [act]) := by
  have hnum : Numbered (after setup history) := numbered_after history
  refine ⟨fun r hr => ?_, fun r hr => ?_, fun g a => ?_⟩
  · rw [hruns] at hr
    rcases List.mem_append.1 hr with hr | hr
    · obtain ⟨q, hq, hgen, hphase, htok⟩ := of_mem_cancelCurrent hr
      refine (h.runs q hq).carry hgen hphase htok hmono fun hcur _ => ?_
      have hle := hnum.generation_le hq
      rcases hact with hstop | hlt
      · refine ⟨history, act, [], rfl, hstop, ?_⟩
        omega
      · omega
    · exact accounted_opening (hopened r hr).1 (hopened r hr).2
  · rw [hruns] at hr
    rcases List.mem_append.1 hr with hr | hr
    · obtain ⟨q, hq, hgen, -⟩ := of_mem_cancelCurrent hr
      rw [log_snoc, hgen]
      exact List.mem_append_left _ (h.started q hq)
    · exact hstarted r hr
  · rw [log_snoc, List.mem_append, or_iff_left (hevents g a), h.published g a, hruns]
    constructor
    · rintro ⟨r, hr, rfl, hres⟩
      obtain ⟨q, hq, hgen, hphase⟩ := exists_mem_cancelCurrent hr
      exact ⟨q, List.mem_append_left _ hq, hgen, by rw [hphase]; exact hres⟩
    · rintro ⟨r, hr, rfl, hres⟩
      rcases List.mem_append.1 hr with hr | hr
      · obtain ⟨q, hq, hgen, hphase, -⟩ := of_mem_cancelCurrent hr
        exact ⟨q, hq, hgen.symm, by rw [← hphase]; exact hres⟩
      · rw [(hopened r hr).1] at hres
        cases hres

theorem Ledger.of_step (h : Ledger setup history) (hr : r ∈ (after setup history).runs) (host : Host) :
    Ledger setup (history ++ [.step r.generation host]) := by
  have hnum : Numbered (after setup history) := numbered_after history
  have hgen : (after setup (history ++ [.step r.generation host])).generation = (after setup history).generation := by
    rw [after_snoc, generation_step hnum]
  have hmem : ∀ q, q ∈ (after setup (history ++ [.step r.generation host])).runs ↔
      q = stepped setup (after setup history) host r ∨
        q ∈ (after setup history).runs ∧ q.generation ≠ r.generation := by
    intro q
    rw [after_snoc, mem_runs_step hnum hr]
  refine ⟨fun q hq => ?_, fun q hq => ?_, fun g a => ?_⟩
  · rcases (hmem q).1 hq with rfl | ⟨hq, -⟩
    · exact (h.runs r hr).step hr host hgen
    · refine (h.runs q hq).carry rfl rfl id (Nat.le_of_eq hgen.symm) fun hcur htok => ?_
      exact ((h.runs q hq).token (hcur.trans hgen) htok).snoc _
  · rw [log_snoc]
    refine List.mem_append_left _ ?_
    rcases (hmem q).1 hq with rfl | ⟨hq, -⟩
    · exact h.started r hr
    · exact h.started q hq
  · have hevents : Event.published g a ∈ ((after setup history).perform setup (.step r.generation host)).2 ↔
        g = r.generation ∧ Output.publish a ∈ (r.phase.step ((after setup history).sight host setup r)).2 := by
      rw [perform_step_of_mem hnum hr]
      exact published_mem_eventsOf
    rw [log_snoc, List.mem_append, h.published g a, hevents]
    constructor
    · rintro (⟨q, hq, rfl, hres⟩ | ⟨rfl, hpub⟩)
      · by_cases hqr : q.generation = r.generation
        · obtain rfl := hnum.eq_of_generation_eq hq hr hqr
          exact ⟨_, (hmem _).2 (Or.inl rfl), rfl, Phase.result?_step.2 (Or.inl hres)⟩
        · exact ⟨q, (hmem q).2 (Or.inr ⟨hq, hqr⟩), rfl, hres⟩
      · exact ⟨_, (hmem _).2 (Or.inl rfl), rfl, Phase.result?_step.2 (Or.inr hpub)⟩
    · rintro ⟨q, hq, rfl, hres⟩
      rcases (hmem q).1 hq with rfl | ⟨hq, -⟩
      · rcases Phase.result?_step.1 hres with hres | hpub
        · exact Or.inl ⟨r, hr, rfl, hres⟩
        · exact Or.inr ⟨rfl, hpub⟩
      · exact Or.inl ⟨q, hq, rfl, hres⟩

/-- a step of no run changes nothing but the history -/
theorem Ledger.of_idle (h : Ledger setup history) (hafter : after setup (history ++ [act]) = after setup history)
    (hlog : log setup (history ++ [act]) = log setup history) : Ledger setup (history ++ [act]) := by
  refine ⟨fun r hr => ?_, fun r hr => ?_, fun g a => ?_⟩
  · rw [hafter] at hr
    refine (h.runs r hr).carry rfl rfl id (Nat.le_of_eq (by rw [hafter])) fun hcur htok => ?_
    rw [hafter] at hcur
    exact ((h.runs r hr).token hcur htok).snoc act
  · rw [hafter] at hr
    rw [hlog]
    exact h.started r hr
  · rw [hafter, hlog]
    exact h.published g a

/-- **The ledger holds of every history.** -/
theorem ledger (setup : Setup) (history : List Action) : Ledger setup history := by
  induction history using List.reverseRecOn with
  | nil => exact ledger_nil setup
  | append_singleton history act ih =>
    cases act with
    | start url =>
      refine ih.of_tokens [⟨(after setup history).generation + 1, url, false, .opening⟩] ?_ ?_ ?_ ?_ ?_ (Or.inr ?_)
      · rw [after_snoc]
        rfl
      · simp
      · simp [log_snoc, perform]
      · simp [perform]
      all_goals
        rw [after_snoc]
        simp [perform, start]
    | cancel =>
      refine ih.of_tokens [] ?_ (by simp) (by simp) (by simp [perform]) ?_ (Or.inl (Or.inl rfl))
      · rw [after_snoc, List.append_nil]
        rfl
      · rw [after_snoc]
        exact Nat.le_refl _
    | clear =>
      refine ih.of_tokens [] ?_ (by simp) (by simp) (by simp [perform]) ?_ (Or.inl (Or.inr rfl))
      · rw [after_snoc, List.append_nil]
        rfl
      · rw [after_snoc]
        exact Nat.le_refl _
    | step g host =>
      rcases exists_run_or (after setup history) g with ⟨r, hr, rfl⟩ | hg
      · exact ih.of_step hr host
      · refine ih.of_idle ?_ ?_
        · rw [after_snoc, perform_step_of_not_mem hg]
        · rw [log_snoc, perform_step_of_not_mem hg, List.append_nil]

/-! ## Stale runs -/

/-- run `g` is no longer current, and stands stopped by `e` or has ended as superseded -/
def StaleStop (s : System) (g : Nat) (e : RunError) : Prop :=
  g < s.generation ∧ ∃ r ∈ s.runs, r.generation = g ∧ (r.phase = .settling e ∨ r.phase = .ended (.error .superseded))

theorem step_of_staleStop {v : Sight} {p : Phase} {e : RunError} (hcur : v.isCurrent = false)
    (hp : p = .settling e ∨ p = .ended (.error .superseded)) : (p.step v).1 = .ended (.error .superseded) := by
  rcases hp with rfl | rfl
  · simp [Phase.step, Phase.settle, hcur, RunError.isInterruption]
  · rfl

theorem staleStop_of_cancelCurrent {s t : System} {e : RunError} (h : StaleStop s g e)
    (hgen : s.generation ≤ t.generation) (hruns : ∀ r ∈ s.cancelCurrent, r ∈ t.runs) : StaleStop t g e := by
  obtain ⟨hlt, r, hr, hrg, hphase⟩ := h
  obtain ⟨q, hq, hqg, hqp⟩ := exists_mem_cancelCurrent hr
  exact ⟨by omega, q, hruns q hq, hqg.trans hrg, by rw [hqp]; exact hphase⟩

theorem staleStop_stepped {s : System} {e : RunError} (hnum : Numbered s) (h : StaleStop s g e) (host : Host) :
    ∃ q ∈ (s.perform setup (.step g host)).1.runs, q.generation = g ∧ q.phase = .ended (.error .superseded) := by
  obtain ⟨hlt, r, hr, rfl, hphase⟩ := h
  refine ⟨_, (mem_runs_step hnum hr).2 (Or.inl rfl), rfl, ?_⟩
  refine step_of_staleStop ?_ hphase
  simp only [sight, beq_eq_false_iff_ne]
  omega

theorem staleStop_perform {s : System} {e : RunError} (hnum : Numbered s) (h : StaleStop s g e) (act : Action) :
    StaleStop (s.perform setup act).1 g e := by
  cases act with
  | start url => exact staleStop_of_cancelCurrent h (Nat.le_succ _) fun r hr => List.mem_append_left _ hr
  | cancel => exact staleStop_of_cancelCurrent h (Nat.le_refl _) fun r hr => hr
  | clear => exact staleStop_of_cancelCurrent h (Nat.le_refl _) fun r hr => hr
  | step g' host =>
    rcases exists_run_or s g' with ⟨r', hr', rfl⟩ | hg
    · by_cases heq : g = r'.generation
      · subst heq
        obtain ⟨q, hq, hqg, hphase⟩ := staleStop_stepped hnum h host
        exact ⟨by rw [generation_step hnum]; exact h.1, q, hq, hqg, Or.inr hphase⟩
      · obtain ⟨hlt, r, hr, rfl, hphase⟩ := h
        refine ⟨by rw [generation_step hnum]; exact hlt, r, ?_, rfl, hphase⟩
        exact (mem_runs_step hnum hr').2 (Or.inr ⟨hr, heq⟩)
    · rw [perform_step_of_not_mem hg]
      exact h

theorem staleStop_performAll {s : System} {e : RunError} (hnum : Numbered s) (h : StaleStop s g e) (as : List Action) :
    StaleStop (s.performAll setup as).1 g e := by
  induction as generalizing s with
  | nil => exact h
  | cons a as ih => exact ih (numbered_perform hnum a) (staleStop_perform hnum h a)

/-- a stale run that was stopped ends as superseded, whatever stopped it: in no later state has it another outcome, and its
next step ends it -/
theorem outcome_of_staleStop {before later : List Action} {e : RunError} (hr : r ∈ (after setup before).runs)
    (hphase : r.phase = .settling e) (hstale : r.generation ≠ (after setup before).generation) :
    (∀ q ∈ (after setup (before ++ later)).runs, q.generation = r.generation → ∀ o, q.phase.outcome? = some o →
      o = .error .superseded) ∧
    ∀ host, ∃ q ∈ (after setup (before ++ later ++ [.step r.generation host])).runs,
      q.generation = r.generation ∧ q.phase.outcome? = some (.error .superseded) := by
  have hle := (numbered_after before).generation_le hr
  have hnow : StaleStop (after setup before) r.generation e := ⟨by omega, r, hr, rfl, Or.inl hphase⟩
  have hlater : StaleStop (after setup (before ++ later)) r.generation e := by
    rw [after_append]
    exact staleStop_performAll (numbered_after before) hnow later
  have hnum : Numbered (after setup (before ++ later)) := numbered_after _
  constructor
  · intro q hq hqg o ho
    obtain ⟨-, q', hq', hqg', hphase'⟩ := hlater
    obtain rfl := hnum.eq_of_generation_eq hq hq' (hqg.trans hqg'.symm)
    rcases hphase' with hp | hp <;> rw [hp] at ho <;> cases ho
    rfl
  · intro host
    rw [after_snoc]
    obtain ⟨q, hq, hqg, hp⟩ := staleStop_stepped hnum hlater host
    exact ⟨q, hq, hqg, by rw [hp]; rfl⟩

/-! ## The store -/

theorem cleared_not_mem_eventsOf {q : Phase} {out : List Output} : Event.cleared ∉ eventsOf r q out := by
  unfold eventsOf
  rw [List.mem_append, List.mem_map]
  rintro (⟨x, -, heq⟩ | hfinished)
  · cases x <;> cases heq
  · split at hfinished <;> simp at hfinished

theorem store_of_published {s : System} (hnum : Numbered s) {a : Analysis}
    (h : Event.published g a ∈ (s.perform setup act).2) : (s.perform setup act).1.store = some a := by
  obtain ⟨-, -, -, -, -, -, -, -, -, honly⟩ := published_mem_perform hnum h
  rw [perform_store, honly]
  rfl

theorem store_step_of_not_published {s : System} (hnum : Numbered s) {host : Host}
    (h : ∀ g' a, Event.published g' a ∉ (s.perform setup (.step g host)).2) :
    (s.perform setup (.step g host)).1.store = s.store := by
  rw [perform_store]
  refine foldl_storeAfter_of_no_event ?_ h
  rcases exists_run_or s g with ⟨r, hr, rfl⟩ | hg
  · rw [perform_step_of_mem hnum hr]
    exact cleared_not_mem_eventsOf
  · simp [perform_step_of_not_mem hg]

/-- an action leaves the store as it is, wipes it by a clear, or fills it by a publication -/
theorem store_perform {s : System} (hnum : Numbered s) (act : Action) :
    (s.perform setup act).1.store = s.store ∨ act = .clear ∧ (s.perform setup act).1.store = none ∨
      ∃ g host a, act = .step g host ∧ Event.published g a ∈ (s.perform setup act).2 ∧
        (s.perform setup act).1.store = some a := by
  cases act with
  | start url => exact Or.inl rfl
  | cancel => exact Or.inl rfl
  | clear => exact Or.inr (Or.inl ⟨rfl, rfl⟩)
  | step g host =>
    by_cases hpub : ∃ g' a, Event.published g' a ∈ (s.perform setup (.step g host)).2
    · obtain ⟨g', a, ha⟩ := hpub
      obtain ⟨host', heq, -⟩ := published_mem_perform hnum ha
      exact Or.inr (Or.inr ⟨g', host', a, heq, ha, store_of_published hnum ha⟩)
    · exact Or.inl (store_step_of_not_published hnum fun g' a ha => hpub ⟨g', a, ha⟩)

/-! ## Outcomes -/

theorem outcome_iff_published (hr : r ∈ (after setup history).runs) {o : Outcome} (ho : r.phase.outcome? = some o)
    (a : Analysis) : o = .ok a ↔ Event.published r.generation a ∈ log setup history := by
  have hended : r.phase = .ended o := Phase.outcome?_eq_some.1 ho
  rw [(ledger setup history).published]
  constructor
  · rintro rfl
    exact ⟨r, hr, rfl, Phase.result?_eq_some.2 (Or.inr hended)⟩
  · rintro ⟨q, hq, hgen, hres⟩
    obtain rfl := (numbered_after history).eq_of_generation_eq hq hr hgen
    rcases Phase.result?_eq_some.1 hres with hp | hp <;> rw [hended] at hp <;> cases hp
    rfl

/-- a run that has published ends with the result at its next step, unless it has ended with it -/
theorem ends_of_published {a : Analysis} (hp : Event.published g a ∈ log setup history) (host : Host) :
    ∃ r ∈ (after setup (history ++ [.step g host])).runs, r.generation = g ∧ r.phase.outcome? = some (.ok a) := by
  obtain ⟨r, hr, rfl, hres⟩ := ((ledger setup history).published g a).1 hp
  rw [after_snoc]
  refine ⟨_, (mem_runs_step (numbered_after history) hr).2 (Or.inl rfl), rfl, ?_⟩
  rw [stepped]
  rcases Phase.result?_eq_some.1 hres with hphase | hphase
  · rw [hphase]
    rfl
  · rw [hphase]
    rfl

theorem mem_log_of_mem_perform {before later : List Action} {e : Event}
    (he : e ∈ ((after setup before).perform setup act).2) : e ∈ log setup (before ++ act :: later) := by
  rw [List.append_cons, log_append, log_snoc]
  exact List.mem_append_left _ (List.mem_append_right _ he)

/-- the store changes by clears and publications only -/
theorem store_snoc (before : List Action) (act : Action) (later : List Action) :
    (after setup (before ++ [act])).store = (after setup before).store ∨
      act = .clear ∧ (after setup (before ++ [act])).store = none ∨
      ∃ g host a, act = .step g host ∧ Event.published g a ∈ log setup (before ++ act :: later) ∧
        (after setup (before ++ [act])).store = some a := by
  rw [after_snoc]
  rcases store_perform (numbered_after before) act with hkept | hcleared | ⟨g, host, a, hact, hpub, hstore⟩
  · exact Or.inl hkept
  · exact Or.inr (Or.inl hcleared)
  · exact Or.inr (Or.inr ⟨g, host, a, hact, mem_log_of_mem_perform hpub, hstore⟩)

/-- no step of a run that fails changes the store -/
theorem store_of_error {before later : List Action} {host : Host} {e : RunError}
    (hr : r ∈ (after setup (before ++ .step r.generation host :: later)).runs)
    (ho : r.phase.outcome? = some (.error e)) :
    (after setup (before ++ [.step r.generation host])).store = (after setup before).store := by
  rcases store_snoc before (.step r.generation host) later with hkept | ⟨hact, -⟩ | ⟨g, host', a, hact, hpub, -⟩
  · exact hkept
  · cases hact
  · cases hact
    have hok := (outcome_iff_published hr ho a).2 hpub
    cases hok

theorem superseded_of_later (hr : r ∈ (after setup history).runs) (ho : r.phase.outcome? = some (.error .superseded)) :
    ∃ g, r.generation < g ∧ Event.started g ∈ log setup history := by
  have h : Ledger setup history := ledger setup history
  have hlt := (h.runs r hr).endedSuperseded (Phase.outcome?_eq_some.1 ho)
  have hpos : 1 ≤ (after setup history).generation := Nat.lt_of_le_of_lt (Nat.zero_le _) hlt
  obtain ⟨q, hq, hqg⟩ := (numbered_after history).exists_run hpos (Nat.le_refl _)
  exact ⟨q.generation, hqg ▸ hlt, h.started q hq⟩

/-- **Outcomes and the store agree.** Histories are arbitrary lists of starts, cancels, clears and atomic steps of the
runs. -/
theorem outcomes_agree (setup : Setup) (history : List Action) :
    -- a run that has ended has the result it published, if it published, and an error otherwise
    (∀ r ∈ (after setup history).runs, ∀ o, r.phase.outcome? = some o →
      ∀ a, o = .ok a ↔ Event.published r.generation a ∈ log setup history) ∧
    -- and a run that published does end so, whatever comes in between
    (∀ g a, Event.published g a ∈ log setup history → ∀ host,
      ∃ r ∈ (after setup (history ++ [.step g host])).runs, r.generation = g ∧ r.phase.outcome? = some (.ok a)) ∧
    -- a run that ended with an error never changed the store
    (∀ r ∈ (after setup history).runs, ∀ e, r.phase.outcome? = some (.error e) →
      ∀ before host later, history = before ++ .step r.generation host :: later →
        (after setup (before ++ [.step r.generation host])).store = (after setup before).store) ∧
    -- the store changes by clears and by publications only, these in the order of their generations
    (∀ before act later, history = before ++ act :: later →
      (after setup (before ++ [act])).store = (after setup before).store ∨
      act = .clear ∧ (after setup (before ++ [act])).store = none ∨
      ∃ g host a, act = .step g host ∧ Event.published g a ∈ log setup history ∧
        (after setup (before ++ [act])).store = some a) ∧
    (publishers (log setup history)).Pairwise (· < ·) ∧
    -- superseded by a later start, cancelled by a cancel or clear while current
    (∀ r ∈ (after setup history).runs, r.phase.outcome? = some (.error .superseded) →
      ∃ g, r.generation < g ∧ Event.started g ∈ log setup history) ∧
    (∀ r ∈ (after setup history).runs, r.phase.outcome? = some (.error .cancelled) →
      StoppedWhileCurrent setup history r.generation) ∧
    -- a run that is stale when an error stops it ends as superseded, never with that error
    ∀ before later, history = before ++ later → ∀ r ∈ (after setup before).runs, ∀ e, r.phase = .settling e →
      r.generation ≠ (after setup before).generation →
      (∀ q ∈ (after setup history).runs, q.generation = r.generation → ∀ o, q.phase.outcome? = some o →
        o = .error .superseded) ∧
      ∀ host, ∃ q ∈ (after setup (history ++ [.step r.generation host])).runs,
        q.generation = r.generation ∧ q.phase.outcome? = some (.error .superseded) := by
  refine ⟨fun r hr o ho a => outcome_iff_published hr ho a, fun g a hp host => ends_of_published hp host, ?_, ?_,
    publishers_pairwise numbered_fresh history, fun r hr ho => superseded_of_later hr ho, ?_, ?_⟩
  · rintro r hr e ho before host later rfl
    exact store_of_error hr ho
  · rintro before act later rfl
    exact store_snoc before act later
  · intro r hr ho
    exact ((ledger setup history).runs r hr).endedCancelled (Phase.outcome?_eq_some.1 ho)
  · rintro before later rfl r hr e hphase hstale
    exact outcome_of_staleStop hr hphase hstale

end System

end ClassAtlas.Run
