/-
What a run says, from its first message to its last, under every interleaving.

A run announces its stages as it comes to them, and closes with a summary, with an error or with nothing. Which of these
depends on an outcome that is settled a second time by the current generation, and a run may be stopped after every step.
`Phase.Spoken` says, phase by phase, what a run that stands there has said so far. One step keeps it (`spoken_step`), and
so does every history, for all runs at once (`heard`).

`System.BrokenOff`: a run made a request that the host did not survive. Such a run can say nothing more: of all runs that
fail without being interrupted, these are the ones that do not report it.

`messages_by_outcome`: what a run that has ended has said. `crashed_run_reports_nothing`: a run that broke off.
-/
import ClassAtlas.Proofs.Run.Outcome

namespace ClassAtlas.Run

open ClassAtlas.Repository

/-- the announcements of the stages, in their order -/
def Message.announcements : List String :=
  [Message.fetchingList, Message.downloading, Message.calculating, Message.drawing]

/-- some of the announcements, from the first on -/
structure Opening (ms : List String) : Prop where
  nonempty : ms ≠ []
  announced : ms <+: Message.announcements

theorem opening_take {n : Nat} (hn : 1 ≤ n) : Opening (Message.announcements.take n) := by
  refine ⟨?_, List.take_prefix _ _⟩
  intro h
  rcases List.take_eq_nil_iff.1 h with hzero | hnil
  · omega
  · cases hnil

/-- what a run says, by its outcome: after a result all announcements and a summary, after an interruption an opening and
no more, and after a failure an opening without the last announcement and then the error -/
inductive Says (setup : Setup) : Outcome → List String → Prop where
  | result (a : Analysis) : Says setup (.ok a) (Message.announcements ++ [Report.summary a setup.extension])
  | interruption {e : RunError} {opening : List String} (he : e.isInterruption = true) (hopening : Opening opening) :
      Says setup (.error e) opening
  | failure {e : RunError} {opening : List String} (he : e.isInterruption = false) (hopening : Opening opening)
      (hlength : opening.length ≤ 3) : Says setup (.error e) (opening ++ ["Error: " ++ e.message])

/-- the messages among what a step shows -/
def said (out : List Output) : List String :=
  out.filterMap fun
    | .say message => some message
    | .publish _ => none

@[simp] theorem said_nil : said [] = [] := rfl

/-- the messages of one run among the events, in their order -/
def messagesOf (g : Nat) (events : List Event) : List String :=
  events.filterMap fun
    | .status (some origin) message => if origin = g then some message else none
    | _ => none

theorem messagesOf_append (g : Nat) (as bs : List Event) :
    messagesOf g (as ++ bs) = messagesOf g as ++ messagesOf g bs :=
  List.filterMap_append

/-! ## One run -/

/-- how many announcements come before a stage -/
def Stage.announced : Stage → Nat
  | .list _ => 1
  | .download _ _ => 1
  | .measure _ => 2
  | .relate _ _ => 2
  | .draw _ _ => 3

theorem Stage.announced_bounds (next : Stage) : 1 ≤ next.announced ∧ next.announced ≤ 3 := by
  cases next <;> simp [Stage.announced]

namespace Phase

/-- how many announcements a working run has made -/
def announced : Phase → Nat
  | .opening => 0
  | .locating => 1
  | .checking next => next.announced
  | .confirming next => next.announced
  | .entering next => next.announced
  | .fetching _ _ _ => 2
  | _ => 4

/-- what a run that stands at the phase has said -/
def Spoken (setup : Setup) (ms : List String) : Phase → Prop
  | .settling e => Opening ms ∧ e ≠ .crashed ∧ (e.isInterruption = false → ms.length ≤ 3)
  | .reporting (.ok _) => ms = Message.announcements
  | .reporting (.error e) => Opening ms ∧ e ≠ .crashed ∧ e.isInterruption = false ∧ ms.length ≤ 3
  | .ended o => o ≠ .error .crashed ∧ Says setup o ms ∨ o = .error .crashed ∧ Opening ms ∧ ms.length ≤ 2
  | p => ms = Message.announcements.take p.announced

variable {setup : Setup}

/-- a run that fails has yet to announce the last stage -/
theorem spoken_settling {n : Nat} {e : RunError} (hn : 1 ≤ n) (he : e ≠ .crashed) (hle : e.isInterruption = false → n ≤ 3) :
    (settling e).Spoken setup (Message.announcements.take n) := by
  refine ⟨opening_take hn, he, fun hfail => ?_⟩
  have := hle hfail
  have := List.length_take_le n Message.announcements
  omega

theorem spoken_crashed {n : Nat} (hn : 1 ≤ n) (hle : n ≤ 2) :
    (ended (.error .crashed)).Spoken setup (Message.announcements.take n) := by
  refine Or.inr ⟨rfl, opening_take hn, ?_⟩
  have := List.length_take_le n Message.announcements
  omega

theorem spoken_enter (v : Sight) (next : Stage) :
    (enter v next).1.Spoken setup (Message.announcements.take next.announced ++ said (enter v next).2) := by
  cases next with
  | list l =>
    simp only [enter]
    split_ifs with htok
    · exact spoken_settling (n := 1) (by decide) (by decide) (by decide)
    · cases v.host.listing l with
      | waiting => rfl
      | crash => exact spoken_crashed (n := 1) (by decide) (by decide)
      | answer result =>
        cases result with
        | error e => exact spoken_settling (n := 1) (by decide) (by simp) (by simp)
        | ok paths => rfl
  | download l paths => rfl
  | measure files => rfl
  | relate files sizes =>
    simp only [enter]
    cases tryReadClasses v.setup.refusal files with
    | error reason => exact spoken_settling (n := 3) (by decide) (by simp) (by simp)
    | ok classes =>
      simp only
      cases Graph.build classes with
      | error f => exact spoken_settling (n := 3) (by decide) (by simp [RunError.ofGraph]) (by simp)
      | ok g => rfl
  | draw sizes g => rfl

theorem spoken_fetch (v : Sight) (l : Location) (files : List Source.SourceFile) (todo : List String) :
    (fetch v l files todo).1.Spoken setup (Message.announcements.take 2 ++ said (fetch v l files todo).2) := by
  cases todo with
  | nil => rfl
  | cons path todo =>
    simp only [fetch]
    split_ifs with htok
    · exact spoken_settling (n := 2) (by decide) (by decide) (by decide)
    · cases v.host.content l path with
      | waiting => rfl
      | crash => exact spoken_crashed (n := 2) (by decide) (by decide)
      | answer result =>
        cases result with
        | error e => exact spoken_settling (n := 2) (by decide) (by simp) (by simp)
        | ok text => rfl

/-- **What a run has said after a step.** -/
theorem spoken_step {v : Sight} {p : Phase} {ms : List String} (h : p.Spoken v.setup ms) :
    (p.step v).1.Spoken v.setup (ms ++ said (p.step v).2) := by
  cases p with
  | opening =>
    obtain rfl : ms = [] := h
    rfl
  | locating =>
    obtain rfl : ms = Message.announcements.take 1 := h
    simp only [step]
    cases folderAt v.url with
    | error f => exact spoken_settling (n := 1) (by decide) (by simp [RunError.ofAddress]) (by simp)
    | ok l => rfl
  | checking next =>
    obtain rfl : ms = Message.announcements.take next.announced := h
    obtain ⟨hlow, hhigh⟩ := Stage.announced_bounds next
    simp only [step]
    split_ifs with htok
    · rw [said_nil, List.append_nil]
      exact spoken_settling hlow (by decide) fun _ => hhigh
    · rw [said_nil, List.append_nil]
      rfl
  | confirming next =>
    obtain rfl : ms = Message.announcements.take next.announced := h
    obtain ⟨hlow, hhigh⟩ := Stage.announced_bounds next
    simp only [step]
    split_ifs with hcur
    · rw [said_nil, List.append_nil]
      rfl
    · rw [said_nil, List.append_nil]
      exact spoken_settling hlow (by decide) fun _ => hhigh
  | entering next =>
    obtain rfl : ms = Message.announcements.take next.announced := h
    exact spoken_enter v next
  | fetching l todo files =>
    obtain rfl : ms = Message.announcements.take 2 := h
    exact spoken_fetch v l files todo
  | publishing a =>
    obtain rfl : ms = Message.announcements := h
    simp only [step]
    split_ifs with hcur htok
    · exact spoken_settling (n := 4) (by decide) (by decide) (by simp [RunError.isInterruption])
    · exact spoken_settling (n := 4) (by decide) (by decide) (by simp [RunError.isInterruption])
    · rfl
  | settling e =>
    obtain ⟨hopening, hcrash, hlength⟩ := h
    have hadv := step_advance v (.settling e)
    generalize (settling e).step v = next at hadv ⊢
    obtain ⟨q, out⟩ := next
    cases hadv with
    | work hp => cases hp
    | stop hp => cases hp
    | crash _ hhost => cases hhost
    | supersede hcur =>
      rw [said_nil, List.append_nil]
      exact Or.inl ⟨by simp, .interruption rfl hopening⟩
    | cancel hcur he =>
      rw [said_nil, List.append_nil]
      exact Or.inl ⟨by simp, .interruption rfl hopening⟩
    | fail hcur he =>
      rw [said_nil, List.append_nil]
      exact ⟨hopening, hcrash, he, hlength he⟩
  | reporting o =>
    cases o with
    | ok a =>
      obtain rfl : ms = Message.announcements := h
      exact Or.inl ⟨by simp, .result a⟩
    | error e =>
      obtain ⟨hopening, hcrash, he, hlength⟩ := h
      exact Or.inl ⟨by simpa using hcrash, .failure he hopening hlength⟩
  | ended o =>
    simp only [step]
    rw [said_nil, List.append_nil]
    exact h

/-- **What breaks a run off.** It is the request that the run makes where it stands. -/
theorem step_eq_crashed_iff {v : Sight} {p : Phase} {ms : List String} (h : p.Spoken v.setup ms) :
    (p.step v).1 = .ended (.error .crashed) ↔
      p = .ended (.error .crashed) ∨ v.cancelled = false ∧ p.Crashes v.host := by
  constructor
  · intro hend
    have hadv := step_advance v p
    generalize p.step v = next at hadv hend
    obtain ⟨q, out⟩ := next
    obtain rfl : q = .ended (.error .crashed) := hend
    cases hadv with
    | work hp hq => cases hq
    | crash htok hhost => exact Or.inr ⟨htok, hhost⟩
    | report => exact absurd rfl h.2.1
    | rest => exact Or.inl rfl
  · rintro (rfl | ⟨htok, hhost⟩)
    · rfl
    · rw [step_of_crashes htok hhost]

end Phase

namespace System

variable {setup : Setup} {history : List Action} {act : Action} {r : Started} {g : Nat}

/-! ## Runs that break off -/

/-- run `g` made a request that the host did not survive: it stood at the request, its token was not set, and it took a
step -/
def BrokenOff (setup : Setup) (history : List Action) (g : Nat) : Prop :=
  ∃ before host later, history = before ++ Action.step g host :: later ∧
    ∃ r ∈ (after setup before).runs, r.generation = g ∧ r.cancelled = false ∧ r.phase.Crashes host

/-- a run breaks off before the last action of a history, or with it -/
theorem brokenOff_snoc :
    BrokenOff setup (history ++ [act]) g ↔ BrokenOff setup history g ∨ ∃ host, act = .step g host ∧
      ∃ r ∈ (after setup history).runs, r.generation = g ∧ r.cancelled = false ∧ r.phase.Crashes host := by
  constructor
  · rintro ⟨before, host, later, heq, hrun⟩
    rcases List.eq_nil_or_concat later with rfl | ⟨later, last, rfl⟩
    · obtain ⟨rfl, hact⟩ := List.append_inj' heq rfl
      exact Or.inr ⟨host, List.singleton_inj.1 hact, hrun⟩
    · rw [List.concat_eq_append, ← List.cons_append, ← List.append_assoc] at heq
      exact Or.inl ⟨before, host, later, (List.append_inj' heq rfl).1, hrun⟩
  · rintro (⟨before, host, later, rfl, hrun⟩ | ⟨host, rfl, hrun⟩)
    · exact ⟨before, host, later ++ [act], by simp, hrun⟩
    · exact ⟨history, host, [], rfl, hrun⟩

/-- an action that is no step of a run breaks none off -/
theorem brokenOff_snoc_of_ne (hact : ∀ r ∈ (after setup history).runs, ∀ host, act ≠ .step r.generation host) :
    BrokenOff setup (history ++ [act]) g ↔ BrokenOff setup history g := by
  rw [brokenOff_snoc]
  refine or_iff_left ?_
  rintro ⟨host, heq, r, hr, rfl, -⟩
  exact hact r hr host heq

theorem brokenOff_snoc_step (hr : r ∈ (after setup history).runs) (host : Host) :
    BrokenOff setup (history ++ [.step r.generation host]) g ↔
      BrokenOff setup history g ∨ g = r.generation ∧ r.cancelled = false ∧ r.phase.Crashes host := by
  rw [brokenOff_snoc]
  refine or_congr_right ⟨?_, ?_⟩
  · rintro ⟨host', heq, q, hq, rfl, hcrash⟩
    obtain ⟨hgen, rfl⟩ := Action.step.inj heq
    obtain rfl := (numbered_after history).eq_of_generation_eq hq hr hgen.symm
    exact ⟨rfl, hcrash⟩
  · rintro ⟨rfl, hcrash⟩
    exact ⟨host, rfl, r, hr, rfl, hcrash⟩

/-! ## Histories -/

/-- a step speaks for its own run -/
theorem messagesOf_eventsOf (r : Started) (q : Phase) (out : List Output) (g : Nat) :
    messagesOf g (eventsOf r q out) = if r.generation = g then said out else [] := by
  have hout : messagesOf g (out.map (eventOf r.generation)) = if r.generation = g then said out else [] := by
    induction out with
    | nil => simp [messagesOf]
    | cons x out ih =>
      cases x with
      | say message =>
        simp only [messagesOf, said, List.map_cons, eventOf, List.filterMap_cons] at ih ⊢
        split_ifs with hg <;> simp_all
      | publish a => exact ih
  rw [eventsOf, messagesOf_append, ← hout]
  split
  · exact List.append_nil _
  · exact List.append_nil _

/-- what the runs of a history have said, and which of them broke off -/
structure Heard (setup : Setup) (history : List Action) : Prop where
  runs : ∀ r ∈ (after setup history).runs, r.phase.Spoken setup (messagesOf r.generation (log setup history)) ∧
    (r.phase = .ended (.error .crashed) ↔ BrokenOff setup history r.generation)
  unstarted : ∀ g, (after setup history).generation < g →
    messagesOf g (log setup history) = [] ∧ ¬ BrokenOff setup history g

theorem heard_nil (setup : Setup) : Heard setup [] := by
  refine ⟨fun r hr => ?_, fun g _ => ⟨rfl, fun hbroken => ?_⟩⟩
  · cases hr
  · obtain ⟨before, host, later, heq, -⟩ := hbroken
    simp at heq

/-- an action that only sets tokens, and may start a run, says nothing for any run -/
theorem Heard.of_tokens (h : Heard setup history) (opened : List Started)
    (hruns : (after setup (history ++ [act])).runs = (after setup history).cancelCurrent ++ opened)
    (hopened : ∀ r ∈ opened, r.phase = .opening ∧ (after setup history).generation < r.generation)
    (hsilent : ∀ g, messagesOf g ((after setup history).perform setup act).2 = [])
    (hact : ∀ g host, act ≠ .step g host)
    (hmono : (after setup history).generation ≤ (after setup (history ++ [act])).generation) :
    Heard setup (history ++ [act]) := by
  have hlog : ∀ g, messagesOf g (log setup (history ++ [act])) = messagesOf g (log setup history) := by
    intro g
    rw [log_snoc, messagesOf_append, hsilent, List.append_nil]
  have hbroken : ∀ g, BrokenOff setup (history ++ [act]) g ↔ BrokenOff setup history g :=
    fun g => brokenOff_snoc_of_ne fun r _ => hact r.generation
  refine ⟨fun r hr => ?_, fun g hg => ?_⟩
  · rw [hlog, hbroken]
    rw [hruns] at hr
    rcases List.mem_append.1 hr with hr | hr
    · obtain ⟨q, hq, hgen, hphase, -⟩ := of_mem_cancelCurrent hr
      rw [hgen, hphase]
      exact h.runs q hq
    · obtain ⟨hphase, hlater⟩ := hopened r hr
      obtain ⟨hunheard, hunbroken⟩ := h.unstarted r.generation hlater
      rw [hphase, hunheard]
      exact ⟨rfl, iff_of_false (by simp) hunbroken⟩
  · rw [hlog, hbroken]
    exact h.unstarted g (by omega)

theorem Heard.of_step (h : Heard setup history) (hr : r ∈ (after setup history).runs) (host : Host) :
    Heard setup (history ++ [.step r.generation host]) := by
  have hnum : Numbered (after setup history) := numbered_after history
  have hle := hnum.generation_le hr
  have hlog : ∀ g, messagesOf g (log setup (history ++ [.step r.generation host])) = messagesOf g (log setup history) ++
      if r.generation = g then said (r.phase.step ((after setup history).sight host setup r)).2 else [] := by
    intro g
    rw [log_snoc, messagesOf_append, perform_step_of_mem hnum hr, messagesOf_eventsOf]
  have hgen : (stepped setup (after setup history) host r).generation = r.generation := rfl
  -- the step says nothing for another run, and does not break it off
  have hother : ∀ g, g ≠ r.generation →
      messagesOf g (log setup (history ++ [.step r.generation host])) = messagesOf g (log setup history) ∧
        (BrokenOff setup (history ++ [.step r.generation host]) g ↔ BrokenOff setup history g) := by
    intro g hne
    rw [hlog, if_neg (Ne.symm hne), List.append_nil, brokenOff_snoc_step hr]
    exact ⟨rfl, or_iff_left fun hbroken => hne hbroken.1⟩
  obtain ⟨hspoken, hcrashed⟩ := h.runs r hr
  refine ⟨fun q hq => ?_, fun g hg => ?_⟩
  · rw [after_snoc] at hq
    rcases (mem_runs_step hnum hr).1 hq with rfl | ⟨hq, hne⟩
    · rw [hlog, hgen, if_pos rfl, brokenOff_snoc_step hr, ← hcrashed, and_iff_right rfl]
      exact ⟨Phase.spoken_step (v := (after setup history).sight host setup r) hspoken,
        Phase.step_eq_crashed_iff (v := (after setup history).sight host setup r) hspoken⟩
    · rw [(hother q.generation hne).1, (hother q.generation hne).2]
      exact h.runs q hq
  · rw [after_snoc, generation_step hnum] at hg
    have hne : g ≠ r.generation := by omega
    rw [(hother g hne).1, (hother g hne).2]
    exact h.unstarted g hg

/-- a step of no run changes nothing but the history -/
theorem Heard.of_idle (h : Heard setup history) (hg : ∀ r ∈ (after setup history).runs, r.generation ≠ g) (host : Host) :
    Heard setup (history ++ [.step g host]) := by
  have hafter : after setup (history ++ [.step g host]) = after setup history := by
    rw [after_snoc, perform_step_of_not_mem hg]
  have hlog : log setup (history ++ [.step g host]) = log setup history := by
    rw [log_snoc, perform_step_of_not_mem hg, List.append_nil]
  have hbroken : ∀ g', BrokenOff setup (history ++ [.step g host]) g' ↔ BrokenOff setup history g' :=
    fun g' => brokenOff_snoc_of_ne fun r hr host' heq => hg r hr (Action.step.inj heq).1.symm
  refine ⟨fun r hr => ?_, fun g' hlater => ?_⟩
  · rw [hafter] at hr
    rw [hlog, hbroken]
    exact h.runs r hr
  · rw [hafter] at hlater
    rw [hlog, hbroken]
    exact h.unstarted g' hlater

/-- **What the runs of every history have said.** -/
theorem heard (setup : Setup) (history : List Action) : Heard setup history := by
  induction history using List.reverseRecOn with
  | nil => exact heard_nil setup
  | append_singleton history act ih =>
    cases act with
    | start url =>
      refine ih.of_tokens [⟨(after setup history).generation + 1, url, false, .opening⟩] ?_ ?_ (fun g => rfl) (by simp) ?_
      · rw [after_snoc]
        rfl
      · simp
      · rw [after_snoc]
        exact Nat.le_succ _
    | cancel =>
      refine ih.of_tokens [] ?_ (by simp) (fun g => rfl) (by simp) ?_
      · rw [after_snoc, List.append_nil]
        rfl
      · rw [after_snoc]
        exact Nat.le_refl _
    | clear =>
      refine ih.of_tokens [] ?_ (by simp) (fun g => rfl) (by simp) ?_
      · rw [after_snoc, List.append_nil]
        rfl
      · rw [after_snoc]
        exact Nat.le_refl _
    | step g host =>
      rcases exists_run_or (after setup history) g with ⟨r, hr, rfl⟩ | hg
      · exact ih.of_step hr host
      · exact ih.of_idle hg host

/-- **Messages by outcome.** Histories are arbitrary lists of starts, cancels, clears and atomic steps of the runs. A run
that has ended has said what its outcome asks for, unless it broke off: a run ends as crashed exactly if it made, in a step
of its own, a request that the host did not survive, and then it has announced one or two stages and said no more. -/
theorem messages_by_outcome (setup : Setup) (history : List Action) (r : Started)
    (hr : r ∈ (after setup history).runs) (o : Outcome) (ho : r.phase.outcome? = some o) :
    ¬ BrokenOff setup history r.generation ∧ o ≠ .error .crashed ∧
        Says setup o (messagesOf r.generation (log setup history)) ∨
      BrokenOff setup history r.generation ∧ o = .error .crashed ∧
        Opening (messagesOf r.generation (log setup history)) ∧
        (messagesOf r.generation (log setup history)).length ≤ 2 := by
  have hended : r.phase = .ended o := Phase.outcome?_eq_some.1 ho
  obtain ⟨hspoken, hcrashed⟩ := (heard setup history).runs r hr
  rw [hended] at hspoken hcrashed
  rcases hspoken with ⟨hne, hsays⟩ | ⟨rfl, hopening, hlength⟩
  · exact Or.inl ⟨fun hbroken => hne (Phase.ended.inj (hcrashed.2 hbroken)), hne, hsays⟩
  · exact Or.inr ⟨hcrashed.1 rfl, rfl, hopening, hlength⟩

/-- a run whose listing is refused, with the refusal at each of its steps -/
def refusedHistory : List Action :=
  .start "github.com/shop/orders" ::
    List.replicate 7 (.step 1 ⟨fun _ => .answer (.error (.notFound "orders")), fun _ _ => .waiting⟩)

/-- a run whose host lists one file and does not survive the request for it -/
def fragileHistory : List Action :=
  .start "github.com/shop/orders" :: List.replicate 9 (.step 1 ⟨fun _ => .answer (.ok ["A.java"]), fun _ _ => .crash⟩)

/-- the first of the runs reports its failure, the second breaks off -/
theorem messages_by_outcome_samples :
    (∃ r ∈ (after ".java" refusedHistory).runs, r.phase.outcome? = some (.error (.fetch (.notFound "orders"))) ∧
      Says ".java" (.error (.fetch (.notFound "orders"))) (messagesOf r.generation (log ".java" refusedHistory))) ∧
    ∃ r ∈ (after ".java" fragileHistory).runs, r.phase.outcome? = some (.error .crashed) ∧
      BrokenOff ".java" fragileHistory r.generation ∧ Opening (messagesOf r.generation (log ".java" fragileHistory)) ∧
      (messagesOf r.generation (log ".java" fragileHistory)).length ≤ 2 := by
  constructor
  · have hruns : (after ".java" refusedHistory).runs =
        [⟨1, "github.com/shop/orders", false, .ended (.error (.fetch (.notFound "orders")))⟩] := rfl
    refine ⟨_, by rw [hruns]; exact List.mem_singleton.2 rfl, rfl, ?_⟩
    rcases messages_by_outcome ".java" refusedHistory _ (by rw [hruns]; exact List.mem_singleton.2 rfl) _ rfl with
      ⟨-, -, hsays⟩ | ⟨-, hcrashed, -⟩
    · exact hsays
    · cases hcrashed
  · have hruns : (after ".java" fragileHistory).runs =
        [⟨1, "github.com/shop/orders", false, .ended (.error .crashed)⟩] := rfl
    refine ⟨_, by rw [hruns]; exact List.mem_singleton.2 rfl, rfl, ?_⟩
    rcases messages_by_outcome ".java" fragileHistory _ (by rw [hruns]; exact List.mem_singleton.2 rfl) _ rfl with
      ⟨-, hne, -⟩ | ⟨hbroken, -, hopening, hlength⟩
    · exact absurd rfl hne
    · exact ⟨hbroken, hopening, hlength⟩

/-- a run that breaks off fails, and does not say so -/
theorem crashed_run_reports_nothing :
    ¬ ∀ (setup : Setup) (history : List Action), ∀ r ∈ (after setup history).runs, ∀ o, r.phase.outcome? = some o →
      Says setup o (messagesOf r.generation (log setup history)) := by
  intro h
  have hruns : (after ".java" fragileHistory).runs =
      [⟨1, "github.com/shop/orders", false, .ended (.error .crashed)⟩] := rfl
  have hmessages : messagesOf 1 (log ".java" fragileHistory) = ["Fetching file list...", "Downloading sources..."] := rfl
  have hsays := h ".java" fragileHistory _ (by rw [hruns]; exact List.mem_singleton.2 rfl) _ rfl
  rw [hmessages] at hsays
  generalize hms : ["Fetching file list...", "Downloading sources..."] = ms at hsays
  cases hsays with
  | interruption he => cases he
  | @failure _ opening _ _ _ =>
    have hlast : "Downloading sources..." = "Error: " ++ RunError.crashed.message := by
      have := congrArg List.getLast? hms
      simpa using this
    exact absurd hlast (by decide)

end System

end ClassAtlas.Run
