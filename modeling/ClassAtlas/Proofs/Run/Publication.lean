/-
Publication is safe under every interleaving of starts, cancels, clears and steps of the runs.

Runs look at their token and at the current generation at many places and may be interrupted between any two of them, so
safety rests on the last look alone. `MayPublish s g` says what is left of it in a state: the run `g` is still to be started,
or it is the current one, works on, and its token is not set. No action makes it true again (`mayPublish_of_perform`), a
publication needs it and ends it (`not_mayPublish_of_published`), and so do a later start, a cancel and a clear.
`publication_safety` puts this together.
-/
import ClassAtlas.Proofs.Run.Steps

namespace ClassAtlas.Run

open ClassAtlas.Repository

/-- the generations that publish, in the order of their publications -/
def publishers (events : List Event) : List Nat :=
  events.filterMap fun
    | .published g _ => some g
    | _ => none

theorem mem_publishers {events : List Event} {g : Nat} :
    g ∈ publishers events ↔ ∃ a, Event.published g a ∈ events := by
  simp only [publishers, List.mem_filterMap]
  constructor
  · rintro ⟨e, he, heq⟩
    cases e with
    | published g' a =>
      cases heq
      exact ⟨a, he⟩
    | _ => cases heq
  · rintro ⟨a, ha⟩
    exact ⟨_, ha, rfl⟩

theorem publishers_append (as bs : List Event) : publishers (as ++ bs) = publishers as ++ publishers bs :=
  List.filterMap_append

namespace System

variable {setup : Setup} {s : System} {g : Nat} {act : Action} {a : Analysis}

/-- run `g` is still to be started, or it is current, at work and not cancelled -/
def MayPublish (s : System) (g : Nat) : Prop :=
  s.generation < g ∨ g = s.generation ∧
    ∃ r ∈ s.runs, r.generation = g ∧ r.cancelled = false ∧ r.phase.working = true

theorem MayPublish.generation_le (h : MayPublish s g) : s.generation ≤ g := by
  rcases h with h | ⟨h, -⟩ <;> omega

/-! ## The right to publish is never regained -/

theorem not_mayPublish_start (url : String) (hle : g ≤ s.generation) : ¬ MayPublish (s.start url) g := by
  intro h
  have := h.generation_le
  simp only [start] at this
  omega

theorem not_mayPublish_of_cancelCurrent {t : System} (hgen : t.generation = s.generation) (hruns : t.runs = s.cancelCurrent)
    (hle : g ≤ s.generation) : ¬ MayPublish t g := by
  rintro (hlt | ⟨heq, r, hr, hrg, htok, -⟩)
  · omega
  · rw [hruns] at hr
    have hset := cancelled_of_mem_cancelCurrent hr (by omega)
    rw [htok] at hset
    cases hset

theorem mayPublish_of_perform (h : Numbered s) (hm : MayPublish (s.perform setup act).1 g) : MayPublish s g := by
  cases act with
  | start url =>
    have := hm.generation_le
    exact Or.inl this
  | cancel =>
    by_cases hle : g ≤ s.generation
    · exact absurd hm (not_mayPublish_of_cancelCurrent (s := s) rfl rfl hle)
    · exact Or.inl (by omega)
  | clear =>
    by_cases hle : g ≤ s.generation
    · exact absurd hm (not_mayPublish_of_cancelCurrent (s := s) rfl rfl hle)
    · exact Or.inl (by omega)
  | step g' host =>
    rcases exists_run_or s g' with ⟨r, hr, rfl⟩ | hg
    · rw [MayPublish, generation_step h] at hm
      rcases hm with hlt | ⟨heq, q, hq, hqg, htok, hwork⟩
      · exact Or.inl hlt
      · refine Or.inr ⟨heq, ?_⟩
        rcases (mem_runs_step h hr).1 hq with rfl | ⟨hq, -⟩
        · exact ⟨r, hr, hqg, htok, Phase.working_of_step hwork⟩
        · exact ⟨q, hq, hqg, htok, hwork⟩
    · rw [perform_step_of_not_mem hg] at hm
      exact hm

theorem mayPublish_of_published (h : Numbered s) (hp : Event.published g a ∈ (s.perform setup act).2) :
    MayPublish s g := by
  obtain ⟨host, -, r, hr, hrg, hcur, htok, hphase, -, -⟩ := published_mem_perform h hp
  exact Or.inr ⟨hcur, r, hr, hrg, htok, by rw [hphase]; rfl⟩

theorem not_mayPublish_of_published (h : Numbered s) (hp : Event.published g a ∈ (s.perform setup act).2) :
    ¬ MayPublish (s.perform setup act).1 g := by
  obtain ⟨host, rfl, r, hr, rfl, hcur, -, -, hnext, -⟩ := published_mem_perform h hp
  rw [MayPublish, generation_step h]
  rintro (hlt | ⟨-, q, hq, hqg, -, hwork⟩)
  · omega
  · rcases (mem_runs_step h hr).1 hq with rfl | ⟨-, hne⟩
    · rw [hnext] at hwork
      cases hwork
    · exact hne hqg

theorem mayPublish_of_mem_publishers (h : Numbered s) {as : List Action}
    (hg : g ∈ publishers (s.performAll setup as).2) : MayPublish s g := by
  induction as generalizing s with
  | nil => cases hg
  | cons b as ih =>
    simp only [performAll, publishers_append, List.mem_append] at hg
    rcases hg with hg | hg
    · obtain ⟨a, ha⟩ := mem_publishers.1 hg
      exact mayPublish_of_published h ha
    · exact mayPublish_of_perform h (ih (numbered_perform h b) hg)

/-- an action publishes at most once -/
theorem publishers_perform_pairwise (h : Numbered s) :
    (publishers (s.perform setup act).2).Pairwise (· < ·) := by
  cases hpubs : publishers (s.perform setup act).2 with
  | nil => exact List.Pairwise.nil
  | cons g rest =>
    have hg : g ∈ publishers (s.perform setup act).2 := by rw [hpubs]; exact List.mem_cons_self
    obtain ⟨a, ha⟩ := mem_publishers.1 hg
    obtain ⟨-, -, -, -, -, -, -, -, -, honly⟩ := published_mem_perform h ha
    rw [← hpubs, honly]
    exact List.pairwise_singleton _ _

/-- **Publications come in the order of their generations.** -/
theorem publishers_pairwise (h : Numbered s) (as : List Action) :
    (publishers (s.performAll setup as).2).Pairwise (· < ·) := by
  induction as generalizing s with
  | nil => exact List.Pairwise.nil
  | cons b as ih =>
    simp only [performAll, publishers_append]
    refine List.pairwise_append.2 ⟨publishers_perform_pairwise h, ih (numbered_perform h b), ?_⟩
    intro g hg g' hg'
    -- the first has lost its right, the later one still has it
    obtain ⟨a, ha⟩ := mem_publishers.1 hg
    have hlost := not_mayPublish_of_published h ha
    have hlater := mayPublish_of_mem_publishers (numbered_perform h b) hg'
    have hne : g ≠ g' := fun heq => hlost (heq ▸ hlater)
    have hle := hlater.generation_le
    obtain ⟨host, rfl, -, -, -, hcur, -⟩ := published_mem_perform h ha
    rw [generation_step h] at hle
    omega

/-! ## Histories -/

/-- the events of a history that follows another one -/
def since (setup : Setup) (before later : List Action) : List Event :=
  ((after setup before).performAll setup later).2

theorem not_mem_publishers_since {before later : List Action} (h : ¬ MayPublish (after setup before) g) :
    g ∉ publishers (since setup before later) :=
  fun hg => h (mayPublish_of_mem_publishers (numbered_after before) hg)

/-- whatever wipes or keeps the store, it stays empty as long as nobody publishes -/
theorem store_eq_none_of_no_publisher {events : List Event} (h : ∀ g, g ∉ publishers events) :
    events.foldl storeAfter none = none := by
  induction events with
  | nil => rfl
  | cons e events ih =>
    have hrest : ∀ g, g ∉ publishers events := fun g hg => h g (by
      obtain ⟨a, ha⟩ := mem_publishers.1 hg
      exact mem_publishers.2 ⟨a, List.mem_cons_of_mem e ha⟩)
    have hfirst : storeAfter none e = none := by
      cases e with
      | published g a => exact absurd (mem_publishers.2 ⟨a, List.mem_cons_self⟩) (h g)
      | _ => rfl
    rw [List.foldl_cons, hfirst]
    exact ih hrest

theorem not_mayPublish_after_start {before : List Action} (url : String) (hle : g ≤ (after setup before).generation) :
    ¬ MayPublish (after setup (before ++ [.start url])) g := by
  rw [after_snoc]
  exact not_mayPublish_start url hle

theorem not_mayPublish_after_stop {before : List Action} (hact : act = .cancel ∨ act = .clear)
    (hle : g ≤ (after setup before).generation) : ¬ MayPublish (after setup (before ++ [act])) g := by
  rw [after_snoc]
  rcases hact with rfl | rfl <;> exact not_mayPublish_of_cancelCurrent (s := after setup before) rfl rfl hle

/-- after a clear the store is empty, or it holds what a run started after the clear has published -/
theorem published_or_store_eq_none (before later : List Action) :
    (∃ g ∈ publishers (since setup (before ++ [.clear]) later), (after setup before).generation < g) ∨
      (after setup (before ++ .clear :: later)).store = none := by
  by_cases hpub : ∃ g, g ∈ publishers (since setup (before ++ [.clear]) later)
  · obtain ⟨g, hg⟩ := hpub
    refine Or.inl ⟨g, hg, ?_⟩
    by_contra hle
    exact not_mem_publishers_since (not_mayPublish_after_stop (Or.inr rfl) (Nat.le_of_not_lt hle)) hg
  · right
    have hempty : (after setup (before ++ [.clear])).store = none := by
      rw [after_snoc]
      rfl
    rw [List.append_cons, after_append, performAll_store, hempty]
    exact store_eq_none_of_no_publisher fun g hg => hpub ⟨g, hg⟩

/-- **Publication safety.** Histories are arbitrary lists of starts, cancels, clears and atomic steps of the runs. -/
theorem publication_safety (setup : Setup) :
    -- a publication is a step of its own run, while that is current and not cancelled
    (∀ before act g a, Event.published g a ∈ ((after setup before).perform setup act).2 →
      (∃ host, act = .step g host) ∧ g = (after setup before).generation ∧
      (∃ r ∈ (after setup before).runs, r.generation = g) ∧
      (∀ r ∈ (after setup before).runs, r.generation = g → r.cancelled = false) ∧
      (after setup (before ++ [act])).store = some a) ∧
    -- and while it is, it does publish
    (∀ before a, ∀ r ∈ (after setup before).runs, r.phase = .publishing a →
      r.generation = (after setup before).generation → r.cancelled = false → ∀ host,
      Event.published r.generation a ∈ ((after setup before).perform setup (.step r.generation host)).2) ∧
    -- each run publishes at most once, and generations of successive publications increase
    (∀ history g, (publishers (log setup history)).count g ≤ 1) ∧
    (∀ history, (publishers (log setup history)).Pairwise (· < ·)) ∧
    -- no run publishes after a later start,
    (∀ before url later g, g ≤ (after setup before).generation →
      g ∉ publishers (since setup (before ++ [.start url]) later)) ∧
    -- or after a cancel or clear that came while it was current
    (∀ before act later, act = .cancel ∨ act = .clear →
      (after setup before).generation ∉ publishers (since setup (before ++ [act]) later)) ∧
    -- from a clear on the store is empty until a run started after it publishes
    ∀ before later, (∃ g ∈ publishers (since setup (before ++ [.clear]) later), (after setup before).generation < g) ∨
      (after setup (before ++ .clear :: later)).store = none := by
  have hincreasing : ∀ history, (publishers (log setup history)).Pairwise (· < ·) :=
    fun history => publishers_pairwise numbered_fresh history
  refine ⟨fun before act g a hp => ?_,
    fun before a r hr hphase hcur htok host => published_of_publishing (numbered_after before) hr hphase hcur htok host,
    fun history g => ?_, hincreasing, fun before url later g hle => ?_,
    fun before act later hact => ?_, published_or_store_eq_none⟩
  · have hnum : Numbered (after setup before) := numbered_after before
    obtain ⟨host, hact, r, hr, hrg, hcur, htok, -, -, honly⟩ := published_mem_perform hnum hp
    refine ⟨⟨host, hact⟩, hcur, ⟨r, hr, hrg⟩, fun q hq hqg => ?_, ?_⟩
    · rw [hnum.eq_of_generation_eq hq hr (hqg.trans hrg.symm)]
      exact htok
    · rw [after_snoc, perform_store, honly]
      rfl
  · have hnodup : (publishers (log setup history)).Nodup := (hincreasing history).imp fun hlt => Nat.ne_of_lt hlt
    exact List.nodup_iff_count_le_one.1 hnodup g
  · exact not_mem_publishers_since (not_mayPublish_after_start url hle)
  · exact not_mem_publishers_since (not_mayPublish_after_stop hact (Nat.le_refl _))

-- the first run is overtaken while it asks for its listing; the second one publishes, the first does not
example :
    let empty : Host := ⟨fun _ => .answer (.ok []), fun _ _ => .waiting⟩
    publishers (log ".java" (.start "github.com/o/r" :: List.replicate 6 (.step 1 empty) ++ .start "github.com/o/r" ::
      List.replicate 22 (.step 2 empty) ++ List.replicate 8 (.step 1 empty))) = [2] := by
  decide

end System

end ClassAtlas.Run
