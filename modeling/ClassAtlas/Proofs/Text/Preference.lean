/-
Which of several ends of a pattern is taken, and what is left of a text whose matches are replaced.

- `run_of_only`: where the continuation succeeds at one end at most, the order of the ends does not matter.
- `many_run_far`, `some1_run_far`: a greedy run is left at its farthest end if the continuation succeeds there.
- `few_run_first`: a reluctant run is left at the first end where the continuation succeeds.
- `seek_only`: a search that can succeed at one place only.
- `replaceIn_eq_self`, `length_replaceIn_lt`: a text without a match is left as it is, and one with a match gets shorter if
  nothing is put in its place.
-/
import ClassAtlas.Proofs.Text.Matching

namespace ClassAtlas.Text.Pattern

/-! ## Ends -/

section

variable {α : Type} {p : Pattern} {k : Cursor → Option α} {c d : Cursor} {ok : Char → Bool} {before u r : List Char}

theorem run_of_only (hd : d ∈ p.ends c) (honly : ∀ e ∈ p.ends c, e ≠ d → k e = none) : p.run k c = k d := by
  cases hk : k d with
  | some a =>
    refine run_eq_some hd hk ?_
    intro e he b hb
    by_cases hne : e = d
    · rw [hne, hk] at hb
      exact (Option.some.inj hb).symm
    · rw [honly e he hne] at hb
      cases hb
  | none =>
    rw [run_eq_none_iff]
    intro e he
    by_cases hne : e = d
    · rw [hne, hk]
    · exact honly e he hne

@[simp] theorem seq_run {q : Pattern} : (seq p q).run k = p.run (q.run k) := rfl

@[simp] theorem all_run_nil : (all []).run k = k := rfl

@[simp] theorem all_run_cons {ps : List Pattern} : (all (p :: ps)).run k = p.run ((all ps).run k) := rfl

theorem choice_run_left {q : Pattern} (h : (p.run k c).isSome = true) : (choice p q).run k c = p.run k c := by
  obtain ⟨a, ha⟩ := Option.isSome_iff_exists.1 h
  rw [run, ha]

theorem choice_run_right {q : Pattern} (h : p.run k c = none) : (choice p q).run k c = q.run k c := by
  rw [run, h]

theorem optional_run_taken (h : (p.run k c).isSome = true) : (optional p).run k c = p.run k c := by
  obtain ⟨a, ha⟩ := Option.isSome_iff_exists.1 h
  rw [run, ha]

theorem optional_run_skipped (h : p.run k c = none) : (optional p).run k c = k c := by
  rw [run, h]

theorem text_run (s : List Char) : (text s).run k ⟨before, s ++ r⟩ = k ⟨s.reverse ++ before, r⟩ := by
  induction s generalizing before with
  | nil => rfl
  | cons x s ih => simp [text, run, ih]

theorem text_run_eq_none {s after : List Char} (h : ¬ s <+: after) : (text s).run k ⟨before, after⟩ = none := by
  rw [run_eq_none_iff]
  intro d hd
  obtain ⟨u, htakes, hu⟩ := mem_ends_iff.1 hd
  rw [spans_text.1 hu] at htakes
  exact absurd ⟨d.after, htakes.after.symm⟩ h

theorem many_run_far (hu : ∀ y ∈ u, ok y = true) (hr : r.head?.any ok = false)
    (hk : (k ⟨u.reverse ++ before, r⟩).isSome = true) :
    (many ok).run k ⟨before, u ++ r⟩ = k ⟨u.reverse ++ before, r⟩ := by
  simp only [run]
  induction u generalizing before with
  | nil =>
    cases r with
    | nil => rfl
    | cons x r =>
      have hx : ok x = false := by simpa using hr
      simp [manyRun, hx]
  | cons x u ih =>
    have hx : ok x = true := hu x List.mem_cons_self
    rw [List.reverse_cons, List.append_assoc] at hk ⊢
    obtain ⟨a, ha⟩ := Option.isSome_iff_exists.1 hk
    have hrest := ih (fun y hy => hu y (List.mem_cons_of_mem x hy)) hk
    rw [List.singleton_append] at ha hrest ⊢
    simp only [List.cons_append, manyRun, hx, if_true, hrest, ha]

theorem some1_run_far (hne : u ≠ []) (hu : ∀ y ∈ u, ok y = true) (hr : r.head?.any ok = false)
    (hk : (k ⟨u.reverse ++ before, r⟩).isSome = true) :
    (some1 ok).run k ⟨before, u ++ r⟩ = k ⟨u.reverse ++ before, r⟩ := by
  obtain ⟨x, u, rfl⟩ := List.exists_cons_of_ne_nil hne
  have hx : ok x = true := hu x List.mem_cons_self
  rw [List.reverse_cons, List.append_assoc] at hk ⊢
  have hrest := many_run_far (fun y hy => hu y (List.mem_cons_of_mem x hy)) hr hk
  simpa [some1, run, hx] using hrest

theorem few_run_first (hu : ∀ y ∈ u, ok y = true)
    (hfail : ∀ v w, u = v ++ w → w ≠ [] → k ⟨v.reverse ++ before, w ++ r⟩ = none)
    (hk : (k ⟨u.reverse ++ before, r⟩).isSome = true) :
    (few ok).run k ⟨before, u ++ r⟩ = k ⟨u.reverse ++ before, r⟩ := by
  simp only [run]
  induction u generalizing before with
  | nil =>
    cases r with
    | nil => rfl
    | cons x r =>
      obtain ⟨a, ha⟩ := Option.isSome_iff_exists.1 hk
      simp only [List.reverse_nil, List.nil_append] at ha
      simp [fewRun, ha]
  | cons x u ih =>
    have hx : ok x = true := hu x List.mem_cons_self
    have hfirst : k ⟨before, x :: (u ++ r)⟩ = none := hfail [] (x :: u) rfl (List.cons_ne_nil x u)
    rw [List.reverse_cons, List.append_assoc] at hk ⊢
    have hrest := ih (fun y hy => hu y (List.mem_cons_of_mem x hy)) (fun v w huv hw => by
      simpa using hfail (x :: v) w (by rw [huv]; rfl) hw) hk
    simp only [List.cons_append, fewRun, hfirst, hx, if_true]
    exact hrest

theorem seek_only {attempt : Cursor → Option α} {s : List Char} (hc : c.text = s)
    (honly : ∀ d, d.text = s → d ≠ c → attempt d = none) : seek attempt [] s = attempt c := by
  have hmem : ∀ {d}, d ∈ (few fun _ => true).ends (Cursor.start s) ↔ d.text = s := by
    intro d
    rw [mem_ends_iff, ← Cursor.exists_takes_start_iff]
    simp [Spans]
  rw [seek_eq_run]
  exact run_of_only (hmem.2 hc) fun d hd hne => honly d (hmem.1 hd) hne

end

/-! ## Replacement -/

section

variable {p : Pattern} {new before after r u : List Char} {x : Char}

theorem replaceIn_cons_of_none (h : p.run some ⟨before, x :: r⟩ = none) :
    p.replaceIn new before (x :: r) = x :: p.replaceIn new (x :: before) r := by
  rw [replaceIn, h]

theorem replaceIn_of_some (h : p.run some ⟨before, u ++ r⟩ = some ⟨u.reverse ++ before, r⟩) (hu : u ≠ []) :
    p.replaceIn new before (u ++ r) = new ++ p.replaceIn new (u.reverse ++ before) r := by
  obtain ⟨x, t, rfl⟩ := List.exists_cons_of_ne_nil hu
  rw [List.cons_append] at h ⊢
  rw [replaceIn, h]
  exact if_pos (by simp)

/-- each match takes a character at least -/
def Consuming (p : Pattern) : Prop := ∀ {c d}, d ∈ p.ends c → d.after.length < c.after.length

theorem replaceIn_eq_self (h : seek (p.run some) before after = none) : p.replaceIn new before after = after := by
  fun_induction replaceIn p new before after with
  | case1 before => rfl
  | case2 before x r hnone ih =>
    rw [seek, hnone] at h
    rw [ih h]
  | case3 before x r stop hstop hle ih =>
    rw [seek, hstop] at h
    cases h
  | case4 before x r stop hstop hle ih =>
    rw [seek, hstop] at h
    cases h

theorem length_replaceIn_le (p : Pattern) (before after : List Char) :
    (p.replaceIn [] before after).length ≤ after.length := by
  fun_induction replaceIn p [] before after with
  | case1 before => exact Nat.le_refl _
  | case2 before x r hnone ih => simpa using ih
  | case3 before x r stop hstop hle ih =>
    rw [List.nil_append, List.length_cons]
    omega
  | case4 before x r stop hstop hle ih => simpa using ih

theorem length_replaceIn_lt (hp : p.Consuming) (h : (seek (p.run some) before after).isSome = true) :
    (p.replaceIn [] before after).length < after.length := by
  fun_induction replaceIn p [] before after with
  | case1 before =>
    -- nothing is left to be taken
    obtain ⟨d, hd, -⟩ := run_isSome_iff.1 h
    exact absurd (hp hd) (Nat.not_lt_zero _)
  | case2 before x r hnone ih =>
    rw [seek, hnone] at h
    simpa using ih h
  | case3 before x r stop hstop hle ih =>
    have hlen := length_replaceIn_le p stop.before stop.after
    rw [List.nil_append, List.length_cons]
    omega
  | case4 before x r stop hstop hle ih =>
    obtain ⟨d, hd, hstop'⟩ := exists_end_of_run hstop
    obtain rfl := Option.some.inj hstop'
    have hlt : d.after.length < (x :: r).length := hp hd
    rw [List.length_cons] at hlt
    omega

end

end ClassAtlas.Text.Pattern
