/-
What patterns match, told by the texts they take and not by the search for them.

- `Pattern.Spans`: a pattern takes a text between what stands before it and what stands after it. `mem_ends_iff`: these
  are the texts that lead to the ends of a pattern, in whatever order the ends are preferred.
- `occursIn_iff`, `startsText_iff`: a pattern occurs in a text, or starts it, when it spans a part of it there.
- `mem_scan_iff`: a search for matches that do not overlap loses none, if none starts inside another (`Apart`). It gives
  `mem_matchesIn_iff` and `mem_captures_iff` for patterns that leave no choice.
-/
import ClassAtlas.Proofs.Text.Identifiers

namespace ClassAtlas.Text

namespace Cursor

variable {c d e : Cursor} {u v s : List Char}

/-- the whole text around a place -/
def text (c : Cursor) : List Char := c.before.reverse ++ c.after

theorem takes_nil_iff : c.Takes [] d ↔ d = c := by
  constructor
  · rintro ⟨hafter, hbefore⟩
    cases c
    cases d
    simp_all
  · rintro rfl
    exact ⟨rfl, rfl⟩

theorem takes_append_iff : c.Takes (u ++ v) e ↔ ∃ d, c.Takes u d ∧ d.Takes v e := by
  constructor
  · rintro ⟨hafter, hbefore⟩
    refine ⟨⟨u.reverse ++ c.before, v ++ e.after⟩, ⟨?_, rfl⟩, rfl, ?_⟩
    · rw [hafter, List.append_assoc]
    · rw [hbefore, List.reverse_append, List.append_assoc]
  · rintro ⟨d, h, h'⟩
    constructor
    · rw [h.after, h'.after, List.append_assoc]
    · rw [h'.before, h.before, List.reverse_append, List.append_assoc]

theorem Takes.unique (h : c.Takes u d) (h' : c.Takes u e) : d = e := by
  have hafter : d.after = e.after := List.append_cancel_left (h.after.symm.trans h'.after)
  have hbefore : d.before = e.before := h.before.trans h'.before.symm
  cases d
  cases e
  simp_all

theorem Takes.eq_of_same_end (h : c.Takes u d) (h' : c.Takes v d) : u = v :=
  List.append_cancel_right (h.after.symm.trans h'.after)

theorem Takes.text_eq (h : c.Takes u d) : d.text = c.text := by
  simp [Cursor.text, h.before, h.after]

theorem exists_takes_start_iff : (∃ u, (start s).Takes u c) ↔ c.text = s := by
  constructor
  · rintro ⟨u, h⟩
    rw [h.text_eq]
    rfl
  · rintro rfl
    exact ⟨c.before.reverse, rfl, by simp [start]⟩

/-- a way from a place stays there or takes the next character -/
theorem exists_takes_cons_iff {before r : List Char} {x : Char} :
    (∃ u, Takes ⟨before, x :: r⟩ u c) ↔ c = ⟨before, x :: r⟩ ∨ ∃ u, Takes ⟨x :: before, r⟩ u c := by
  constructor
  · rintro ⟨u, hu⟩
    cases u with
    | nil => exact Or.inl (takes_nil_iff.1 hu)
    | cons y u =>
      obtain ⟨d, hd, hu'⟩ := (takes_append_iff (u := [y])).1 hu
      obtain ⟨rfl, -⟩ : x = y ∧ r = d.after := by simpa using hd.after
      rw [hd.unique (e := ⟨x :: before, r⟩) ⟨rfl, rfl⟩] at hu'
      exact Or.inr ⟨u, hu'⟩
  · rintro (rfl | ⟨u, hu⟩)
    · exact ⟨[], takes_nil_iff.2 rfl⟩
    · exact ⟨[x] ++ u, takes_append_iff.2 ⟨_, ⟨rfl, rfl⟩, hu⟩⟩

/-- of two ways from one place, one goes on where the other ends -/
theorem Takes.split (h : c.Takes u d) (h' : c.Takes v e) :
    (∃ w, v = u ++ w ∧ d.Takes w e) ∨ ∃ w, w ≠ [] ∧ u = v ++ w ∧ e.Takes w d := by
  rcases List.prefix_or_prefix_of_prefix (List.prefix_append u d.after)
    (h.after.symm.trans h'.after ▸ List.prefix_append v e.after) with ⟨w, rfl⟩ | ⟨w, rfl⟩
  · obtain ⟨d', hd', hw⟩ := takes_append_iff.1 h'
    rw [hd'.unique h] at hw
    exact Or.inl ⟨w, rfl, hw⟩
  · obtain ⟨e', he', hw⟩ := takes_append_iff.1 h
    rw [he'.unique h'] at hw
    cases w with
    | nil => exact Or.inl ⟨[], by simp, takes_nil_iff.2 (takes_nil_iff.1 hw).symm⟩
    | cons x w => exact Or.inr ⟨x :: w, List.cons_ne_nil x w, rfl, hw⟩

end Cursor

/-- a run of a class that goes as far as it can is determined by the text -/
theorem append_inj_of_class {ok : Char → Bool} {u v r t : List Char} (hu : ∀ c ∈ u, ok c = true)
    (hv : ∀ c ∈ v, ok c = true) (hr : r.head?.any ok = false) (ht : t.head?.any ok = false) (h : u ++ r = v ++ t) :
    u = v ∧ r = t := by
  induction u generalizing v with
  | nil =>
    cases v with
    | nil => exact ⟨rfl, h⟩
    | cons y v =>
      rw [List.nil_append] at h
      rw [h, List.cons_append, List.head?_cons, Option.any_some, hv y List.mem_cons_self] at hr
      cases hr
  | cons x u ih =>
    cases v with
    | nil =>
      rw [List.nil_append] at h
      rw [← h, List.cons_append, List.head?_cons, Option.any_some, hu x List.mem_cons_self] at ht
      cases ht
    | cons y v =>
      simp only [List.cons_append, List.cons.injEq] at h
      obtain ⟨rfl, h⟩ := h
      obtain ⟨rfl, rfl⟩ := ih (fun c hc => hu c (List.mem_cons_of_mem x hc))
        (fun c hc => hv c (List.mem_cons_of_mem x hc)) h
      exact ⟨rfl, rfl⟩

namespace Pattern

/-! ## The texts a pattern takes -/

/-- the pattern takes the text between `before`, nearest character first, and `after` -/
def Spans : Pattern → List Char → List Char → List Char → Prop
  | .empty, _, u, _ => u = []
  | .char ok, _, u, _ => ∃ x, ok x = true ∧ u = [x]
  | .many ok, _, u, _ => ∀ y ∈ u, ok y = true
  | .few ok, _, u, _ => ∀ y ∈ u, ok y = true
  | .boundary, before, u, after => Cursor.atBoundary ⟨before, after⟩ = true ∧ u = []
  | .seq p q, before, u, after =>
    ∃ v w, u = v ++ w ∧ p.Spans before v (w ++ after) ∧ q.Spans (v.reverse ++ before) w after
  | .choice p q, before, u, after => p.Spans before u after ∨ q.Spans before u after
  | .optional p, before, u, after => p.Spans before u after ∨ u = []

theorem mem_charEnds_iff {ok : Char → Bool} {c d : Cursor} :
    d ∈ (char ok).ends c ↔ ∃ x, ok x = true ∧ c.Takes [x] d := by
  obtain ⟨before, after⟩ := c
  cases after with
  | nil =>
    simp only [ends, List.not_mem_nil, false_iff]
    rintro ⟨x, -, h⟩
    cases h.after
  | cons x r =>
    simp only [ends]
    constructor
    · intro hd
      split at hd
      · obtain rfl := List.mem_singleton.1 hd
        exact ⟨x, ‹_›, rfl, rfl⟩
      · cases hd
    · rintro ⟨y, hy, h⟩
      obtain ⟨rfl, -⟩ : x = y ∧ r = d.after := by simpa using h.after
      rw [if_pos hy, h.unique (e := ⟨x :: before, r⟩) ⟨rfl, rfl⟩]
      exact List.mem_cons_self

theorem mem_manyEnds_iff {ok : Char → Bool} {before after : List Char} {d : Cursor} :
    d ∈ manyEnds ok before after ↔ ∃ u, (∀ y ∈ u, ok y = true) ∧ Cursor.Takes ⟨before, after⟩ u d := by
  induction after generalizing before with
  | nil =>
    simp only [manyEnds, List.mem_singleton]
    constructor
    · rintro rfl
      exact ⟨[], by simp, rfl, rfl⟩
    · rintro ⟨u, -, hafter, hbefore⟩
      cases d
      simp_all
  | cons x r ih =>
    have hstay : Cursor.Takes ⟨before, x :: r⟩ [] ⟨before, x :: r⟩ := ⟨rfl, rfl⟩
    constructor
    · intro hd
      by_cases hx : ok x = true
      · simp only [manyEnds, hx, if_true, List.mem_append, List.mem_singleton] at hd
        rcases hd with hd | rfl
        · obtain ⟨u, hu, hafter, hbefore⟩ := ih.1 hd
          simp only at hafter hbefore
          exact ⟨x :: u, by simpa [hx] using hu, by simp [hafter], by simp [hbefore]⟩
        · exact ⟨[], by simp, hstay⟩
      · simp only [manyEnds, hx, Bool.false_eq_true, if_false, List.mem_singleton] at hd
        subst hd
        exact ⟨[], by simp, hstay⟩
    · rintro ⟨u, hu, hafter, hbefore⟩
      cases u with
      | nil =>
        obtain rfl : d = ⟨before, x :: r⟩ := by cases d; simp_all
        by_cases hx : ok x = true <;> simp [manyEnds, hx]
      | cons y u =>
        obtain ⟨rfl, hr⟩ : x = y ∧ r = u ++ d.after := by simpa using hafter
        have hx : ok x = true := hu x List.mem_cons_self
        have hrest : d ∈ manyEnds ok (x :: before) r :=
          ih.2 ⟨u, fun z hz => hu z (List.mem_cons_of_mem x hz), hr, by simpa using hbefore⟩
        simp [manyEnds, hx, hrest]

theorem mem_fewEnds_iff {ok : Char → Bool} {before after : List Char} {d : Cursor} :
    d ∈ fewEnds ok before after ↔ ∃ u, (∀ y ∈ u, ok y = true) ∧ Cursor.Takes ⟨before, after⟩ u d := by
  rw [← mem_manyEnds_iff]
  induction after generalizing before with
  | nil => rfl
  | cons x r ih =>
    by_cases hx : ok x = true
    · simp only [fewEnds, manyEnds, hx, if_true, List.mem_cons, List.mem_append, ih, List.not_mem_nil, or_false]
      exact or_comm
    · simp [fewEnds, manyEnds, hx]

/-- **The ends of a pattern.** They are the places to which it takes a text. -/
theorem mem_ends_iff {p : Pattern} {c d : Cursor} :
    d ∈ p.ends c ↔ ∃ u, c.Takes u d ∧ p.Spans c.before u d.after := by
  induction p generalizing c d with
  | empty =>
    simp only [ends, Spans, List.mem_singleton, exists_eq_right, Cursor.takes_nil_iff]
  | char ok =>
    rw [mem_charEnds_iff]
    constructor
    · rintro ⟨x, hx, h⟩
      exact ⟨[x], h, x, hx, rfl⟩
    · rintro ⟨u, h, x, hx, rfl⟩
      exact ⟨x, hx, h⟩
  | many ok => simp only [ends, Spans, mem_manyEnds_iff, and_comm]
  | few ok => simp only [ends, Spans, mem_fewEnds_iff, and_comm]
  | boundary =>
    simp only [ends, Spans]
    constructor
    · intro hd
      split at hd
      · obtain rfl := List.mem_singleton.1 hd
        exact ⟨[], Cursor.takes_nil_iff.2 rfl, ‹_›, rfl⟩
      · cases hd
    · rintro ⟨u, h, hc, rfl⟩
      obtain rfl := Cursor.takes_nil_iff.1 h
      simp [hc]
  | seq p q ihp ihq =>
    simp only [ends, Spans, List.mem_flatMap, ihp, ihq]
    constructor
    · rintro ⟨e, ⟨v, hv, hp⟩, w, hw, hq⟩
      rw [hw.after] at hp
      rw [hv.before] at hq
      exact ⟨v ++ w, Cursor.takes_append_iff.2 ⟨e, hv, hw⟩, v, w, rfl, hp, hq⟩
    · rintro ⟨u, hu, v, w, rfl, hp, hq⟩
      obtain ⟨e, hv, hw⟩ := Cursor.takes_append_iff.1 hu
      rw [← hw.after] at hp
      rw [← hv.before] at hq
      exact ⟨e, ⟨v, hv, hp⟩, w, hw, hq⟩
  | choice p q ihp ihq =>
    simp only [ends, Spans, List.mem_append, ihp, ihq, and_or_left, exists_or]
  | optional p ih =>
    simp only [ends, Spans, List.mem_append, List.mem_singleton, ih, and_or_left, exists_or, exists_eq_right,
      Cursor.takes_nil_iff]

/-! ## The texts of the building blocks -/

section

variable {before u after : List Char} {p q : Pattern} {ps : List Pattern} {ok : Char → Bool}

theorem spans_char : (char ok).Spans before u after ↔ ∃ x, ok x = true ∧ u = [x] := Iff.rfl

theorem spans_many : (many ok).Spans before u after ↔ ∀ y ∈ u, ok y = true := Iff.rfl

theorem spans_boundary : boundary.Spans before u after ↔ Cursor.atBoundary ⟨before, after⟩ = true ∧ u = [] := Iff.rfl

theorem spans_seq : (seq p q).Spans before u after ↔
    ∃ v w, u = v ++ w ∧ p.Spans before v (w ++ after) ∧ q.Spans (v.reverse ++ before) w after := Iff.rfl

theorem spans_optional : (optional p).Spans before u after ↔ p.Spans before u after ∨ u = [] := Iff.rfl

theorem spans_all_nil : (all []).Spans before u after ↔ u = [] := Iff.rfl

theorem spans_all_cons : (all (p :: ps)).Spans before u after ↔
    ∃ v w, u = v ++ w ∧ p.Spans before v (w ++ after) ∧ (all ps).Spans (v.reverse ++ before) w after := Iff.rfl

theorem spans_text {s : List Char} : (Pattern.text s).Spans before u after ↔ u = s := by
  induction s generalizing before u with
  | nil => rfl
  | cons x s ih =>
    simp only [Pattern.text, spans_seq, spans_char, ih, beq_iff_eq]
    constructor
    · rintro ⟨v, w, rfl, ⟨y, rfl, rfl⟩, rfl⟩
      rfl
    · rintro rfl
      exact ⟨[x], s, rfl, ⟨x, rfl, rfl⟩, rfl⟩

theorem spans_char_many {first : Char → Bool} : (Pattern.seq (.char first) (.many ok)).Spans before u after ↔
    ∃ x r, u = x :: r ∧ first x = true ∧ ∀ y ∈ r, ok y = true := by
  simp only [spans_seq, spans_char, spans_many]
  constructor
  · rintro ⟨v, r, rfl, ⟨x, hx, rfl⟩, hr⟩
    exact ⟨x, r, rfl, hx, hr⟩
  · rintro ⟨x, r, rfl, hx, hr⟩
    exact ⟨[x], r, rfl, ⟨x, hx, rfl⟩, hr⟩

theorem spans_gap : gap.Spans before u after ↔ ∀ y ∈ u, isBlank y = true := Iff.rfl

theorem spans_gap1 : gap1.Spans before u after ↔ u ≠ [] ∧ ∀ y ∈ u, isBlank y = true := by
  rw [gap1, some1, spans_char_many]
  constructor
  · rintro ⟨x, r, rfl, hx, hr⟩
    refine ⟨List.cons_ne_nil x r, ?_⟩
    intro y hy
    rcases List.mem_cons.1 hy with rfl | hy
    · exact hx
    · exact hr y hy
  · rintro ⟨hne, hu⟩
    obtain ⟨x, r, rfl⟩ := List.exists_cons_of_ne_nil hne
    exact ⟨x, r, rfl, hu x List.mem_cons_self, fun y hy => hu y (List.mem_cons_of_mem x hy)⟩

theorem spans_typeName : typeName.Spans before u after ↔ IsIdentifier u := spans_char_many

end

/-! ## Search -/

section

variable {α : Type} {p : Pattern} {k : Cursor → Option α} {c d : Cursor} {a : α} {s : List Char}

theorem run_isSome_iff : (p.run k c).isSome = true ↔ ∃ d ∈ p.ends c, (k d).isSome = true := by
  rw [run_eq_findSome, List.findSome?_isSome_iff]

theorem run_eq_none_iff : p.run k c = none ↔ ∀ d ∈ p.ends c, k d = none := by
  rw [run_eq_findSome, List.findSome?_eq_none_iff]

theorem startsText_iff : p.startsText s = true ↔ ∃ u after, s = u ++ after ∧ p.Spans [] u after := by
  rw [startsText, run_isSome_iff]
  simp only [mem_ends_iff]
  constructor
  · rintro ⟨d, ⟨u, h, hp⟩, -⟩
    exact ⟨u, d.after, h.after, hp⟩
  · rintro ⟨u, after, rfl, hp⟩
    exact ⟨⟨u.reverse, after⟩, ⟨u, ⟨rfl, by simp [Cursor.start]⟩, hp⟩, rfl⟩

theorem occursIn_iff : p.occursIn s = true ↔
    ∃ before u after, s = before ++ u ++ after ∧ p.Spans before.reverse u after := by
  rw [occursIn, seek_eq_run, run_isSome_iff]
  simp only [run_isSome_iff, mem_ends_iff]
  constructor
  · rintro ⟨c, ⟨before, hbefore, -⟩, d, ⟨u, hu, hp⟩, -⟩
    refine ⟨before, u, d.after, ?_, ?_⟩
    · rw [List.append_assoc, ← hu.after]
      exact hbefore.after
    · rwa [hbefore.before, List.append_nil] at hp
  · rintro ⟨before, u, after, rfl, hp⟩
    refine ⟨⟨before.reverse, u ++ after⟩, ⟨before, ⟨by simp, by simp⟩, by simp [Spans]⟩, ?_⟩
    exact ⟨⟨u.reverse ++ before.reverse, after⟩, ⟨u, ⟨rfl, rfl⟩, hp⟩, rfl⟩

/-- if no end gives another answer, backtracking gives this one -/
theorem run_eq_some (hd : d ∈ p.ends c) (hk : k d = some a) (honly : ∀ e ∈ p.ends c, ∀ b, k e = some b → b = a) :
    p.run k c = some a := by
  have hsome : (p.run k c).isSome = true := run_isSome_iff.2 ⟨d, hd, by rw [hk]; rfl⟩
  obtain ⟨b, hb⟩ := Option.isSome_iff_exists.1 hsome
  obtain ⟨e, he, hke⟩ := exists_end_of_run hb
  rw [hb, honly e he b hke]

end

/-- Answers with the places where their matches end, each of which takes a character, and none of which starts inside
another. -/
structure Apart {α : Type} (Answer : Cursor → α → Cursor → Prop) : Prop where
  takes : ∀ {c a stop}, Answer c a stop → ∃ u, u ≠ [] ∧ c.Takes u stop
  inside : ∀ {c d a b stop stop' u v}, Answer c a stop → c.Takes u d → d.Takes v stop → u ≠ [] → v ≠ [] →
    ¬ Answer d b stop'

/-- **Nothing is lost in a search.** What a search for matches that do not overlap finds is every answer there is. -/
theorem mem_scan_iff {α : Type} {attempt : Cursor → Option (α × Cursor)} {Answer : Cursor → α → Cursor → Prop}
    (hanswer : ∀ {c a stop}, attempt c = some (a, stop) ↔ Answer c a stop) (hapart : Apart Answer)
    {before after : List Char} {a : α} :
    a ∈ scan attempt before after ↔ ∃ u c stop, Cursor.Takes ⟨before, after⟩ u c ∧ Answer c a stop := by
  fun_induction scan attempt before after with
  | case1 before =>
    simp only [List.not_mem_nil, false_iff]
    rintro ⟨u, c, stop, hu, h⟩
    obtain ⟨v, hv, hstop⟩ := hapart.takes h
    have hnil : [] = u ++ (v ++ stop.after) := by rw [← hstop.after]; exact hu.after
    simp [hv] at hnil
  | case2 before x r hnone ih =>
    rw [ih]
    constructor
    · rintro ⟨u, c, stop, hu, h⟩
      obtain ⟨u', hu'⟩ := Cursor.exists_takes_cons_iff.2 (Or.inr ⟨u, hu⟩)
      exact ⟨u', c, stop, hu', h⟩
    · rintro ⟨u, c, stop, hu, h⟩
      rcases Cursor.exists_takes_cons_iff.1 ⟨u, hu⟩ with rfl | ⟨u', hu'⟩
      · rw [← hanswer, hnone] at h
        cases h
      · exact ⟨u', c, stop, hu', h⟩
  | case3 before x r b stop hstop hle ih =>
    have hb := hanswer.1 hstop
    obtain ⟨w, hw, hwstop⟩ := hapart.takes hb
    rw [List.mem_cons, ih]
    constructor
    · rintro (rfl | ⟨u, c, stop', hu, h⟩)
      · exact ⟨[], _, stop, Cursor.takes_nil_iff.2 rfl, hb⟩
      · exact ⟨w ++ u, c, stop', Cursor.takes_append_iff.2 ⟨stop, hwstop, hu⟩, h⟩
    · rintro ⟨u, c, stop', hu, h⟩
      rcases hwstop.split hu with ⟨v, -, hv⟩ | ⟨v, hne, -, hv⟩
      · exact Or.inr ⟨v, c, stop', hv, h⟩
      · -- before the end of the match found, an answer can only be that of this match
        by_cases hnil : u = []
        · subst hnil
          rw [Cursor.takes_nil_iff.1 hu, ← hanswer, hstop] at h
          simp only [Option.some.injEq, Prod.mk.injEq] at h
          exact Or.inl h.1.symm
        · exact absurd h (hapart.inside hb hu hv hnil hne)
  | case4 before x r b stop hstop hle ih =>
    obtain ⟨w, hw, hwstop⟩ := hapart.takes (hanswer.1 hstop)
    have hlen := congrArg List.length hwstop.after
    have hpos := List.length_pos_iff.2 hw
    simp only [List.length_cons, List.length_append] at hlen
    omega

/-- a pattern leads to one end at most from each place -/
def Definite (p : Pattern) : Prop := ∀ {c d e}, d ∈ p.ends c → e ∈ p.ends c → d = e

theorem mem_matchesIn_iff {p : Pattern} (hone : p.Definite) (hapart : Apart fun c (x : Cursor × Cursor) stop =>
      x = (c, stop) ∧ stop ∈ p.ends c) {s : List Char} {c d : Cursor} :
    (c, d) ∈ p.matchesIn s ↔ c.text = s ∧ d ∈ p.ends c := by
  have hanswer : ∀ {c : Cursor} {x : Cursor × Cursor} {stop : Cursor},
      p.run (fun d => some ((c, d), d)) c = some (x, stop) ↔ x = (c, stop) ∧ stop ∈ p.ends c := by
    intro c x stop
    constructor
    · intro h
      obtain ⟨d, hd, heq⟩ := exists_end_of_run h
      simp only [Option.some.injEq, Prod.mk.injEq] at heq
      obtain ⟨rfl, rfl⟩ := heq
      exact ⟨rfl, hd⟩
    · rintro ⟨rfl, hstop⟩
      refine run_eq_some hstop rfl ?_
      intro e he b hb
      rw [← Option.some.inj hb, hone he hstop]
  rw [matchesIn, mem_scan_iff hanswer hapart]
  constructor
  · rintro ⟨u, c', stop, hu, heq, hstop⟩
    obtain ⟨rfl, rfl⟩ := Prod.mk.inj heq
    exact ⟨Cursor.exists_takes_start_iff.1 ⟨u, hu⟩, hstop⟩
  · rintro ⟨hs, hd⟩
    obtain ⟨u, hu⟩ := Cursor.exists_takes_start_iff.2 hs
    exact ⟨u, c, d, hu, rfl, hd⟩

/-- `lead`, `group` and `tail` match one after the other from a place on, and `group` takes the text `a` -/
def CapturesAt (lead group tail : Pattern) (c : Cursor) (a : List Char) (stop : Cursor) : Prop :=
  ∃ d ∈ lead.ends c, ∃ e ∈ group.ends d, stop ∈ tail.ends e ∧ d.upTo e = a

/-- if there is only one answer from a place, backtracking gives it -/
theorem captureAt_eq_some_iff {lead group tail : Pattern} {c : Cursor}
    (hone : ∀ {a b stop stop'}, CapturesAt lead group tail c a stop → CapturesAt lead group tail c b stop' →
      b = a ∧ stop' = stop) {a : List Char} {stop : Cursor} :
    lead.run (fun d => group.run (fun e => tail.run (fun f => some (d.upTo e, f)) e) d) c = some (a, stop) ↔
      CapturesAt lead group tail c a stop := by
  constructor
  · intro h
    obtain ⟨d, hd, h⟩ := exists_end_of_run h
    obtain ⟨e, he, h⟩ := exists_end_of_run h
    obtain ⟨f, hf, h⟩ := exists_end_of_run h
    simp only [Option.some.injEq, Prod.mk.injEq] at h
    obtain ⟨rfl, rfl⟩ := h
    exact ⟨d, hd, e, he, hf, rfl⟩
  · intro h
    have honly : ∀ {d e f}, d ∈ lead.ends c → e ∈ group.ends d → f ∈ tail.ends e → (d.upTo e, f) = (a, stop) := by
      intro d e f hd he hf
      obtain ⟨h1, h2⟩ := hone h ⟨d, hd, e, he, hf, rfl⟩
      rw [h1, h2]
    obtain ⟨d, hd, e, he, hf, rfl⟩ := h
    apply run_eq_some hd
    · apply run_eq_some he
      · refine run_eq_some hf rfl ?_
        intro f' hf' b hb
        rw [← Option.some.inj hb, honly hd he hf']
      · intro e' he' b hb
        obtain ⟨f', hf', hb⟩ := exists_end_of_run hb
        rw [← Option.some.inj hb, honly hd he' hf']
    · intro d' hd' b hb
      obtain ⟨e', he', hb⟩ := exists_end_of_run hb
      obtain ⟨f', hf', hb⟩ := exists_end_of_run hb
      rw [← Option.some.inj hb, honly hd' he' hf']

theorem mem_captures_iff {lead group tail : Pattern}
    (hone : ∀ {c a b stop stop'}, CapturesAt lead group tail c a stop → CapturesAt lead group tail c b stop' →
      b = a ∧ stop' = stop)
    (hapart : Apart (CapturesAt lead group tail)) {s a : List Char} :
    a ∈ captures lead group tail s ↔ ∃ c stop, c.text = s ∧ CapturesAt lead group tail c a stop := by
  rw [captures, mem_scan_iff (captureAt_eq_some_iff hone) hapart]
  constructor
  · rintro ⟨u, c, stop, hu, h⟩
    exact ⟨c, stop, Cursor.exists_takes_start_iff.1 ⟨u, hu⟩, h⟩
  · rintro ⟨c, stop, hs, h⟩
    obtain ⟨u, hu⟩ := Cursor.exists_takes_start_iff.2 hs
    exact ⟨u, c, stop, hu, h⟩

end Pattern

end ClassAtlas.Text
