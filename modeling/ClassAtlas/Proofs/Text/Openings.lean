/-
Keywords after white space: where they open, and what patterns for them find.

- `Opens`: a text starts with white space and then the keyword. `Opens.of_append`: in which part of a text.
- `keyword_run`, `keyword_run_eq_none`: the pattern for white space and a keyword, with a continuation that is known by what
  is left and not by what was taken.
- `Silent`: the keyword opens at no place of a text.
-/
import ClassAtlas.Proofs.Text.Preference
import ClassAtlas.Proofs.Text.WordRuns

namespace ClassAtlas.Text

open Pattern

/-! ## Texts divided at a character -/

/-- the division is in the first part of the text or after it -/
theorem append_eq_append_cons {x y a t : List Char} {c : Char} (h : x ++ y = a ++ c :: t) :
    (∃ b, x = a ++ c :: b ∧ t = b ++ y) ∨ ∃ a', a = x ++ a' ∧ y = a' ++ c :: t := by
  rcases List.append_eq_append_iff.1 h with ⟨a', ha, hy⟩ | ⟨b, hx, hb⟩
  · exact Or.inr ⟨a', ha, hy⟩
  · cases b with
    | nil => exact Or.inr ⟨[], by simpa using hx.symm, hb.symm⟩
    | cons z b =>
      obtain ⟨rfl, rfl⟩ := List.cons.inj hb
      exact Or.inl ⟨b, hx, rfl⟩

theorem append_eq_append_cons_of_not_mem {x y a t : List Char} {c : Char} (hx : c ∉ x) (h : x ++ y = a ++ c :: t) :
    ∃ a', a = x ++ a' ∧ y = a' ++ c :: t := by
  rcases append_eq_append_cons h with ⟨b, rfl, -⟩ | hlater
  · exact absurd (by simp) hx
  · exact hlater

/-! ## Where a keyword opens -/

/-- white space, then the keyword -/
def Opens (keyword s : List Char) : Prop := ∃ g r, IsGap g ∧ s = g ++ (keyword ++ r)

section

variable {α : Type} {k : Cursor → Option α} {a : α} {before g kw w y r s : List Char} {x : Char}

theorem head?_any_isBlank_of_isRun (hkw : IsRun kw) : (kw ++ r).head?.any isBlank = false := by
  obtain ⟨z, t, rfl⟩ := List.exists_cons_of_ne_nil hkw.1
  by_contra hne
  have hblank : isBlank z = true := by simpa using hne
  have hword := hkw.2 z List.mem_cons_self
  rw [isWord_eq_false_of_isBlank hblank] at hword
  cases hword

/-- the keyword follows all the white space there is -/
theorem Opens.after_gap (hkw : IsRun kw) (h : Opens kw (g ++ y)) (hg : ∀ c ∈ g, isBlank c = true)
    (hy : y.head?.any isBlank = false) : ∃ r, y = kw ++ r := by
  obtain ⟨g', r, hg', heq⟩ := h
  obtain ⟨-, rfl⟩ := append_inj_of_class hg hg'.2 hy (head?_any_isBlank_of_isRun hkw) heq
  exact ⟨r, rfl⟩

theorem not_opens_of_head? (hy : y.head?.any isBlank = false) : ¬ Opens kw y := by
  rintro ⟨g, r, hg, rfl⟩
  obtain ⟨z, t, rfl⟩ := List.exists_cons_of_ne_nil hg.1
  rw [List.cons_append, List.head?_cons, Option.any_some, hg.2 z List.mem_cons_self] at hy
  cases hy

theorem not_opens_gap_cons (hkw : IsRun kw) (hg : ∀ c ∈ g, isBlank c = true) (hx : isWord x = false)
    (hblank : isBlank x = false) : ¬ Opens kw (g ++ x :: r) := by
  intro hopens
  obtain ⟨t, ht⟩ := hopens.after_gap hkw hg (by simpa using hblank)
  have hword := hkw.head?_any t
  rw [← ht, List.head?_cons, Option.any_some, hx] at hword
  cases hword

/-- a keyword that opens a text ends in its first part, if the second starts with no word character, unless the first is
white space -/
theorem Opens.of_append (hkw : IsRun kw) (hy : y.head?.any isWord = false) (h : Opens kw (w ++ y)) :
    Opens kw w ∨ (∀ c ∈ w, isBlank c = true) ∧ Opens kw y := by
  obtain ⟨g, r, hg, heq⟩ := h
  rcases List.append_eq_append_iff.1 heq with ⟨g', rfl, rfl⟩ | ⟨t, rfl, ht⟩
  · -- the white space goes beyond the first part
    have hne : g' ≠ [] := by
      rintro rfl
      rw [List.nil_append, hkw.head?_any] at hy
      cases hy
    refine Or.inr ⟨fun c hc => hg.2 c (List.mem_append_left _ hc), g', r, ⟨hne, ?_⟩, rfl⟩
    intro c hc
    exact hg.2 c (List.mem_append_right _ hc)
  · rcases List.append_eq_append_iff.1 ht with ⟨r', rfl, -⟩ | ⟨u, hu, rfl⟩
    · exact Or.inl ⟨g, r', hg, rfl⟩
    · cases u with
      | nil => exact Or.inl ⟨g, [], hg, by simp [hu]⟩
      | cons z u =>
        -- the keyword would go across
        have hword : isWord z = true := hkw.2 z (by simp [hu])
        rw [List.cons_append, List.head?_cons, Option.any_some, hword] at hy
        cases hy

theorem not_opens_append_cons (hkw : IsRun kw) (hx : isWord x = false) (hblank : isBlank x = false) (h : ¬ Opens kw w) :
    ¬ Opens kw (w ++ x :: r) := by
  intro hopens
  rcases hopens.of_append hkw (by simpa using hx) with hw | ⟨-, hr⟩
  · exact h hw
  · exact not_opens_of_head? (by simpa using hblank) hr

/-! ## What the patterns find -/

theorem gap1_run (hg : IsGap g) (hr : r.head?.any isBlank = false) (hk : ∀ before, k ⟨before, r⟩ = some a) :
    gap1.run k ⟨before, g ++ r⟩ = some a := by
  rw [gap1, some1_run_far hg.1 hg.2 hr (by rw [hk]; rfl), hk]

theorem keyword_run (hkw : IsRun kw) (hg : IsGap g) (hk : ∀ before, k ⟨before, r⟩ = some a) :
    gap1.run ((text kw).run k) ⟨before, g ++ (kw ++ r)⟩ = some a := by
  apply gap1_run hg (head?_any_isBlank_of_isRun hkw)
  intro before
  rw [text_run, hk]

theorem keyword_run_eq_none (h : ¬ Opens kw s) : gap1.run ((text kw).run k) ⟨before, s⟩ = none := by
  rw [run_eq_none_iff]
  intro d hd
  obtain ⟨g, htakes, hg⟩ := mem_ends_iff.1 hd
  apply text_run_eq_none
  rintro ⟨r, hr⟩
  exact h ⟨g, r, spans_gap1.1 hg, by rw [hr]; exact htakes.after⟩

end

/-! ## Where a keyword does not open -/

/-- the keyword opens at no place of `w`, which `y` follows -/
def Silent (keyword w y : List Char) : Prop := ∀ u v, w = u ++ v → v ≠ [] → ¬ Opens keyword (v ++ y)

section

variable {kw w w' y g : List Char}

theorem Silent.append (hw : Silent kw w (w' ++ y)) (hw' : Silent kw w' y) : Silent kw (w ++ w') y := by
  intro u v h hne
  rcases List.append_eq_append_iff.1 h with ⟨u', rfl, hu'⟩ | ⟨v', hv', rfl⟩
  · exact hw' u' v hu' hne
  · by_cases hnil : v' = []
    · subst hnil
      exact hw' [] w' rfl (by simpa using hne)
    · rw [List.append_assoc]
      exact hw u v' hv' hnil

theorem silent_of_isBlank_eq_false (hw : ∀ c ∈ w, isBlank c = false) : Silent kw w y := by
  intro u v h hne
  obtain ⟨x, v, rfl⟩ := List.exists_cons_of_ne_nil hne
  apply not_opens_of_head?
  simpa using hw x (by simp [h])

theorem silent_gap (hkw : IsRun kw) (hg : ∀ c ∈ g, isBlank c = true) (hy : y.head?.any isBlank = false)
    (hno : ¬ kw <+: y) : Silent kw g y := by
  intro u v h hne hopens
  have hv : ∀ c ∈ v, isBlank c = true := fun c hc => hg c (by simp [h, hc])
  obtain ⟨r, rfl⟩ := hopens.after_gap hkw hv hy
  exact hno (List.prefix_append kw r)

end

end ClassAtlas.Text
