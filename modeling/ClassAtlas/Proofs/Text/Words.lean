/-
Words put together with blanks and taken apart again, and blanks cut off at the ends.

`mem_splitOnP_iff`: what the pieces of a divided text are, by where they stand in it. `words_append_blank`: a blank
between two texts divides their words. That the words of a text made of single words are these words follows from it,
whatever the words look like. `dropEnds_append`: cutting a class of characters at both ends takes away what was put
there. `trim_eq_nil_iff`, `trim_eq_self`: what is left of a text without its outer blanks, in the two cases where this is
everything or nothing. `trim_blanks`: nothing but the outer blanks is cut. `trimmed_trim`: what is left has none, so that
cutting again cuts nothing. `words_trim`: no word is lost with them. `words_eq_cons`: how the first word is read.
-/
import Mathlib.Data.List.DropRight
import Mathlib.Data.List.TakeWhile
import ClassAtlas.Text.Blank

namespace ClassAtlas.Text

/-! ## Pieces -/

/-- a piece of a text between characters of a class: none of them is in it, and nothing but one of them is next to it -/
structure IsPiece (sep : Char → Bool) (s before p after : List Char) : Prop where
  text : s = before ++ p ++ after
  inside : ∀ c ∈ p, sep c = false
  left : before.getLast?.all sep = true
  right : after.head?.all sep = true

/-- the text so far, since the last separator, is put aside -/
theorem exists_isPiece_of_mem {sep : Char → Bool} {r s p : List Char} (hr : ∀ c ∈ r, sep c = false)
    (hp : p ∈ (r ++ s).splitOnP sep) : ∃ before after, IsPiece sep (r ++ s) before p after := by
  induction s generalizing r with
  | nil =>
    rw [List.append_nil, List.splitOnP_eq_singleton hr, List.mem_singleton] at hp
    subst hp
    exact ⟨[], [], by simp, hr, rfl, rfl⟩
  | cons c s ih =>
    by_cases hc : sep c = true
    · rw [List.splitOnP_append_cons_of_forall_mem hr c hc, List.mem_cons] at hp
      rcases hp with rfl | hp
      · exact ⟨[], c :: s, by simp, hr, rfl, by simpa using hc⟩
      · obtain ⟨before, after, htext, hinside, hleft, hright⟩ := ih (r := []) (by simp) hp
        rw [List.nil_append] at htext
        refine ⟨r ++ c :: before, after, by simp [htext], hinside, ?_, hright⟩
        cases before with
        | nil => simpa using hc
        | cons x before => rwa [List.append_cons, List.getLast?_append_of_ne_nil _ (List.cons_ne_nil x before)]
    · rw [List.append_cons] at hp ⊢
      apply ih ?_ hp
      intro d hd
      rcases List.mem_append.1 hd with hd | hd
      · exact hr d hd
      · rw [List.mem_singleton.1 hd]
        exact Bool.eq_false_iff.2 hc

theorem mem_splitOnP_iff {sep : Char → Bool} {s p : List Char} :
    p ∈ s.splitOnP sep ↔ ∃ before after, IsPiece sep s before p after := by
  constructor
  · intro hp
    exact exists_isPiece_of_mem (r := []) (by simp) hp
  · rintro ⟨before, after, rfl, hp, hbefore, hafter⟩
    have hfirst : p ∈ (p ++ after).splitOnP sep := by
      cases after with
      | nil => rw [List.append_nil, List.splitOnP_eq_singleton hp]; exact List.mem_cons_self
      | cons y after =>
        rw [List.splitOnP_append_cons_of_forall_mem hp y (by simpa using hafter)]
        exact List.mem_cons_self
    rw [List.append_assoc]
    rcases List.eq_nil_or_concat before with rfl | ⟨b, x, rfl⟩
    · exact hfirst
    · rw [List.concat_eq_append, List.append_assoc, List.singleton_append,
        List.splitOnP_append_cons _ _ (by simpa using hbefore)]
      exact List.mem_append_right _ hfirst

/-! ## Words -/

/-- a word: not empty, and without white space -/
def IsWord (w : List Char) : Prop := w ≠ [] ∧ ∀ c ∈ w, isBlank c = false

-- by a look at each character of the word, not at all characters there are
instance (w : List Char) : Decidable (IsWord w) :=
  decidable_of_iff (w ≠ [] ∧ (w.all fun c => !isBlank c) = true) (by simp [IsWord])

theorem IsWord.not_mem {w : List Char} (h : IsWord w) {c : Char} (hc : isBlank c = true) : c ∉ w := by
  intro hmem
  rw [h.2 c hmem] at hc
  exact Bool.false_ne_true hc

theorem segments_eq_singleton {sep : Char → Bool} {s : List Char} (hne : s ≠ []) (h : ∀ c ∈ s, sep c = false) :
    segments sep s = [s] := by
  rw [segments, List.splitOnP_eq_singleton h]
  simp [hne]

theorem of_mem_segments {sep : Char → Bool} {s p : List Char} (hp : p ∈ segments sep s) :
    p ≠ [] ∧ ∀ c ∈ p, sep c = false := by
  obtain ⟨hsplit, hne⟩ := List.mem_filter.1 hp
  obtain ⟨before, after, hpiece⟩ := mem_splitOnP_iff.1 hsplit
  exact ⟨by simpa using hne, hpiece.inside⟩

theorem segments_append_cons {sep : Char → Bool} {s : List Char} {b : Char} (hb : sep b = true) (t : List Char) :
    segments sep (s ++ b :: t) = segments sep s ++ segments sep t := by
  simp only [segments]
  rw [List.splitOnP_append_cons s t hb, List.filter_append]

theorem words_append_blank {b : Char} (hb : isBlank b = true) (s t : List Char) :
    words (s ++ b :: t) = words s ++ words t :=
  segments_append_cons hb t

theorem words_of_isWord {w : List Char} (h : IsWord w) : words w = [w] :=
  segments_eq_singleton h.1 h.2

theorem words_pair {v w : List Char} (hv : IsWord v) (hw : IsWord w) : words (v ++ ' ' :: w) = [v, w] := by
  rw [words_append_blank (by decide), words_of_isWord hv, words_of_isWord hw]
  rfl

theorem words_triple {u v w : List Char} (hu : IsWord u) (hv : IsWord v) (hw : IsWord w) :
    words (u ++ ' ' :: (v ++ ' ' :: w)) = [u, v, w] := by
  rw [words_append_blank (by decide), words_of_isWord hu, words_pair hv hw]
  rfl

/-! ## Characters of a class at the ends -/

section Ends

variable {ok : Char → Bool} {g s g' : List Char}

theorem dropWhile_eq_self (h : ∀ c, s.head? = some c → ok c = false) : s.dropWhile ok = s := by
  cases s with
  | nil => rfl
  | cons c r => simp [h c rfl]

theorem not_of_head?_dropWhile {c : Char} (h : (s.dropWhile ok).head? = some c) : ok c = false := by
  have hhead := List.head?_dropWhile_not ok s
  rw [h] at hhead
  simpa using hhead

theorem not_of_getLast?_dropEndWhile {c : Char} (h : (dropEndWhile ok s).getLast? = some c) : ok c = false := by
  rw [dropEndWhile, List.getLast?_reverse] at h
  exact not_of_head?_dropWhile h

theorem dropEndWhile_append (hs : ∀ c, s.getLast? = some c → ok c = false) (hg' : ∀ c ∈ g', ok c = true) :
    dropEndWhile ok (s ++ g') = s := by
  have hlast : s.reverse.dropWhile ok = s.reverse :=
    dropWhile_eq_self fun c hc => hs c (by rwa [List.head?_reverse] at hc)
  rw [dropEndWhile, List.reverse_append, List.dropWhile_append_of_pos fun c hc => hg' c (List.mem_reverse.1 hc), hlast,
    List.reverse_reverse]

theorem exists_dropEndWhile_append (ok : Char → Bool) (s : List Char) :
    ∃ g', (∀ c ∈ g', ok c = true) ∧ s = dropEndWhile ok s ++ g' :=
  ⟨s.rtakeWhile ok, fun _ => List.mem_rtakeWhile_imp, List.rdropWhile_append_rtakeWhile.symm⟩

/-- what is cut at both ends is what is put around a text that neither starts nor ends with the class -/
theorem dropEnds_append (hg : ∀ c ∈ g, ok c = true) (hhead : ∀ c, s.head? = some c → ok c = false)
    (hlast : ∀ c, s.getLast? = some c → ok c = false) (hg' : ∀ c ∈ g', ok c = true) :
    dropEndWhile ok ((g ++ (s ++ g')).dropWhile ok) = s := by
  rw [List.dropWhile_append_of_pos hg]
  by_cases hnil : s = []
  · -- of the class alone nothing is left already at the first cut
    subst hnil
    rw [List.nil_append, List.dropWhile_eq_nil_iff.2 hg']
    rfl
  · rw [dropWhile_eq_self, dropEndWhile_append hlast hg']
    intro c hc
    rw [List.head?_append_of_ne_nil s hnil] at hc
    exact hhead c hc

end Ends

/-! ## Blanks at the ends -/

theorem trim_eq_nil_iff {s : List Char} : trim s = [] ↔ ∀ c ∈ s, isBlank c = true := by
  simp only [trim, trimEnd, trimStart, dropEndWhile, List.reverse_eq_nil_iff, List.dropWhile_eq_nil_iff,
    List.mem_reverse]
  constructor
  · intro h
    -- what is left at the start would begin with no blank
    cases hs : s.dropWhile isBlank with
    | nil => exact List.dropWhile_eq_nil_iff.1 hs
    | cons c r =>
      have hhead : isBlank c = false := not_of_head?_dropWhile (by rw [hs]; rfl)
      have hblank : isBlank c = true := h c (by rw [hs]; exact List.mem_cons_self)
      rw [hhead] at hblank
      cases hblank
  · intro h c hc
    exact h c (List.dropWhile_subset _ hc)

/-- neither the first nor the last character is white space -/
def Trimmed (s : List Char) : Prop :=
  (∀ c, s.head? = some c → isBlank c = false) ∧ ∀ c, s.getLast? = some c → isBlank c = false

instance (s : List Char) : Decidable (Trimmed s) :=
  decidable_of_iff ((s.head?.all fun c => !isBlank c) = true ∧ (s.getLast?.all fun c => !isBlank c) = true)
    (by simp [Trimmed, Option.all_eq_true])

theorem trim_blanks {g s g' : List Char} (hg : ∀ c ∈ g, isBlank c = true) (hs : Trimmed s)
    (hg' : ∀ c ∈ g', isBlank c = true) : trim (g ++ (s ++ g')) = s :=
  dropEnds_append hg hs.1 hs.2 hg'

theorem Trimmed.trim_eq {s : List Char} (h : Trimmed s) : trim s = s := by
  have hnone : ∀ c ∈ ([] : List Char), isBlank c = true := by simp
  simpa using trim_blanks hnone h hnone

theorem trimmed_of_forall {s : List Char} (h : ∀ c ∈ s, isBlank c = false) : Trimmed s :=
  ⟨fun c hc => h c (List.mem_of_head? hc), fun c hc => h c (List.mem_of_getLast? hc)⟩

theorem trim_eq_self {s : List Char} (h : ∀ c ∈ s, isBlank c = false) : trim s = s := (trimmed_of_forall h).trim_eq

theorem trimmed_trim (s : List Char) : Trimmed (trim s) := by
  refine ⟨fun c hc => ?_, fun c hc => not_of_getLast?_dropEndWhile hc⟩
  -- what is cut at the end leaves the first character in its place
  obtain ⟨g', -, hg'⟩ := exists_dropEndWhile_append isBlank (s.dropWhile isBlank)
  have hkept : (dropEndWhile isBlank (s.dropWhile isBlank)).head? = some c := hc
  refine not_of_head?_dropWhile (s := s) ?_
  rw [hg', List.head?_append, hkept]
  rfl

theorem exists_blanks_trim (s : List Char) :
    ∃ g g', (∀ c ∈ g, isBlank c = true) ∧ (∀ c ∈ g', isBlank c = true) ∧ s = g ++ (trim s ++ g') := by
  obtain ⟨g', hg', hend⟩ := exists_dropEndWhile_append isBlank (s.dropWhile isBlank)
  refine ⟨s.takeWhile isBlank, g', fun c => List.mem_takeWhile_imp, hg', ?_⟩
  calc s = s.takeWhile isBlank ++ s.dropWhile isBlank := List.takeWhile_append_dropWhile.symm
    _ = s.takeWhile isBlank ++ (trim s ++ g') := congrArg _ hend

/-! ## Words of a text with blanks around it -/

theorem words_blanks {g : List Char} (h : ∀ c ∈ g, isBlank c = true) (s : List Char) : words (g ++ s) = words s := by
  induction g with
  | nil => rfl
  | cons b g ih =>
    calc words ([] ++ b :: (g ++ s)) = words [] ++ words (g ++ s) := words_append_blank (h b List.mem_cons_self) [] _
      _ = words s := ih fun c hc => h c (List.mem_cons_of_mem b hc)

theorem words_append_blanks {g : List Char} (h : ∀ c ∈ g, isBlank c = true) (s : List Char) : words (s ++ g) = words s := by
  cases g with
  | nil => rw [List.append_nil]
  | cons b g =>
    have hnone : words g = [] := by
      have hg := words_blanks (fun c hc => h c (List.mem_cons_of_mem b hc)) []
      rwa [List.append_nil] at hg
    rw [words_append_blank (h b List.mem_cons_self), hnone, List.append_nil]

theorem words_trim (s : List Char) : words (trim s) = words s := by
  obtain ⟨g, g', hg, hg', hs⟩ := exists_blanks_trim s
  calc words (trim s) = words (trim s ++ g') := (words_append_blanks hg' _).symm
    _ = words (g ++ (trim s ++ g')) := (words_blanks hg _).symm
    _ = words s := by rw [← hs]

/-- the first word of a text that starts with one goes up to the first blank -/
theorem words_eq_cons {s : List Char} (hne : s ≠ []) (hs : Trimmed s) :
    words s = s.takeWhile (fun c => !isBlank c) :: words (s.dropWhile fun c => !isBlank c) := by
  have hword : IsWord (s.takeWhile fun c => !isBlank c) := by
    refine ⟨?_, fun c hc => by simpa using List.mem_takeWhile_imp hc⟩
    cases s with
    | nil => exact absurd rfl hne
    | cons c r => simp [hs.1 c rfl]
  have hsplit : words s = words (s.takeWhile (fun c => !isBlank c) ++ s.dropWhile fun c => !isBlank c) := by
    rw [List.takeWhile_append_dropWhile]
  cases hrest : s.dropWhile (fun c => !isBlank c) with
  | nil => rw [hsplit, hrest, List.append_nil, words_of_isWord hword]; rfl
  | cons b r =>
    have hnot : (!isBlank b) = false := not_of_head?_dropWhile (by rw [hrest]; rfl)
    have hb : isBlank b = true := by simpa using hnot
    have hlater : words (b :: r) = words r := words_append_blank hb [] r
    rw [hsplit, hrest, words_append_blank hb, words_of_isWord hword, hlater]
    rfl

end ClassAtlas.Text
