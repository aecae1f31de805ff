/-
Reading a text word by word: the maximal runs of word characters, each with what stands between it and the one before.

- `readWords`: one pass over the text, without patterns. `readWords_eq_cons`: what it reads first, and that it goes on
  behind that; `mem_wordRuns_iff`: the words read are those that stand in the text with no word character next to them.
- `InRow`: words that follow one another in the text, nothing but white space between them. `inRow_iff`: the places
  where this is so.
- `flatMap_wordRuns_lines`: the words of a text are those of its lines.
-/
import ClassAtlas.Proofs.Text.Identifiers

namespace ClassAtlas.Text

/-! ## Words -/

/-- word characters only, and at least one -/
def IsRun (w : List Char) : Prop := w ≠ [] ∧ ∀ c ∈ w, isWord c = true

/-- some white space -/
def IsGap (g : List Char) : Prop := g ≠ [] ∧ ∀ c ∈ g, isBlank c = true

theorem isRun_of_all {w : List Char} (h : (!w.isEmpty && w.all isWord) = true) : IsRun w := by
  simpa [IsRun] using h

theorem isWord_eq_false_of_isBlank {c : Char} (h : isBlank c = true) : isWord c = false := by
  by_contra hne
  have hword : isWord c = true := by simpa using hne
  rw [isBlank_eq_false isWord (by decide +kernel) hword] at h
  cases h

theorem isWord_eq_false_of_isLineBreak {c : Char} (h : isLineBreak c = true) : isWord c = false := by
  simp only [isLineBreak, Bool.or_eq_true, beq_iff_eq] at h
  rcases h with rfl | rfl <;> decide

theorem isWord_of_isIdentChar {c : Char} (h : isIdentChar c = true) : isWord c = true := by
  have hcode : c.toNat < 128 := by
    simp only [isIdentChar, isLetterAscii, isUpperAscii, isDigitAscii, Bool.or_eq_true, Bool.and_eq_true,
      decide_eq_true_eq, beq_iff_eq, Char.le_def, UInt32.le_iff_toNat_le] at h
    simp only [Char.toNat]
    rcases h with (((⟨-, h⟩ | ⟨-, h⟩) | ⟨-, h⟩)) | rfl
    · exact Nat.lt_of_le_of_lt h (by decide)
    · exact Nat.lt_of_le_of_lt h (by decide)
    · exact Nat.lt_of_le_of_lt h (by decide)
    · decide
  simpa [isWord, hcode, isIdentChar] using h

theorem isRun_of_isIdentifier {n : List Char} (h : IsIdentifier n) : IsRun n := by
  obtain ⟨x, r, rfl, hx, hr⟩ := h
  refine ⟨List.cons_ne_nil x r, ?_⟩
  intro c hc
  apply isWord_of_isIdentChar
  rcases List.mem_cons.1 hc with rfl | hc
  · simp [isIdentChar, isLetterAscii, hx]
  · exact hr c hc

theorem IsRun.head?_any {w : List Char} (h : IsRun w) (s : List Char) : (w ++ s).head?.any isWord = true := by
  obtain ⟨x, r, rfl⟩ := List.exists_cons_of_ne_nil h.1
  simpa using h.2 x List.mem_cons_self

theorem IsRun.reverse {w : List Char} (h : IsRun w) : IsRun w.reverse :=
  ⟨by simpa using h.1, fun c hc => h.2 c (List.mem_reverse.1 hc)⟩

theorem IsGap.head?_any {g : List Char} (h : IsGap g) (s : List Char) : (g ++ s).head?.any isWord = false := by
  obtain ⟨x, r, rfl⟩ := List.exists_cons_of_ne_nil h.1
  simpa using isWord_eq_false_of_isBlank (h.2 x List.mem_cons_self)

/-! ## Reading -/

/-- the words of a text from left to right, each with what stands between it and the word before -/
def readWords : List Char → List (List Char × List Char)
  | [] => []
  | c :: s =>
    if isWord c then
      match readWords s with
      | ([], w) :: t => ([], c :: w) :: t
      | t => ([], [c]) :: t
    else
      match readWords s with
      | (gap, w) :: t => (c :: gap, w) :: t
      | [] => []

/-- the words of a text alone -/
def wordRuns (s : List Char) : List (List Char) := (readWords s).map Prod.snd

section

variable {s t g w x y rest : List Char}

theorem readWords_of_head? (h : s.head?.any isWord = true) : ∃ w t, readWords s = ([], w) :: t := by
  cases s with
  | nil => cases h
  | cons c s =>
    have hc : isWord c = true := by simpa using h
    simp only [readWords, hc, if_true]
    split
    · exact ⟨_, _, rfl⟩
    · exact ⟨_, _, rfl⟩

theorem readWords_ne_of_head? (h : s.head?.any isWord = false) (w : List Char) (t : List (List Char × List Char)) :
    readWords s ≠ ([], w) :: t := by
  cases s with
  | nil => simp [readWords]
  | cons c s =>
    have hc : isWord c = false := by simpa using h
    simp only [readWords, hc, Bool.false_eq_true, if_false]
    split <;> simp

theorem readWords_run (hw : IsRun w) (hrest : rest.head?.any isWord = false) :
    readWords (w ++ rest) = ([], w) :: readWords rest := by
  obtain ⟨hne, hword⟩ := hw
  induction w with
  | nil => exact absurd rfl hne
  | cons c w ih =>
    have hc : isWord c = true := hword c List.mem_cons_self
    simp only [List.cons_append, readWords, hc, if_true]
    by_cases hnil : w = []
    · subst hnil
      simp only [List.nil_append]
      split
      · rename_i hread
        exact absurd hread (readWords_ne_of_head? hrest _ _)
      · rfl
    · rw [ih hnil fun d hd => hword d (List.mem_cons_of_mem c hd)]

/-- what is no word is added to what stands before the first word -/
theorem readWords_append_of_forall (hg : ∀ c ∈ g, isWord c = false) :
    readWords (g ++ s) = match readWords s with
      | (gap, w) :: t => (g ++ gap, w) :: t
      | [] => [] := by
  induction g with
  | nil => simp only [List.nil_append]; split <;> simp_all
  | cons c g ih =>
    have hc : isWord c = false := hg c List.mem_cons_self
    simp only [List.cons_append, readWords, hc, Bool.false_eq_true, if_false,
      ih fun d hd => hg d (List.mem_cons_of_mem c hd)]
    cases readWords s <;> rfl

theorem readWords_gap_run (hg : ∀ c ∈ g, isWord c = false) (hw : IsRun w) (hrest : rest.head?.any isWord = false) :
    readWords (g ++ (w ++ rest)) = (g, w) :: readWords rest := by
  rw [readWords_append_of_forall hg, readWords_run hw hrest]
  simp

theorem readWords_eq_nil (h : readWords s = []) : ∀ c ∈ s, isWord c = false := by
  induction s with
  | nil => simp
  | cons c s ih =>
    intro d hd
    by_cases hc : isWord c = true
    · obtain ⟨w, t, hread⟩ := readWords_of_head? (s := c :: s) (by simpa using hc)
      rw [h] at hread
      cases hread
    · have hrest : readWords s = [] := by
        simp only [readWords, hc, Bool.false_eq_true, if_false] at h
        split at h
        · cases h
        · assumption
      rcases List.mem_cons.1 hd with rfl | hd
      · simpa using hc
      · exact ih hrest d hd

/-- what is read first, and that reading goes on behind it -/
theorem readWords_eq_cons {l : List (List Char × List Char)} (h : readWords s = (g, w) :: l) :
    ∃ rest, s = g ++ (w ++ rest) ∧ (∀ c ∈ g, isWord c = false) ∧ IsRun w ∧ rest.head?.any isWord = false ∧
      readWords rest = l := by
  induction s generalizing g w l with
  | nil => cases h
  | cons c s ih =>
    by_cases hc : isWord c = true
    · simp only [readWords, hc, if_true] at h
      split at h
      · rename_i v t hread
        obtain ⟨rest, rfl, -, hv, hrest, hl⟩ := ih hread
        simp only [List.cons.injEq, Prod.mk.injEq] at h
        obtain ⟨⟨rfl, rfl⟩, rfl⟩ := h
        refine ⟨rest, rfl, by simp, ⟨List.cons_ne_nil c v, ?_⟩, hrest, hl⟩
        intro d hd
        rcases List.mem_cons.1 hd with rfl | hd
        · exact hc
        · exact hv.2 d hd
      · rename_i hread
        simp only [List.cons.injEq, Prod.mk.injEq] at h
        obtain ⟨⟨rfl, rfl⟩, rfl⟩ := h
        refine ⟨s, rfl, by simp, ⟨by simp, by simpa using hc⟩, ?_, rfl⟩
        by_contra hne
        obtain ⟨v, t, hv⟩ := readWords_of_head? (s := s) (by simpa using hne)
        exact hread v t hv
    · simp only [readWords, hc, Bool.false_eq_true, if_false] at h
      split at h
      · rename_i gap v t hread
        simp only [List.cons.injEq, Prod.mk.injEq] at h
        obtain ⟨⟨rfl, rfl⟩, rfl⟩ := h
        obtain ⟨rest, rfl, hgap, hv, hrest, hl⟩ := ih hread
        refine ⟨rest, rfl, ?_, hv, hrest, hl⟩
        intro d hd
        rcases List.mem_cons.1 hd with rfl | hd
        · simpa using hc
        · exact hgap d hd
      · cases h

/-! ## Texts put together -/

theorem head?_any_of_forall (hx : ∀ c ∈ x, isWord c = false) : x.head?.any isWord = false := by
  cases x with
  | nil => rfl
  | cons c x => simpa using hx c List.mem_cons_self

theorem head?_any_append (hx : x.head?.any isWord = false) (hy : y.head?.any isWord = false) :
    (x ++ y).head?.any isWord = false := by
  cases x with
  | nil => exact hy
  | cons c x => exact hx

theorem readWords_append (hx : x.getLast?.all isWord = true) (hy : y.head?.any isWord = false) :
    readWords (x ++ y) = readWords x ++ readWords y := by
  generalize hread : readWords x = l
  induction l generalizing x with
  | nil =>
    -- no word is read, and the text does not end without one
    cases hlast : x.getLast? with
    | none =>
      rw [List.getLast?_eq_none_iff.1 hlast]
      rfl
    | some c =>
      rw [hlast] at hx
      have hc := readWords_eq_nil hread c (List.mem_of_getLast? hlast)
      simp [hc] at hx
  | cons gw l ih =>
    obtain ⟨g, w⟩ := gw
    obtain ⟨rest, rfl, hg, hw, hrest, hl⟩ := readWords_eq_cons hread
    have hlast : rest.getLast?.all isWord = true := by
      cases rest with
      | nil => rfl
      | cons c rest =>
        rwa [← List.append_assoc, List.getLast?_append_of_ne_nil _ (List.cons_ne_nil c rest)] at hx
    calc readWords (g ++ (w ++ rest) ++ y) = readWords (g ++ (w ++ (rest ++ y))) := by simp only [List.append_assoc]
      _ = (g, w) :: readWords (rest ++ y) := readWords_gap_run hg hw (head?_any_append hrest hy)
      _ = (g, w) :: (l ++ readWords y) := by rw [ih hlast hl]

theorem wordRuns_append_cons {c : Char} (hc : isWord c = false) (x y : List Char) :
    wordRuns (x ++ c :: y) = wordRuns x ++ wordRuns y := by
  unfold wordRuns
  generalize hread : readWords x = l
  induction l generalizing x with
  | nil =>
    have hnone : ∀ d ∈ x ++ [c], isWord d = false := by
      intro d hd
      rcases List.mem_append.1 hd with hd | hd
      · exact readWords_eq_nil hread d hd
      · rwa [List.mem_singleton.1 hd]
    rw [List.append_cons, readWords_append_of_forall hnone]
    cases readWords y <;> rfl
  | cons gw l ih =>
    obtain ⟨g, w⟩ := gw
    obtain ⟨rest, rfl, hg, hw, hrest, hl⟩ := readWords_eq_cons hread
    have hnext : (rest ++ c :: y).head?.any isWord = false := head?_any_append hrest (by simpa using hc)
    rw [List.append_assoc, List.append_assoc, readWords_gap_run hg hw hnext, List.map_cons, ih rest hl]
    rfl

/-- the words since the last line break are put aside -/
theorem flatMap_wordRuns_splitOnP {sep : Char → Bool} (hsep : ∀ c, sep c = true → isWord c = false) {r s : List Char}
    (hr : ∀ c ∈ r, sep c = false) : ((r ++ s).splitOnP sep).flatMap wordRuns = wordRuns (r ++ s) := by
  induction s generalizing r with
  | nil => rw [List.append_nil, List.splitOnP_eq_singleton hr, List.flatMap_singleton]
  | cons c s ih =>
    by_cases hc : sep c = true
    · have hrest := ih (r := []) (by simp)
      rw [List.nil_append] at hrest
      rw [List.splitOnP_append_cons_of_forall_mem hr c hc, List.flatMap_cons, hrest,
        wordRuns_append_cons (hsep c hc)]
    · rw [List.append_cons]
      apply ih
      intro d hd
      rcases List.mem_append.1 hd with hd | hd
      · exact hr d hd
      · rw [List.mem_singleton.1 hd]
        exact Bool.eq_false_iff.2 hc

/-- **The words of a text are those of its lines.** -/
theorem flatMap_wordRuns_lines (s : List Char) : (lines s).flatMap wordRuns = wordRuns s :=
  flatMap_wordRuns_splitOnP (r := []) (fun _ => isWord_eq_false_of_isLineBreak) (by simp)

/-! ## Places -/

/-- a part of a text with no word character next to it -/
structure StandsAlone (s before u after : List Char) : Prop where
  text : s = before ++ (u ++ after)
  left : before.getLast?.any isWord = false
  right : after.head?.any isWord = false

/-- `u` is the word `w` and then the words `ws`, with white space between any two -/
inductive Row : List Char → List (List Char) → List Char → Prop
  | last (w : List Char) : Row w [] w
  | next {w v g u : List Char} {ws : List (List Char)} : IsGap g → Row v ws u → Row w (v :: ws) (w ++ (g ++ u))

theorem row_nil_iff {u w : List Char} : Row w [] u ↔ u = w := by
  constructor
  · intro h
    cases h
    rfl
  · rintro rfl
    exact .last u

theorem row_cons_iff {u w v : List Char} {ws : List (List Char)} :
    Row w (v :: ws) u ↔ ∃ g u', IsGap g ∧ u = w ++ (g ++ u') ∧ Row v ws u' := by
  constructor
  · intro h
    cases h with
    | next hg hu => exact ⟨_, _, hg, rfl, hu⟩
  · rintro ⟨g, u', hg, rfl, hu⟩
    exact .next hg hu

theorem Row.exists_append {u w : List Char} {ws : List (List Char)} (h : Row w ws u) : ∃ t, u = w ++ t := by
  cases h with
  | last => exact ⟨[], by simp⟩
  | next => exact ⟨_, rfl⟩

/-- the words follow one another in the text, with white space only between any two -/
def InRow (s w : List Char) (ws : List (List Char)) : Prop :=
  ∃ gap row, (gap, w) :: row <:+: readWords s ∧ row.map Prod.snd = ws ∧ ∀ x ∈ row, IsGap x.1

/-- what is read from a row of words -/
theorem readWords_row {u w : List Char} {ws : List (List Char)} (hu : Row w ws u) (hws : ∀ v ∈ w :: ws, IsRun v)
    (hg : ∀ c ∈ g, isWord c = false) (hrest : rest.head?.any isWord = false) :
    ∃ row, readWords (g ++ (u ++ rest)) = (g, w) :: row ++ readWords rest ∧ row.map Prod.snd = ws ∧
      ∀ x ∈ row, IsGap x.1 := by
  induction hu generalizing g with
  | last w => exact ⟨[], readWords_gap_run hg (hws w List.mem_cons_self) hrest, rfl, by simp⟩
  | @next w v g' u ws hgap hu ih =>
    have hg' : ∀ c ∈ g', isWord c = false := fun c hc => isWord_eq_false_of_isBlank (hgap.2 c hc)
    obtain ⟨row, hread, hrow, hgaps⟩ := ih (fun x hx => hws x (List.mem_cons_of_mem w hx)) hg'
    refine ⟨(g', v) :: row, ?_, by simp [hrow], ?_⟩
    · rw [List.append_assoc, List.append_assoc,
        readWords_gap_run hg (hws w List.mem_cons_self) (hgap.head?_any _), hread]
      rfl
    · intro x hx
      rcases List.mem_cons.1 hx with rfl | hx
      · exact hgap
      · exact hgaps x hx

/-- reading can start wherever a word has been read -/
theorem exists_rest_of_readWords {l l' : List (List Char × List Char)} (h : readWords s = l ++ l') :
    ∃ x y, s = x ++ y ∧ readWords y = l' ∧ (x ≠ [] → y.head?.any isWord = false) := by
  induction l generalizing s with
  | nil => exact ⟨[], s, rfl, h, by simp⟩
  | cons gw l ih =>
    obtain ⟨r, rfl, -, -, hr, hl⟩ := readWords_eq_cons h
    obtain ⟨x, y, rfl, hy, hstart⟩ := ih hl
    refine ⟨gw.1 ++ (gw.2 ++ x), y, by simp, hy, ?_⟩
    intro _
    cases x with
    | nil => exact hr
    | cons c x => exact hstart (List.cons_ne_nil c x)

theorem exists_row_of_readWords {row l : List (List Char × List Char)} (h : readWords s = (g, w) :: row ++ l)
    (hrow : ∀ x ∈ row, IsGap x.1) :
    ∃ u rest, s = g ++ (u ++ rest) ∧ Row w (row.map Prod.snd) u ∧ rest.head?.any isWord = false := by
  induction row generalizing s g w with
  | nil =>
    obtain ⟨rest, rfl, -, -, hrest, -⟩ := readWords_eq_cons h
    exact ⟨w, rest, rfl, .last w, hrest⟩
  | cons gv row ih =>
    obtain ⟨r, rfl, -, -, -, hr⟩ := readWords_eq_cons h
    obtain ⟨u, rest, rfl, hu, hrest⟩ := ih hr fun x hx => hrow x (List.mem_cons_of_mem gv hx)
    exact ⟨w ++ (gv.1 ++ u), rest, by simp, .next (hrow gv List.mem_cons_self) hu, hrest⟩

/-- a text is taken apart behind its last word -/
theorem exists_split_behind_word (s : List Char) :
    ∃ x g, s = x ++ g ∧ x.getLast?.all isWord = true ∧ ∀ c ∈ g, isWord c = false := by
  refine ⟨s.rdropWhile fun c => !isWord c, s.rtakeWhile fun c => !isWord c, ?_, ?_, ?_⟩
  · rw [List.rdropWhile_append_rtakeWhile]
  · by_cases hnil : s.rdropWhile (fun c => !isWord c) = []
    · simp [hnil]
    · have hlast := List.rdropWhile_last_not _ s hnil
      rw [List.getLast?_eq_some_getLast hnil]
      simpa using hlast
  · intro c hc
    simpa using List.mem_rtakeWhile_imp hc

theorem standsAlone_of_inRow {ws : List (List Char)} (hws : ∀ v ∈ w :: ws, IsRun v) (h : InRow s w ws) :
    ∃ before u after, StandsAlone s before u after ∧ Row w ws u := by
  obtain ⟨gap, row, ⟨l, l', hread⟩, rfl, hgaps⟩ := h
  rw [List.append_assoc] at hread
  obtain ⟨x, y, rfl, hy, hstart⟩ := exists_rest_of_readWords hread.symm
  obtain ⟨-, -, hgap, -⟩ := readWords_eq_cons hy
  obtain ⟨u, rest, rfl, hu, hrest⟩ := exists_row_of_readWords hy hgaps
  refine ⟨x ++ gap, u, rest, ⟨by simp, ?_, hrest⟩, hu⟩
  -- either there is a gap before the first word, or the text starts with it
  by_cases hnil : gap = []
  · subst hnil
    have hfirst : (u ++ rest).head?.any isWord = true := by
      obtain ⟨t, rfl⟩ := hu.exists_append
      rw [List.append_assoc]
      exact (hws w List.mem_cons_self).head?_any _
    by_cases hx : x = []
    · simp [hx]
    · have hnone := hstart hx
      rw [List.nil_append, hfirst] at hnone
      cases hnone
  · rw [List.getLast?_append_of_ne_nil x hnil, List.getLast?_eq_some_getLast hnil]
    exact hgap _ (List.getLast_mem hnil)

theorem inRow_of_standsAlone {ws : List (List Char)} (hws : ∀ v ∈ w :: ws, IsRun v) {before u after : List Char}
    (h : StandsAlone s before u after) (hu : Row w ws u) : InRow s w ws := by
  obtain ⟨rfl, hleft, hright⟩ := h
  obtain ⟨x, g, rfl, hx, hg⟩ := exists_split_behind_word before
  obtain ⟨row, hread, hrow, hgaps⟩ := readWords_row hu hws hg hright
  refine ⟨g, row, ?_, hrow, hgaps⟩
  by_cases hnil : x = []
  · subst hnil
    exact ⟨[], readWords after, by simp [hread]⟩
  · have hgne : g ≠ [] := by
      rintro rfl
      rw [List.append_nil, List.getLast?_eq_some_getLast hnil] at hleft
      rw [List.getLast?_eq_some_getLast hnil] at hx
      simp_all
    have hnext : (g ++ (u ++ after)).head?.any isWord = false := by
      obtain ⟨c, g, rfl⟩ := List.exists_cons_of_ne_nil hgne
      simpa using hg c List.mem_cons_self
    refine ⟨readWords x, readWords after, ?_⟩
    rw [List.append_assoc, List.append_assoc, readWords_append hx hnext, hread]

/-- **Words in a row.** They follow one another in the reading of a text exactly where they stand in it, with white
space between any two and no word character next to the first and the last. -/
theorem inRow_iff {ws : List (List Char)} (hws : ∀ v ∈ w :: ws, IsRun v) :
    InRow s w ws ↔ ∃ before u after, StandsAlone s before u after ∧ Row w ws u :=
  ⟨standsAlone_of_inRow hws, fun ⟨_, _, _, halone, hu⟩ => inRow_of_standsAlone hws halone hu⟩

theorem mem_wordRuns_of_inRow {ws : List (List Char)} (h : InRow s w ws) : ∀ v ∈ w :: ws, v ∈ wordRuns s := by
  obtain ⟨gap, row, hpart, rfl, -⟩ := h
  intro v hv
  have hmem : v ∈ ((gap, w) :: row).map Prod.snd := by simpa using hv
  exact (hpart.map Prod.snd).subset hmem

theorem isRun_of_mem_readWords {l : List (List Char × List Char)} (hread : readWords s = l) {gw : List Char × List Char}
    (h : gw ∈ l) : IsRun gw.2 := by
  induction l generalizing s with
  | nil => cases h
  | cons first l ih =>
    obtain ⟨rest, -, -, hrun, -, hl⟩ := readWords_eq_cons hread
    rcases List.mem_cons.1 h with rfl | h
    · exact hrun
    · exact ih hl h

/-- **Words.** Those read from a text are the runs of word characters that stand in it alone. -/
theorem mem_wordRuns_iff : w ∈ wordRuns s ↔ IsRun w ∧ ∃ before after, StandsAlone s before w after := by
  have hrow : IsRun w → (InRow s w [] ↔ ∃ before after, StandsAlone s before w after) := by
    intro hw
    rw [inRow_iff (by simpa using hw)]
    simp only [row_nil_iff]
    constructor
    · rintro ⟨before, u, after, h, rfl⟩
      exact ⟨before, after, h⟩
    · rintro ⟨before, after, h⟩
      exact ⟨before, w, after, h, rfl⟩
  constructor
  · intro h
    obtain ⟨⟨gap, v⟩, hmem, rfl⟩ := List.mem_map.1 h
    have hw := isRun_of_mem_readWords rfl hmem
    obtain ⟨l, l', hread⟩ := List.append_of_mem hmem
    exact ⟨hw, (hrow hw).1 ⟨gap, [], ⟨l, l', by simp [hread]⟩, rfl, by simp⟩⟩
  · rintro ⟨hw, halone⟩
    obtain ⟨gap, row, hpart, -⟩ := (hrow hw).2 halone
    exact List.mem_map.2 ⟨(gap, w), hpart.subset List.mem_cons_self, rfl⟩

end

end ClassAtlas.Text
