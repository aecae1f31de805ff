/-
The size of a file, as a reader would count it.

- `branchKeyword_takesWords`, `countBranches_eq`: the branch keywords counted line by line are the words of the whole text
  that are one of `branchWords`.
- `closedLines`: the lines of a text, where a carriage return, a line feed, or both as a pair end a line.
  `countLines_eq`: the lines counted are those that hold more than white space. A pair divides the text twice when it is
  read, but the piece inside it is empty and never counts.
- `countLines_append`, `countBranches_append`: both counts add up over texts with a line end between them.
- `size_as_counted`: all of this for every file.
-/
import ClassAtlas.Proofs.Source.LineBreaks
import ClassAtlas.Proofs.Source.TypeWords
import ClassAtlas.Proofs.Text.WholeWords
import ClassAtlas.Source.Size

namespace ClassAtlas.Source

open ClassAtlas.Text ClassAtlas.Text.Pattern

/-! ## Branch keywords -/

/-- the words that open a branch -/
def branchWords : List (List Char) := ["if".toList, "switch".toList, "for".toList, "while".toList]

theorem isRun_of_mem_branchWords {w : List Char} (h : w ∈ branchWords) : IsRun w := by
  have hall : (branchWords.all fun w => !w.isEmpty && w.all isWord) = true := by decide
  exact isRun_of_all (List.all_eq_true.1 hall w h)

/-- between its two boundaries, the pattern takes one of the words -/
theorem spans_branchKeyword {before u after : List Char} : branchKeyword.Spans before u after ↔
    u ∈ branchWords ∧ Cursor.atBoundary ⟨before, u ++ after⟩ = true ∧
      Cursor.atBoundary ⟨u.reverse ++ before, after⟩ = true := by
  have hchoice : ∀ {before v after : List Char},
      (choice (text "if".toList) (choice (text "switch".toList) (choice (text "for".toList)
        (text "while".toList)))).Spans before v after ↔ v ∈ branchWords := by
    intro before v after
    simp only [Spans, spans_text, branchWords, List.mem_cons, List.not_mem_nil, or_false]
  simp only [branchKeyword, spans_all_cons, spans_all_nil, spans_boundary, hchoice]
  constructor
  · rintro ⟨a, b, rfl, ⟨hleft, rfl⟩, v, c, rfl, hv, d, e, rfl, ⟨hright, rfl⟩, rfl⟩
    exact ⟨by simpa using hv, by simpa using hleft, by simpa using hright⟩
  · rintro ⟨hu, hleft, hright⟩
    exact ⟨[], u, rfl, ⟨hleft, rfl⟩, u, [], by simp, hu, [], [], rfl, ⟨hright, rfl⟩, rfl⟩

theorem branchKeyword_takesWords : branchKeyword.TakesWords fun w => branchWords.contains w := by
  intro c d
  rw [mem_ends_iff]
  simp only [spans_branchKeyword, List.contains_iff_mem]
  constructor
  · rintro ⟨w, htakes, hw, hleft, hright⟩
    have hrun := isRun_of_mem_branchWords hw
    exact ⟨w, hrun, hw, htakes, (atBoundary_before_run hrun).1 hleft, (atBoundary_after_run hrun).1 hright⟩
  · rintro ⟨w, hrun, hw, htakes, hleft, hright⟩
    exact ⟨w, htakes, hw, (atBoundary_before_run hrun).2 hleft, (atBoundary_after_run hrun).2 hright⟩

/-- the keywords of a line are some of its words, and the words of the lines are those of the text -/
theorem countBranches_eq (s : List Char) :
    countBranches s = ((wordRuns s).filter fun w => branchWords.contains w).length := by
  have hline : ∀ l, (branchKeyword.matchesIn l).length = ((wordRuns l).filter fun w => branchWords.contains w).length := by
    intro l
    rw [← branchKeyword_takesWords.matchesIn_words, List.length_map]
  calc countBranches s = ((lines s).flatMap fun l => (wordRuns l).filter fun w => branchWords.contains w).length := by
        simp only [countBranches, hline, List.length_flatMap]
        rfl
    _ = (((lines s).flatMap wordRuns).filter fun w => branchWords.contains w).length := by rw [List.filter_flatMap]
    _ = ((wordRuns s).filter fun w => branchWords.contains w).length := by rw [flatMap_wordRuns_lines]

/-! ## Lines -/

/-- the lines of a text, each ended by a carriage return, a line feed, or the pair of both -/
def closedLines : List Char → List (List Char)
  | [] => [[]]
  | '\r' :: '\n' :: r => [] :: closedLines r
  | c :: r => if isLineBreak c then [] :: closedLines r else (closedLines r).modifyHead (c :: ·)

/-- a line that holds a character other than white space -/
def holdsText (l : List Char) : Bool := l.any fun c => !isBlank c

theorem lines_singleBreaks (s : List Char) : lines (singleBreaks s) = closedLines s := by
  unfold lines
  fun_induction closedLines s with
  | case1 => rfl
  | case2 r ih => rw [singleBreaks, List.splitOnP_cons_eq_if_modifyHead, ih]; rfl
  | case3 c r hpair hc ih => rw [singleBreaks, List.splitOnP_cons_eq_if_modifyHead, ih, if_pos hc]; exact hpair
  | case4 c r hpair hc ih => rw [singleBreaks, List.splitOnP_cons_eq_if_modifyHead, ih, if_neg hc]; exact hpair

theorem not_isEmpty_trim (l : List Char) : (!(trim l).isEmpty) = holdsText l := by
  rw [Bool.eq_iff_iff]
  simp [holdsText, trim_eq_nil_iff]

theorem countLines_eq_filter (s : List Char) : countLines s = ((lines s).filter holdsText).length := by
  simp only [countLines, not_isEmpty_trim]

theorem countLines_eq (s : List Char) : countLines s = ((closedLines s).filter holdsText).length := by
  rw [← countLines_singleBreaks, countLines_eq_filter, lines_singleBreaks]

/-! ## Texts put together -/

/-- what ends a line -/
def lineEnds : List (List Char) := [['\r'], ['\n'], ['\r', '\n']]

section

variable {count : List Char → Nat} {x y : List Char}

/-- a count that adds up at each line break, and is nothing for the empty text, adds up at each line end -/
theorem count_append_lineEnd (hnil : count [] = 0)
    (hbreak : ∀ (x y : List Char) (c : Char), isLineBreak c = true → count (x ++ c :: y) = count x + count y)
    {t : List Char} (ht : t ∈ lineEnds) : count (x ++ (t ++ y)) = count x + count y := by
  simp only [lineEnds, List.mem_cons, List.not_mem_nil, or_false] at ht
  rcases ht with rfl | rfl | rfl
  · exact hbreak x y '\r' rfl
  · exact hbreak x y '\n' rfl
  · calc count (x ++ '\r' :: '\n' :: y) = count x + count ('\n' :: y) := hbreak x _ '\r' rfl
      _ = count x + (count [] + count y) := congrArg _ (hbreak [] y '\n' rfl)
      _ = count x + count y := by rw [hnil, Nat.zero_add]

theorem countLines_append {t : List Char} (ht : t ∈ lineEnds) :
    countLines (x ++ (t ++ y)) = countLines x + countLines y := by
  apply count_append_lineEnd rfl ?_ ht
  intro x y c hc
  rw [countLines_eq_filter, lines, List.splitOnP_append_cons x y hc, List.filter_append, List.length_append]
  rw [countLines_eq_filter, countLines_eq_filter, lines, lines]

theorem countBranches_append {t : List Char} (ht : t ∈ lineEnds) :
    countBranches (x ++ (t ++ y)) = countBranches x + countBranches y := by
  apply count_append_lineEnd (countBranches_eq []) ?_ ht
  intro x y c hc
  rw [countBranches_eq, wordRuns_append_cons (isWord_eq_false_of_isLineBreak hc), List.filter_append,
    List.length_append, countBranches_eq, countBranches_eq]

end

/-! ## Files -/

/-- a file of the same path with another text -/
def SourceFile.holding (f : SourceFile) (s : List Char) : SourceFile := f.rewrite fun _ => s

/-- **The size of a file.** Its complexity is the number of branch keywords among the words of its text, its line count
that of the lines with more than white space, and both add up where texts are put together with a line end between
them. -/
theorem size_as_counted (f : SourceFile) :
    f.size.complexity = ((wordRuns f.content.toList).filter fun w => branchWords.contains w).length ∧
    f.size.lineCount = ((closedLines f.content.toList).filter holdsText).length ∧
    ∀ (x y : List Char), ∀ t ∈ lineEnds,
      (f.holding (x ++ (t ++ y))).size.complexity = (f.holding x).size.complexity + (f.holding y).size.complexity ∧
      (f.holding (x ++ (t ++ y))).size.lineCount = (f.holding x).size.lineCount + (f.holding y).size.lineCount := by
  refine ⟨countBranches_eq _, countLines_eq _, ?_⟩
  intro x y t ht
  simp only [SourceFile.size, SourceFile.holding, SourceFile.rewrite, String.toList_ofList]
  exact ⟨countBranches_append ht, countLines_append ht⟩

theorem size_as_counted_shop :
    let f : SourceFile := ⟨"src/Shop.java", "if (iff) while\r\n\r\n éfor (x)\r \rfor", by decide⟩
    let x := "if (iff) while\r\n".toList
    let y := " éfor (x)\r \rfor".toList
    ['\r', '\n'] ∈ lineEnds ∧ f.size.complexity = 3 ∧ f.size.lineCount = 3 ∧
      (f.holding (x ++ (['\r', '\n'] ++ y))).size.complexity =
        (f.holding x).size.complexity + (f.holding y).size.complexity ∧
      (f.holding (x ++ (['\r', '\n'] ++ y))).size.lineCount =
        (f.holding x).size.lineCount + (f.holding y).size.lineCount := by
  intro f x y
  have hpair : ['\r', '\n'] ∈ lineEnds := by decide
  obtain ⟨hcomplexity, hlines, hsum⟩ := size_as_counted f
  refine ⟨hpair, ?_, ?_, hsum x y _ hpair⟩
  · rw [hcomplexity]
    decide +kernel
  · rw [hlines]
    decide +kernel

end ClassAtlas.Source
