/-
Line breaks of two characters made single.

`singleBreaks` puts a line feed for every pair of a carriage return and a line feed. A text and its single-break form have
the same places but for those inside a pair. `SamePlace` ties a place outside all pairs to its counterpart. A search that
backtracks may well stop inside a pair, where the single-break form has no place, so agreement of two continuations is
carried backwards through a pattern part by part: `Agree` says that they answer alike at the same place, `FailsInside`
that the first finds nothing inside a pair.

- a character that is no line break, and a word boundary, carry agreement and fail inside a pair
  (`char_agree`, `char_failsInside`, `boundary_agree`, `boundary_failsInside`, `text_agree`);
- runs that may cross a pair carry the agreement of what fails inside one (`many_agree`, `few_agree`, `some1_agree`);
- so does the search for the leftmost answer (`seek_singleBreaks`).

`segments_singleBreaks`: the lines that are not empty are the same ones.
-/
import ClassAtlas.Proofs.Text.LineFeeds
import ClassAtlas.Proofs.Text.Words

namespace ClassAtlas.Text

/-- a line feed for every pair of a carriage return and a line feed -/
def singleBreaks : List Char → List Char
  | [] => []
  | '\r' :: '\n' :: r => '\n' :: singleBreaks r
  | c :: r => c :: singleBreaks r

/-! ## Places -/

namespace Cursor

/-- between the two characters of a pair -/
def insidePair (c : Cursor) : Prop := c.before.head? = some '\r' ∧ c.after.head? = some '\n'

/-- a place outside all pairs and its counterpart; of what stands before it, only a word character counts -/
structure SamePlace (c d : Cursor) : Prop where
  outside : ¬ c.insidePair
  after : d.after = singleBreaks c.after
  word : d.before.head?.any isWord = c.before.head?.any isWord

theorem samePlace_start (s : List Char) : SamePlace (start s) (start (singleBreaks s)) := by
  refine ⟨?_, rfl, rfl⟩
  intro h
  cases h.1

theorem samePlace_pair (before before' r : List Char) :
    SamePlace ⟨'\n' :: '\r' :: before, r⟩ ⟨'\n' :: before', singleBreaks r⟩ := by
  refine ⟨?_, rfl, rfl⟩
  intro h
  exact absurd (Option.some.inj h.1) (by decide)

theorem samePlace_cons (before before' : List Char) {x : Char} {r : List Char}
    (hx : ∀ r', x = '\r' → r = '\n' :: r' → False) :
    SamePlace ⟨x :: before, r⟩ ⟨x :: before', singleBreaks r⟩ := by
  refine ⟨?_, rfl, rfl⟩
  intro h
  have hreturn : x = '\r' := Option.some.inj h.1
  cases r with
  | nil => cases h.2
  | cons y r' =>
    have hfeed : y = '\n' := Option.some.inj h.2
    exact hx r' hreturn (by rw [hfeed])

theorem head?_singleBreaks {ok : Char → Bool} (h : ok '\r' = ok '\n') (s : List Char) :
    (singleBreaks s).head?.any ok = s.head?.any ok := by
  fun_cases singleBreaks s with
  | case1 => rfl
  | case2 r => exact h.symm
  | case3 x r hx => rfl

theorem SamePlace.atBoundary {c d : Cursor} (h : SamePlace c d) : d.atBoundary = c.atBoundary := by
  have hword : isWord '\r' = isWord '\n' := by decide
  simp only [Cursor.atBoundary, h.word, h.after, head?_singleBreaks hword]

end Cursor

namespace Pattern

open Cursor

section

variable {α : Type} {k k' : Cursor → Option α} {ok : Char → Bool}

/-- the same answers at the same places -/
def Agree (k k' : Cursor → Option α) : Prop := ∀ c d, SamePlace c d → k c = k' d

/-- no answer between the two characters of a pair -/
def FailsInside (k : Cursor → Option α) : Prop := ∀ c : Cursor, c.insidePair → k c = none

/-! ## What takes no part of a line break -/

theorem char_agree (hok : ok '\r' = false ∧ ok '\n' = false) (hk : Agree k k') :
    Agree ((char ok).run k) ((char ok).run k') := by
  intro ⟨before, after⟩ ⟨before', after'⟩ h
  obtain rfl : after' = singleBreaks after := h.after
  fun_cases singleBreaks after with
  | case1 => rfl
  | case2 r => simp [run, hok]
  | case3 x r hx =>
    have hnext := hk _ _ (samePlace_cons before before' hx)
    simp only [run, hnext]

theorem char_failsInside (hok : ok '\n' = false) : FailsInside ((char ok).run k) := by
  intro ⟨before, after⟩ h
  cases after with
  | nil => rfl
  | cons x r =>
    have hx : x = '\n' := Option.some.inj h.2
    simp [run, hx, hok]

theorem boundary_agree (hk : Agree k k') : Agree (boundary.run k) (boundary.run k') := by
  intro c d h
  simp only [run, h.atBoundary, hk c d h]

theorem boundary_failsInside : FailsInside (boundary.run k) := by
  intro ⟨before, after⟩ h
  have hbefore : before.head? = some '\r' := h.1
  have hafter : after.head? = some '\n' := h.2
  have hword : isWord '\r' = isWord '\n' := by decide
  simp [run, atBoundary, hbefore, hafter, hword]

theorem text_agree {s : List Char} (hs : '\r' ∉ s ∧ '\n' ∉ s) (hk : Agree k k') :
    Agree ((text s).run k) ((text s).run k') := by
  induction s with
  | nil => exact hk
  | cons c s ih =>
    simp only [List.mem_cons, not_or] at hs
    exact char_agree (by simpa using ⟨hs.1.1, hs.2.1⟩) (ih ⟨hs.1.2, hs.2.2⟩)

/-- a text fails inside a pair unless it is empty, and then what follows it does -/
theorem text_failsInside {s : List Char} (hs : '\n' ∉ s) (hin : FailsInside k) : FailsInside ((text s).run k) := by
  cases s with
  | nil => exact hin
  | cons c s =>
    simp only [List.mem_cons, not_or] at hs
    exact char_failsInside (by simpa using hs.1)

theorem optional_agree {p : Pattern} (hp : Agree (p.run k) (p.run k')) (hk : Agree k k') :
    Agree ((optional p).run k) ((optional p).run k') := by
  intro c d h
  simp only [run, hp c d h, hk c d h]

/-! ## What may cross a line break -/

/-- the run goes over both characters of a pair: it may stop between them, but nothing is found there -/
theorem manyRun_agree (hok : ok '\r' = true ∧ ok '\n' = true) (hk : Agree k k') (hin : FailsInside k)
    {before before' after : List Char} (h : SamePlace ⟨before, after⟩ ⟨before', singleBreaks after⟩) :
    manyRun ok k before after = manyRun ok k' before' (singleBreaks after) := by
  have hhere := hk _ _ h
  fun_induction singleBreaks after generalizing before before' with
  | case1 => exact hhere
  | case2 r ih =>
    have hpair := samePlace_pair before before' r
    have hrest := ih hpair (hk _ _ hpair)
    have hnone : k ⟨'\r' :: before, '\n' :: r⟩ = none := hin _ ⟨rfl, rfl⟩
    simp only [manyRun, hok.1, hok.2, if_true, hrest, hnone, hhere]
    cases manyRun ok k' ('\n' :: before') (singleBreaks r) <;> rfl
  | case3 x r hx ih =>
    have hnext := samePlace_cons before before' hx
    have hrest := ih hnext (hk _ _ hnext)
    simp only [manyRun, hrest, hhere]

theorem many_agree (hok : ok '\r' = true ∧ ok '\n' = true) (hk : Agree k k') (hin : FailsInside k) :
    Agree ((many ok).run k) ((many ok).run k') := by
  intro ⟨before, after⟩ ⟨before', after'⟩ h
  obtain rfl : after' = singleBreaks after := h.after
  exact manyRun_agree hok hk hin h

theorem few_agree (hok : ok '\r' = true ∧ ok '\n' = true) (hk : Agree k k') (hin : FailsInside k) :
    Agree ((few ok).run k) ((few ok).run k') := by
  intro ⟨before, after⟩ ⟨before', after'⟩ h
  obtain rfl : after' = singleBreaks after := h.after
  have hhere := hk _ _ h
  simp only [run]
  fun_induction singleBreaks after generalizing before before' with
  | case1 => exact hhere
  | case2 r ih =>
    have hpair := samePlace_pair before before' r
    have hrest := ih _ _ hpair (hk _ _ hpair)
    have hnone : k ⟨'\r' :: before, '\n' :: r⟩ = none := hin _ ⟨rfl, rfl⟩
    simp only [fewRun, hok.1, hok.2, if_true, hrest, hnone, hhere]
  | case3 x r hx ih =>
    have hnext := samePlace_cons before before' hx
    have hrest := ih _ _ hnext (hk _ _ hnext)
    simp only [fewRun, hrest, hhere]

/-- one or more characters: the first alone would end inside a pair -/
theorem some1_agree (hok : ok '\r' = true ∧ ok '\n' = true) (hk : Agree k k') (hin : FailsInside k) :
    Agree ((some1 ok).run k) ((some1 ok).run k') := by
  intro ⟨before, after⟩ ⟨before', after'⟩ h
  obtain rfl : after' = singleBreaks after := h.after
  simp only [some1, run]
  fun_cases singleBreaks after with
  | case1 => rfl
  | case2 r =>
    have hrest := manyRun_agree hok hk hin (samePlace_pair before before' r)
    have hnone : k ⟨'\r' :: before, '\n' :: r⟩ = none := hin _ ⟨rfl, rfl⟩
    simp only [hok.1, hok.2, if_true, manyRun, hrest, hnone]
    cases manyRun ok k' ('\n' :: before') (singleBreaks r) <;> rfl
  | case3 x r hx =>
    have hrest := manyRun_agree hok hk hin (samePlace_cons before before' hx)
    simp only [hrest]

theorem seek_singleBreaks (hk : Agree k k') (hin : FailsInside k) (s : List Char) :
    seek k' [] (singleBreaks s) = seek k [] s := by
  rw [seek_eq_run, seek_eq_run]
  exact (few_agree ⟨rfl, rfl⟩ hk hin _ _ (samePlace_start s)).symm

end

theorem run_map_answer {α β : Type} (p : Pattern) (k : Cursor → Option α) (g : α → β) (c : Cursor) :
    p.run (fun d => (k d).map g) c = (p.run k c).map g := by
  rw [run_eq_findSome, run_eq_findSome, List.map_findSome?]
  rfl

/-- a pattern that carries agreement and does not start inside a pair occurs in both texts or in neither -/
theorem occursIn_singleBreaks {p : Pattern}
    (hp : ∀ k : Cursor → Option Unit, Agree k k → Agree (p.run k) (p.run k))
    (hin : ∀ k : Cursor → Option Unit, FailsInside (p.run k)) (s : List Char) :
    p.occursIn (singleBreaks s) = p.occursIn s := by
  -- where a match ends is another place in the other text, so the answer is taken without it
  have hunit : ∀ t, p.occursIn t = (seek (p.run fun _ => some ()) [] t).isSome := by
    intro t
    have hrun : (p.run fun _ => some ()) = fun c => (p.run some c).map fun _ => () :=
      funext fun c => run_map_answer p some (fun _ => ()) c
    rw [occursIn, seek_eq_run, seek_eq_run, hrun, run_map_answer, Option.isSome_map]
  rw [hunit, hunit, seek_singleBreaks (hp _ fun _ _ _ => rfl) (hin _)]

end Pattern

/-! ## Lines -/

theorem segments_singleBreaks (s : List Char) : segments isLineBreak (singleBreaks s) = segments isLineBreak s := by
  have hskip : ∀ r, segments isLineBreak ('\n' :: r) = segments isLineBreak r := fun r =>
    segments_append_cons (s := []) rfl r
  -- the text before a break is put aside, so that it need not be divided
  have hprefix : ∀ before, segments isLineBreak (before ++ singleBreaks s) = segments isLineBreak (before ++ s) := by
    fun_induction singleBreaks s with
    | case1 => exact fun _ => rfl
    | case2 r ih =>
      intro before
      rw [segments_append_cons rfl, segments_append_cons rfl, hskip]
      exact congrArg (segments isLineBreak before ++ ·) (ih [])
    | case3 x r hx ih =>
      intro before
      rw [List.append_cons before x (singleBreaks r), List.append_cons before x r]
      exact ih (before ++ [x])
  exact hprefix []

end ClassAtlas.Text
