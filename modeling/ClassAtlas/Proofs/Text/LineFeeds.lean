/-
Patterns that cannot tell a carriage return from a line feed.

A pattern looks at characters through its classes and at word boundaries only. `Pattern.BreakBlind`: none of its classes
tells a carriage return from a line feed; neither is a word character. With line feeds put for carriage returns in the
text, such a pattern leads to the same places in the same order of preference (`ends_toFeeds`), so every use of it gives
the same answer up to line feeds for carriage returns:

- `occursIn_toFeeds`: whether it occurs;
- `capture_toFeeds`: what a group matches in its leftmost match;
- `replaceAll_toFeeds`: the text with its matches replaced.
-/
import ClassAtlas.Text.Pattern

namespace ClassAtlas.Text

/-- a line feed for a carriage return -/
def toFeed (c : Char) : Char := if c == '\r' then '\n' else c

theorem toFeed_eq_self {c : Char} (h : c ≠ '\r') : toFeed c = c := by
  simp [toFeed, h]

theorem swap_eq_map_toFeed (s : List Char) : swap '\r' '\n' s = s.map toFeed := rfl

/-- a class that does not tell the two apart -/
theorem class_toFeed {ok : Char → Bool} (h : ok '\r' = ok '\n') (c : Char) : ok (toFeed c) = ok c := by
  by_cases hc : c = '\r'
  · subst hc
    exact h.symm
  · rw [toFeed_eq_self hc]

theorem any_head?_toFeed {ok : Char → Bool} (h : ok '\r' = ok '\n') (s : List Char) :
    (s.map toFeed).head?.any ok = s.head?.any ok := by
  cases s with
  | nil => rfl
  | cons c s => simp [class_toFeed h]

namespace Cursor

/-- the same place with line feeds for carriage returns -/
def toFeeds (c : Cursor) : Cursor := ⟨c.before.map toFeed, c.after.map toFeed⟩

theorem atBoundary_toFeeds (c : Cursor) : c.toFeeds.atBoundary = c.atBoundary := by
  have hword : isWord '\r' = isWord '\n' := by decide
  simp only [atBoundary, toFeeds, any_head?_toFeed hword]

theorem upTo_toFeeds (c d : Cursor) : c.toFeeds.upTo d.toFeeds = (c.upTo d).map toFeed := by
  simp [upTo, toFeeds, List.map_take]

end Cursor

namespace Pattern

/-- no class of the pattern tells a carriage return from a line feed -/
def BreakBlind : Pattern → Prop
  | .empty => True
  | .char ok => ok '\r' = ok '\n'
  | .many ok => ok '\r' = ok '\n'
  | .few ok => ok '\r' = ok '\n'
  | .boundary => True
  | .seq p q => p.BreakBlind ∧ q.BreakBlind
  | .choice p q => p.BreakBlind ∧ q.BreakBlind
  | .optional p => p.BreakBlind

/-! ## Places -/

section

variable {ok : Char → Bool}

theorem manyEnds_toFeeds (h : ok '\r' = ok '\n') (before after : List Char) :
    manyEnds ok (before.map toFeed) (after.map toFeed) = (manyEnds ok before after).map Cursor.toFeeds := by
  induction after generalizing before with
  | nil => rfl
  | cons x r ih =>
    have hrest := ih (x :: before)
    simp only [List.map_cons] at hrest
    simp only [List.map_cons, manyEnds, class_toFeed h, hrest]
    split <;> simp [Cursor.toFeeds]

theorem fewEnds_toFeeds (h : ok '\r' = ok '\n') (before after : List Char) :
    fewEnds ok (before.map toFeed) (after.map toFeed) = (fewEnds ok before after).map Cursor.toFeeds := by
  induction after generalizing before with
  | nil => rfl
  | cons x r ih =>
    have hrest := ih (x :: before)
    simp only [List.map_cons] at hrest
    simp only [List.map_cons, fewEnds, class_toFeed h, hrest]
    split <;> simp [Cursor.toFeeds]

end

/-- **A pattern that cannot tell them apart leads to the same places.** -/
theorem ends_toFeeds {p : Pattern} (hp : p.BreakBlind) (c : Cursor) :
    p.ends c.toFeeds = (p.ends c).map Cursor.toFeeds := by
  induction p generalizing c with
  | empty => rfl
  | char ok =>
    obtain ⟨before, after⟩ := c
    cases after with
    | nil => rfl
    | cons x r =>
      simp only [ends, Cursor.toFeeds, List.map_cons, class_toFeed hp]
      split <;> simp [Cursor.toFeeds]
  | many ok => exact manyEnds_toFeeds hp c.before c.after
  | few ok => exact fewEnds_toFeeds hp c.before c.after
  | boundary =>
    simp only [ends, Cursor.atBoundary_toFeeds]
    split <;> rfl
  | seq p q ihp ihq =>
    have hq : ∀ d : Cursor, q.ends d.toFeeds = (q.ends d).map Cursor.toFeeds := fun d => ihq hp.2 d
    simp only [ends, ihp hp.1, List.flatMap_map, List.map_flatMap, hq]
  | choice p q ihp ihq => simp only [ends, ihp hp.1, ihq hp.2, List.map_append]
  | optional p ih => simp only [ends, ih hp, List.map_append, List.map_cons, List.map_nil]

/-! ## Answers -/

section

variable {α β : Type} {p : Pattern} {k : Cursor → Option α} {k' : Cursor → Option β} {g : α → β}

theorem run_toFeeds (hp : p.BreakBlind) (hk : ∀ d : Cursor, k' d.toFeeds = (k d).map g) (c : Cursor) :
    p.run k' c.toFeeds = (p.run k c).map g := by
  have hcomp : k' ∘ Cursor.toFeeds = Option.map g ∘ k := funext hk
  rw [run_eq_findSome, run_eq_findSome, ends_toFeeds hp, List.findSome?_map, hcomp, List.map_findSome?]

/-- to search is to skip as little as possible -/
theorem seek_eq_run (attempt : Cursor → Option α) (before after : List Char) :
    seek attempt before after = (few fun _ => true).run attempt ⟨before, after⟩ := by
  simp only [run]
  induction after generalizing before with
  | nil => rfl
  | cons x r ih =>
    simp only [seek, fewRun, ih]
    rfl

theorem seek_toFeeds (hk : ∀ d : Cursor, k' d.toFeeds = (k d).map g) (s : List Char) :
    seek k' [] (s.map toFeed) = (seek k [] s).map g := by
  rw [seek_eq_run, seek_eq_run]
  exact run_toFeeds (p := .few fun _ => true) rfl hk ⟨[], s⟩

end

theorem occursIn_toFeeds {p : Pattern} (hp : p.BreakBlind) (s : List Char) :
    p.occursIn (s.map toFeed) = p.occursIn s := by
  have hrun : ∀ d : Cursor, p.run some d.toFeeds = (p.run some d).map Cursor.toFeeds :=
    fun d => run_toFeeds hp (fun _ => rfl) d
  simp only [occursIn, seek_toFeeds hrun, Option.isSome_map]

theorem capture_toFeeds {lead group : Pattern} (hlead : lead.BreakBlind) (hgroup : group.BreakBlind) (s : List Char) :
    lead.capture group (s.map toFeed) = (lead.capture group s).map (List.map toFeed) := by
  refine seek_toFeeds (fun c => run_toFeeds hlead (fun d => ?_) c) s
  refine run_toFeeds hgroup (fun e => ?_) d
  simp [Cursor.upTo_toFeeds]

theorem replaceIn_toFeeds {p : Pattern} (hp : p.BreakBlind) {new : List Char} (hnew : new.map toFeed = new)
    (before after : List Char) :
    p.replaceIn new (before.map toFeed) (after.map toFeed) = (p.replaceIn new before after).map toFeed := by
  have hrun : ∀ d : Cursor, p.run some d.toFeeds = (p.run some d).map Cursor.toFeeds :=
    fun d => run_toFeeds hp (fun _ => rfl) d
  fun_induction replaceIn p new before after with
  | case1 before => simp [replaceIn]
  | case2 before x r hnone ih =>
    have hnone' := hrun ⟨before, x :: r⟩
    simp only [hnone, Cursor.toFeeds, List.map_cons, Option.map_none] at hnone' ih ⊢
    rw [replaceIn, hnone', ih]
  | case3 before x r stop hstop hle ih =>
    have hstop' := hrun ⟨before, x :: r⟩
    simp only [hstop, Cursor.toFeeds, List.map_cons, Option.map_some] at hstop' ⊢
    rw [replaceIn, hstop']
    simp [hle, ih, hnew]
  | case4 before x r stop hstop hle ih =>
    have hstop' := hrun ⟨before, x :: r⟩
    simp only [hstop, Cursor.toFeeds, List.map_cons, Option.map_some] at hstop' ih ⊢
    rw [replaceIn, hstop', ih]
    simp [hle]

theorem replaceAll_toFeeds {p : Pattern} (hp : p.BreakBlind) {new : List Char} (hnew : new.map toFeed = new)
    (s : List Char) : p.replaceAll new (s.map toFeed) = (p.replaceAll new s).map toFeed :=
  replaceIn_toFeeds hp hnew [] s

/-! ## Building blocks -/

theorem breakBlind_text {s : List Char} (h : '\r' ∉ s ∧ '\n' ∉ s) : (text s).BreakBlind := by
  induction s with
  | nil => trivial
  | cons c s ih =>
    simp only [List.mem_cons, not_or] at h
    have hreturn : ('\r' == c) = false := by simpa using h.1.1
    have hfeed : ('\n' == c) = false := by simpa using h.2.1
    exact ⟨hreturn.trans hfeed.symm, ih ⟨h.1.2, h.2.2⟩⟩

theorem breakBlind_gap : gap.BreakBlind := (by decide : isBlank '\r' = isBlank '\n')

theorem breakBlind_gap1 : gap1.BreakBlind := ⟨breakBlind_gap, breakBlind_gap⟩

end Pattern

end ClassAtlas.Text
