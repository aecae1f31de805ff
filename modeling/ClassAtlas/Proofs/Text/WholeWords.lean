/-
Patterns for whole words, and all their matches in a text.

- `TakesWords`: a pattern takes words of some kind, each with no word character next to it, and nothing else.
- `scan_skip`: a search goes on behind a part of the text in which nothing starts.
- `matchesIn_words`: the matches of such a pattern, from left to right, are the words of this kind in the reading of the
  text word by word, in the same order and as often. None is found twice and none inside another word.
-/
import ClassAtlas.Proofs.Text.Matching
import ClassAtlas.Proofs.Text.WordRuns

namespace ClassAtlas.Text

namespace Pattern

/-! ## A search that finds nothing for a while -/

section

variable {α : Type} {attempt : Cursor → Option (α × Cursor)}

theorem scan_cons_of_none {before r : List Char} {x : Char} (h : attempt ⟨before, x :: r⟩ = none) :
    scan attempt before (x :: r) = scan attempt (x :: before) r := by
  rw [scan, h]

theorem scan_skip {before u r : List Char}
    (h : ∀ v x w, u = v ++ x :: w → attempt ⟨v.reverse ++ before, x :: w ++ r⟩ = none) :
    scan attempt before (u ++ r) = scan attempt (u.reverse ++ before) r := by
  induction u generalizing before with
  | nil => rfl
  | cons x u ih =>
    have hfirst : attempt ⟨before, x :: (u ++ r)⟩ = none := h [] x u rfl
    have hrest : scan attempt (x :: before) (u ++ r) = scan attempt (u.reverse ++ x :: before) r := by
      apply ih
      intro v y w hu
      simpa using h (x :: v) y w (by rw [hu]; rfl)
    rw [List.cons_append, scan_cons_of_none hfirst, hrest]
    simp

theorem scan_of_some {before after u : List Char} {a : α} {stop : Cursor} (h : attempt ⟨before, after⟩ = some (a, stop))
    (hu : u ≠ []) (htakes : Cursor.Takes ⟨before, after⟩ u stop) :
    scan attempt before after = a :: scan attempt stop.before stop.after := by
  have hlen : after.length = u.length + stop.after.length := by
    have hafter : after = u ++ stop.after := htakes.after
    rw [hafter, List.length_append]
  have hpos := List.length_pos_iff.2 hu
  cases after with
  | nil =>
    rw [List.length_nil] at hlen
    omega
  | cons x r =>
    rw [List.length_cons] at hlen
    rw [scan, h]
    exact if_pos (by omega)

end

/-! ## Whole words -/

/-- the pattern takes the words of a kind, with no word character next to them -/
def TakesWords (p : Pattern) (kind : List Char → Bool) : Prop :=
  ∀ c d, d ∈ p.ends c ↔ ∃ w, IsRun w ∧ kind w = true ∧ c.Takes w d ∧ c.before.head?.any isWord = false ∧
    d.after.head?.any isWord = false

section

variable {p : Pattern} {kind : List Char → Bool} {before r w : List Char}

/-- nothing starts where no word does -/
theorem TakesWords.ends_eq_nil (hp : p.TakesWords kind) {c : Cursor}
    (h : c.before.head?.any isWord = true ∨ c.after.head?.any isWord = false) : p.ends c = [] := by
  rw [List.eq_nil_iff_forall_not_mem]
  intro d hd
  obtain ⟨w, hw, -, htakes, hleft, -⟩ := (hp c d).1 hd
  rcases h with h | h
  · rw [h] at hleft
    cases hleft
  · rw [htakes.after, hw.head?_any] at h
    cases h

/-- where a word starts, this word is found or nothing -/
theorem TakesWords.ends_word (hp : p.TakesWords kind) (hw : IsRun w) (hleft : before.head?.any isWord = false)
    (hright : r.head?.any isWord = false) {d : Cursor} :
    d ∈ p.ends ⟨before, w ++ r⟩ ↔ kind w = true ∧ d = ⟨w.reverse ++ before, r⟩ := by
  rw [hp]
  constructor
  · rintro ⟨v, hv, hkind, htakes, -, hend⟩
    obtain ⟨rfl, -⟩ := append_inj_of_class hw.2 hv.2 hright hend htakes.after
    exact ⟨hkind, htakes.unique ⟨rfl, rfl⟩⟩
  · rintro ⟨hkind, rfl⟩
    exact ⟨w, hw, hkind, ⟨rfl, rfl⟩, hleft, hright⟩

/-- the match from a place on, by its start and end -/
def matchFrom (p : Pattern) (c : Cursor) : Option ((Cursor × Cursor) × Cursor) := p.run (fun d => some ((c, d), d)) c

/-- the search for matches from a place on, with the text of each -/
def wordsFrom (p : Pattern) (before after : List Char) : List (List Char) :=
  (scan p.matchFrom before after).map fun m => m.1.upTo m.2

theorem TakesWords.wordsFrom_gap (hp : p.TakesWords kind) {g : List Char} (hg : ∀ c ∈ g, isWord c = false) :
    wordsFrom p before (g ++ r) = wordsFrom p (g.reverse ++ before) r := by
  rw [wordsFrom, scan_skip, wordsFrom]
  intro v x w hu
  have hx : isWord x = false := hg x (by simp [hu])
  rw [matchFrom, run_eq_none_iff, hp.ends_eq_nil (Or.inr (by simpa using hx))]
  simp

theorem TakesWords.wordsFrom_word (hp : p.TakesWords kind) (hw : IsRun w) (hleft : before.head?.any isWord = false)
    (hright : r.head?.any isWord = false) :
    wordsFrom p before (w ++ r) = [w].filter kind ++ wordsFrom p (w.reverse ++ before) r := by
  have hends : ∀ {d}, d ∈ p.ends ⟨before, w ++ r⟩ ↔ kind w = true ∧ d = ⟨w.reverse ++ before, r⟩ :=
    hp.ends_word hw hleft hright
  by_cases hkind : kind w = true
  · -- the word is found, and the search goes on behind it
    have htakes : Cursor.Takes ⟨before, w ++ r⟩ w ⟨w.reverse ++ before, r⟩ := ⟨rfl, rfl⟩
    have hfound : p.matchFrom ⟨before, w ++ r⟩ =
        some ((⟨before, w ++ r⟩, ⟨w.reverse ++ before, r⟩), ⟨w.reverse ++ before, r⟩) := by
      refine run_eq_some (hends.2 ⟨hkind, rfl⟩) rfl ?_
      intro e he b hb
      rw [← Option.some.inj hb, (hends.1 he).2]
    rw [wordsFrom, scan_of_some hfound hw.1 htakes, List.map_cons, htakes.upTo]
    simp [hkind, wordsFrom]
  · -- nothing starts with the word, and nothing inside it
    rw [wordsFrom, scan_skip, wordsFrom]
    · simp [hkind]
    · intro v x t hu
      rw [matchFrom, run_eq_none_iff]
      intro d hd
      exfalso
      by_cases hv : v = []
      · subst hv
        have hd' : d ∈ p.ends ⟨before, w ++ r⟩ := by
          rw [hu]
          exact hd
        exact hkind (hends.1 hd').1
      · have hrun : IsRun v := ⟨hv, fun c hc => hw.2 c (by simp [hu, hc])⟩
        rw [hp.ends_eq_nil (Or.inl (hrun.reverse.head?_any before))] at hd
        cases hd

/-- **Matches of whole words.** From a place that is not inside a word, the words found are those of the kind in the
reading of the text that follows. -/
theorem TakesWords.wordsFrom_eq (hp : p.TakesWords kind) {before after : List Char}
    (hplace : before.head?.any isWord = true → after.head?.any isWord = false) :
    wordsFrom p before after = (wordRuns after).filter kind := by
  unfold wordRuns
  generalize hread : readWords after = l
  induction l generalizing before after with
  | nil =>
    rw [← List.append_nil after, hp.wordsFrom_gap (readWords_eq_nil hread)]
    simp [wordsFrom, scan]
  | cons gw l ih =>
    obtain ⟨g, w⟩ := gw
    obtain ⟨rest, rfl, hg, hw, hrest, hl⟩ := readWords_eq_cons hread
    have hleft : (g.reverse ++ before).head?.any isWord = false := by
      cases g with
      | nil =>
        by_contra hword
        have hfirst := hplace (by simpa using hword)
        rw [List.nil_append, hw.head?_any] at hfirst
        cases hfirst
      | cons c g =>
        obtain ⟨x, t, hx⟩ := List.exists_cons_of_ne_nil (l := (c :: g).reverse) (by simp)
        have hmem : x ∈ c :: g := by
          rw [← List.mem_reverse, hx]
          exact List.mem_cons_self
        rw [hx]
        simpa using hg x hmem
    calc wordsFrom p before (g ++ (w ++ rest)) = wordsFrom p (g.reverse ++ before) (w ++ rest) := hp.wordsFrom_gap hg
      _ = [w].filter kind ++ wordsFrom p (w.reverse ++ (g.reverse ++ before)) rest := hp.wordsFrom_word hw hleft hrest
      _ = [w].filter kind ++ (l.map Prod.snd).filter kind := by rw [ih (fun _ => hrest) hl]
      _ = (((g, w) :: l).map Prod.snd).filter kind := by rw [← List.filter_append]; rfl

theorem TakesWords.matchesIn_words (hp : p.TakesWords kind) (s : List Char) :
    (p.matchesIn s).map (fun m => m.1.upTo m.2) = (wordRuns s).filter kind :=
  hp.wordsFrom_eq (by simp)

end

end Pattern

end ClassAtlas.Text
