/-
The type names found on a line, told by the words of the line.

- `mem_occurrencesOn_iff`: the occurrences found on a line are the capitalised identifiers that stand alone on it.
- `mem_createdOn_iff`: the names found to be created are those that follow the word `new`.

Both patterns hold at word boundaries only, and no boundary lies inside a word. So a match ends in one way only and no
other match starts inside it, and the search from left to right loses none.
-/
import ClassAtlas.Proofs.Text.Matching
import ClassAtlas.Proofs.Text.WordRuns
import ClassAtlas.Source.Uses

namespace ClassAtlas.Source

open ClassAtlas.Text ClassAtlas.Text.Pattern

/-! ## Boundaries -/

section

variable {before after w s u : List Char} {c d : Cursor}

theorem atBoundary_before_run (hw : IsRun w) :
    Cursor.atBoundary ⟨before, w ++ after⟩ = true ↔ before.head?.any isWord = false := by
  rw [Cursor.atBoundary, hw.head?_any]
  simp

theorem atBoundary_after_run (hw : IsRun w) :
    Cursor.atBoundary ⟨w.reverse ++ before, after⟩ = true ↔ after.head?.any isWord = false := by
  rw [Cursor.atBoundary, hw.reverse.head?_any]
  simp

/-- there is a word character before a place to which a word has led -/
theorem any_before_of_takes {r : List Char} (h : c.Takes (u ++ r) d) (hr : IsRun r) :
    d.before.head?.any isWord = true := by
  rw [h.before, List.reverse_append, List.append_assoc, hr.reverse.head?_any]

/-- a part of a text that a cursor takes with no word character next to it -/
theorem standsAlone_iff : StandsAlone s before u after ↔
    ∃ c d : Cursor, c.text = s ∧ c.Takes u d ∧ c.before.reverse = before ∧ d.after = after ∧
      c.before.head?.any isWord = false ∧ d.after.head?.any isWord = false := by
  constructor
  · rintro ⟨rfl, hleft, hright⟩
    refine ⟨⟨before.reverse, u ++ after⟩, ⟨u.reverse ++ before.reverse, after⟩, ?_, ⟨rfl, rfl⟩, ?_, rfl, ?_, hright⟩
    · simp [Cursor.text]
    · simp
    · simpa using hleft
  · rintro ⟨c, d, rfl, h, rfl, rfl, hleft, hright⟩
    refine ⟨?_, by simpa using hleft, hright⟩
    rw [Cursor.text, h.after]

end

/-! ## Type names as whole words -/

section

variable {c d : Cursor} {line n : List Char}

theorem mem_ends_typeWord : d ∈ typeWord.ends c ↔
    ∃ u, IsIdentifier u ∧ c.Takes u d ∧ c.before.head?.any isWord = false ∧ d.after.head?.any isWord = false := by
  rw [mem_ends_iff, typeWord]
  simp only [spans_all_cons, spans_all_nil, spans_typeName, spans_boundary]
  constructor
  · rintro ⟨u, htakes, v, w, rfl, ⟨hleft, rfl⟩, n, w', rfl, hn, v', w, rfl, ⟨hright, rfl⟩, rfl⟩
    simp only [List.nil_append, List.append_nil] at *
    have hrun := isRun_of_isIdentifier hn
    exact ⟨n, hn, htakes, (atBoundary_before_run hrun).1 hleft, (atBoundary_after_run hrun).1 hright⟩
  · rintro ⟨u, hu, htakes, hleft, hright⟩
    have hrun := isRun_of_isIdentifier hu
    refine ⟨u, htakes, [], u, rfl, ⟨?_, rfl⟩, u, [], by simp, hu, [], [], rfl, ⟨?_, rfl⟩, rfl⟩
    · exact (atBoundary_before_run hrun).2 hleft
    · exact (atBoundary_after_run hrun).2 hright

theorem typeWord_definite : typeWord.Definite := by
  intro c d e hd he
  obtain ⟨u, hu, htakes, -, hright⟩ := mem_ends_typeWord.1 hd
  obtain ⟨v, hv, htakes', -, hright'⟩ := mem_ends_typeWord.1 he
  obtain ⟨rfl, -⟩ := append_inj_of_class (isRun_of_isIdentifier hu).2 (isRun_of_isIdentifier hv).2 hright hright'
    (htakes.after.symm.trans htakes'.after)
  exact htakes.unique htakes'

theorem typeWord_apart : Apart fun c (x : Cursor × Cursor) stop => x = (c, stop) ∧ stop ∈ typeWord.ends c where
  takes := by
    rintro c x stop ⟨-, hstop⟩
    obtain ⟨u, hu, htakes, -⟩ := mem_ends_typeWord.1 hstop
    exact ⟨u, (isRun_of_isIdentifier hu).1, htakes⟩
  inside := by
    rintro c d x y stop stop' u v ⟨-, hstop⟩ hu hv hne - ⟨-, hinside⟩
    obtain ⟨n, hn, htakes, -⟩ := mem_ends_typeWord.1 hstop
    obtain ⟨-, -, -, hleft, -⟩ := mem_ends_typeWord.1 hinside
    obtain rfl := htakes.eq_of_same_end (Cursor.takes_append_iff.2 ⟨d, hu, hv⟩)
    -- the character before the place is one of the name
    have hrun : IsRun u := ⟨hne, fun x hx => (isRun_of_isIdentifier hn).2 x (List.mem_append_left v hx)⟩
    rw [any_before_of_takes (u := []) hu hrun] at hleft
    cases hleft

/-- **Occurrences.** Those found on a line are the capitalised identifiers that stand alone on it. -/
theorem mem_occurrencesOn_iff {o : Occurrence} : o ∈ occurrencesOn line ↔
    StandsAlone line o.before.reverse o.name o.after ∧ IsIdentifier o.name := by
  simp only [occurrencesOn, List.mem_map, Prod.exists, mem_matchesIn_iff typeWord_definite typeWord_apart,
    mem_ends_typeWord, standsAlone_iff]
  constructor
  · rintro ⟨c, d, ⟨htext, u, hu, htakes, hleft, hright⟩, rfl⟩
    rw [htakes.upTo]
    exact ⟨⟨c, d, htext, htakes, rfl, rfl, hleft, hright⟩, hu⟩
  · rintro ⟨⟨c, d, htext, htakes, hbefore, hafter, hleft, hright⟩, hname⟩
    refine ⟨c, d, ⟨htext, o.name, hname, htakes, hleft, hright⟩, ?_⟩
    rw [htakes.upTo, List.reverse_injective hbefore, hafter]

end

/-! ## Names after a keyword -/

section

variable {k : List Char} {c d stop : Cursor} {line n : List Char}

/-- a name after a keyword, from the start of the keyword on -/
theorem capturesAt_keyword_iff (hk : IsRun k) :
    CapturesAt (.all [.boundary, .text k, .gap1]) typeName .boundary c n stop ↔
    IsIdentifier n ∧ ∃ g, IsGap g ∧ c.Takes (k ++ (g ++ n)) stop ∧ c.before.head?.any isWord = false ∧
      stop.after.head?.any isWord = false := by
  simp only [CapturesAt, mem_ends_iff, spans_all_cons, spans_all_nil, spans_typeName, spans_gap1, spans_text,
    spans_boundary]
  constructor
  · rintro ⟨d, ⟨u, hu, v, w, rfl, ⟨hleft, rfl⟩, v, w', rfl, rfl, g, w, rfl, hg, rfl⟩, e, ⟨m, hm, hname⟩,
      ⟨x, hx, hright, rfl⟩, rfl⟩
    obtain rfl := Cursor.takes_nil_iff.1 hx
    rw [hm.upTo]
    simp only [List.nil_append, List.append_nil, List.append_assoc] at hu hleft
    refine ⟨hname, g, hg, ?_, (atBoundary_before_run hk).1 hleft, ?_⟩
    · rw [← List.append_assoc]
      exact Cursor.takes_append_iff.2 ⟨d, hu, hm⟩
    · rw [hm.before] at hright
      exact (atBoundary_after_run (isRun_of_isIdentifier hname)).1 hright
  · rintro ⟨hname, g, hg, htakes, hleft, hright⟩
    rw [← List.append_assoc] at htakes
    obtain ⟨d, hd, hn⟩ := Cursor.takes_append_iff.1 htakes
    refine ⟨d, ⟨k ++ g, hd, [], k ++ g, rfl, ⟨?_, rfl⟩, k, g, rfl, rfl, g, [], by simp, hg, rfl⟩, stop,
      ⟨n, hn, hname⟩, ⟨[], Cursor.takes_nil_iff.2 rfl, ?_, rfl⟩, hn.upTo⟩
    · rw [List.append_assoc]
      exact (atBoundary_before_run hk).2 hleft
    · rw [hn.before]
      exact (atBoundary_after_run (isRun_of_isIdentifier hname)).2 hright

theorem any_isBlank_of_isIdentifier (hn : IsIdentifier n) (s : List Char) : (n ++ s).head?.any isBlank = false := by
  obtain ⟨hne, hword⟩ := isWord_of_isIdentifier hn
  obtain ⟨x, r, rfl⟩ := List.exists_cons_of_ne_nil hne
  simpa using hword x List.mem_cons_self

/-- the white space after a keyword and the name after it go as far as they can -/
theorem keyword_definite (hk : IsRun k) {m : List Char} {stop' : Cursor}
    (h : CapturesAt (.all [.boundary, .text k, .gap1]) typeName .boundary c n stop)
    (h' : CapturesAt (.all [.boundary, .text k, .gap1]) typeName .boundary c m stop') : m = n ∧ stop' = stop := by
  obtain ⟨hn, g, hg, htakes, -, hright⟩ := (capturesAt_keyword_iff hk).1 h
  obtain ⟨hm, g', hg', htakes', -, hright'⟩ := (capturesAt_keyword_iff hk).1 h'
  have htext : g' ++ (m ++ stop'.after) = g ++ (n ++ stop.after) := by
    have hafter := htakes'.after.symm.trans htakes.after
    simpa only [List.append_assoc, List.append_cancel_left_eq] using hafter
  obtain ⟨rfl, hname⟩ := append_inj_of_class hg'.2 hg.2 (any_isBlank_of_isIdentifier hm _)
    (any_isBlank_of_isIdentifier hn _) htext
  obtain ⟨rfl, -⟩ := append_inj_of_class (isRun_of_isIdentifier hm).2 (isRun_of_isIdentifier hn).2 hright' hright hname
  exact ⟨rfl, htakes'.unique htakes⟩

/-- A keyword that is not capitalised does not start inside a match: not inside a word, and neither white space nor a
name starts like it. -/
theorem keyword_not_inside (hk : IsRun k) (hlow : k.head?.any isUpperAscii = false) (hn : IsIdentifier n)
    {g u v : List Char} (hg : IsGap g) (htext : u ++ v = k ++ (g ++ n)) (hne : u ≠ []) (hfirst : v.head? = k.head?)
    (hnoRun : ∀ {x r : List Char}, u = x ++ r → ¬ IsRun r) : False := by
  have hnotName : v ≠ n := by
    rintro rfl
    obtain ⟨x, r, rfl, hx, -⟩ := hn
    rw [← hfirst, List.head?_cons, Option.any_some, hx] at hlow
    cases hlow
  rcases List.append_eq_append_iff.1 htext with ⟨a, rfl, -⟩ | ⟨a, rfl, hrest⟩
  · exact hnoRun (x := []) rfl ⟨hne, fun x hx => hk.2 x (List.mem_append_left a hx)⟩
  · rcases List.append_eq_append_iff.1 hrest with ⟨b, rfl, rfl⟩ | ⟨b, rfl, rfl⟩
    · -- inside the name
      by_cases hb : b = []
      · subst hb
        exact hnotName rfl
      · refine hnoRun (x := k ++ g) (r := b) (by simp) ⟨hb, ?_⟩
        intro x hx
        exact (isRun_of_isIdentifier hn).2 x (List.mem_append_left v hx)
    · -- inside the white space
      cases b with
      | nil => exact hnotName rfl
      | cons x b =>
        have hblank : isBlank x = true := hg.2 x (by simp)
        have hword : isWord x = true := hk.2 x (List.mem_of_mem_head? hfirst.symm)
        rw [isWord_eq_false_of_isBlank hblank] at hword
        cases hword

theorem keyword_apart (hk : IsRun k) (hlow : k.head?.any isUpperAscii = false) :
    Apart (CapturesAt (.all [.boundary, .text k, .gap1]) typeName .boundary) where
  takes := by
    intro c n stop h
    obtain ⟨-, g, -, htakes, -⟩ := (capturesAt_keyword_iff hk).1 h
    exact ⟨_, by simp [hk.1], htakes⟩
  inside := by
    intro c d n m stop stop' u v h hu hv hune hvne hinside
    obtain ⟨hn, g, hg, htakes, -⟩ := (capturesAt_keyword_iff hk).1 h
    obtain ⟨-, g', -, htakes', hleft, -⟩ := (capturesAt_keyword_iff hk).1 hinside
    have htext : u ++ v = k ++ (g ++ n) := (Cursor.takes_append_iff.2 ⟨d, hu, hv⟩).eq_of_same_end htakes
    have hfirst : v.head? = k.head? := by
      have hafter : v ++ stop.after = k ++ (g' ++ m) ++ stop'.after := hv.after.symm.trans htakes'.after
      obtain ⟨x, v, rfl⟩ := List.exists_cons_of_ne_nil hvne
      obtain ⟨y, k, rfl⟩ := List.exists_cons_of_ne_nil hk.1
      simp only [List.cons_append, List.cons.injEq] at hafter
      simp [hafter.1]
    refine keyword_not_inside hk hlow hn hg htext hune hfirst ?_
    rintro x r rfl hr
    rw [any_before_of_takes hu hr] at hleft
    cases hleft

/-- the names captured after a keyword are those that follow it as a word -/
theorem mem_captures_keyword_iff (hk : IsRun k) (hlow : k.head?.any isUpperAscii = false) :
    n ∈ captures (.all [.boundary, .text k, .gap1]) typeName .boundary line ↔ IsIdentifier n ∧ InRow line k [n] := by
  rw [mem_captures_iff (keyword_definite hk) (keyword_apart hk hlow)]
  simp only [capturesAt_keyword_iff hk]
  have hruns : IsIdentifier n → ∀ v ∈ [k, n], IsRun v := by
    intro hn
    simp [hk, isRun_of_isIdentifier hn]
  constructor
  · rintro ⟨c, stop, htext, hn, g, hg, htakes, hleft, hright⟩
    have halone := standsAlone_iff.2 ⟨c, stop, htext, htakes, rfl, rfl, hleft, hright⟩
    exact ⟨hn, (inRow_iff (hruns hn)).2 ⟨_, _, _, halone, .next hg (.last n)⟩⟩
  · rintro ⟨hn, hrow⟩
    obtain ⟨before, u, after, halone, hu⟩ := (inRow_iff (hruns hn)).1 hrow
    obtain ⟨g, u', hg, rfl, hu'⟩ := row_cons_iff.1 hu
    obtain rfl := row_nil_iff.1 hu'
    obtain ⟨c, stop, htext, htakes, -, -, hleft, hright⟩ := standsAlone_iff.1 halone
    exact ⟨c, stop, htext, hn, g, hg, htakes, hleft, hright⟩

/-- **Created names.** Those found on a line are the capitalised identifiers that follow the word `new`. -/
theorem mem_createdOn_iff : n ∈ createdOn line ↔ IsIdentifier n ∧ InRow line "new".toList [n] :=
  mem_captures_keyword_iff (isRun_of_all (by decide)) (by decide)

end

end ClassAtlas.Source
