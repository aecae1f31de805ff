/-
Every capitalised identifier of a file is classified, once on each line, by its strongest use there.

- `FieldTail`, `SignatureTail`, `OpensBefore`: what stands around the type of a field, a return type or constructor, the
  type of a first parameter. `startsText_fieldTail`, `startsText_signatureTail` and `afterParenthesis_iff`: the patterns
  find exactly this, whatever the run they try first.
- `UsedAs`: how a line uses a name, over all places where the name stands on it. `decides_strongest`: the strongest use
  of the occurrences, one by one, is the use by the line. `filter_usesOn`: a line puts each name once.
- `uses_classified`: for every file, the four sets of names are the unions over its lines of what each line puts there,
  and together they are the identifiers of the text other than the class's own name.
-/
import ClassAtlas.Proofs.Source.TypeWords
import ClassAtlas.Source.Reader

namespace ClassAtlas.Source

open ClassAtlas.Text ClassAtlas.Text.Pattern ClassAtlas.Collect

/-! ## What stands around a name -/

/-- the name of a field or method: a letter, `_` or `$`, then also digits -/
def IsMember (v : List Char) : Prop := ∃ x r, v = x :: r ∧ isMemberStart x = true ∧ ∀ y ∈ r, isMemberChar y = true

/-- type arguments in angle brackets, white space before them or not -/
def IsArguments (a : List Char) : Prop :=
  ∃ g s, a = g ++ '<' :: (s ++ ['>']) ∧ (∀ c ∈ g, isBlank c = true) ∧
    ∀ c ∈ s, c ≠ '=' ∧ c ≠ ';' ∧ c ≠ '(' ∧ c ≠ ')'

/-- what follows the type of a field: type arguments or none, brackets, white space, the field's name, `=` or `;` -/
def FieldTail (s : List Char) : Prop :=
  ∃ a b x v g y rest, s = a ++ (b ++ x :: (v ++ (g ++ y :: rest))) ∧ (a = [] ∨ IsArguments a) ∧
    (∀ c ∈ b, c = '[' ∨ c = ']' ∨ c = '>' ∨ isBlank c = true) ∧ isBlank x = true ∧ IsMember v ∧
    (∀ c ∈ g, isBlank c = true) ∧ (y = '=' ∨ y = ';')

/-- what follows a return type or a constructor's name: a name or none, then an opening parenthesis -/
def SignatureTail (s : List Char) : Prop :=
  ∃ a g rest, s = a ++ (g ++ '(' :: rest) ∧ (a = [] ∨ ∃ h v, a = h ++ v ∧ IsGap h ∧ IsMember v) ∧
    ∀ c ∈ g, isBlank c = true

/-- an opening parenthesis stands last, white space aside -/
def OpensBefore (s : List Char) : Prop := ∃ b g, s = b ++ '(' :: g ∧ ∀ c ∈ g, isBlank c = true

section

variable {before u after s : List Char}

theorem spans_memberName : memberName.Spans before u after ↔ IsMember u := spans_char_many

/-- the part of the pattern for fields that is optional -/
def arguments : Pattern :=
  .all [.gap, .char (· == '<'), .many fun c => !(c == '=' || c == ';' || c == '(' || c == ')'), .char (· == '>')]

theorem spans_arguments : arguments.Spans before u after ↔ IsArguments u := by
  simp only [arguments, spans_all_cons, spans_all_nil, spans_gap, spans_char, spans_many, IsArguments, beq_iff_eq]
  constructor
  · rintro ⟨g, w, rfl, hg, v, w', rfl, ⟨x, rfl, rfl⟩, t, w, rfl, ht, v, w', rfl, ⟨y, rfl, rfl⟩, rfl⟩
    exact ⟨g, t, by simp, hg, by simpa [and_assoc] using ht⟩
  · rintro ⟨g, t, rfl, hg, ht⟩
    refine ⟨g, '<' :: (t ++ ['>']), rfl, hg, ['<'], t ++ ['>'], rfl, ⟨'<', rfl, rfl⟩, t, ['>'], rfl, ?_, ['>'], [], rfl,
      ⟨'>', rfl, rfl⟩, rfl⟩
    simpa [and_assoc] using ht

theorem fieldTail_eq : fieldTail = .all [.optional arguments,
    .many fun c => c == '[' || c == ']' || c == '>' || isBlank c, .char isBlank, .memberName, .gap,
    .char fun c => c == '=' || c == ';'] := rfl

theorem startsText_fieldTail : fieldTail.startsText s = true ↔ FieldTail s := by
  rw [startsText_iff, fieldTail_eq]
  simp only [spans_all_cons, spans_all_nil, spans_optional, spans_arguments, spans_many, spans_char, spans_memberName,
    spans_gap, Bool.or_eq_true, beq_iff_eq, or_assoc]
  constructor
  · rintro ⟨u, after, rfl, a, w, rfl, ha, b, w', rfl, hb, x', w, rfl, ⟨x, hx, rfl⟩, v, w', rfl, hv, g, w, rfl, hg, y',
      w', rfl, ⟨y, hy, rfl⟩, rfl⟩
    exact ⟨a, b, x, v, g, y, after, by simp, ha.symm, hb, hx, hv, hg, hy⟩
  · rintro ⟨a, b, x, v, g, y, rest, rfl, ha, hb, hx, hv, hg, hy⟩
    exact ⟨a ++ (b ++ x :: (v ++ (g ++ [y]))), rest, by simp, a, b ++ x :: (v ++ (g ++ [y])), rfl, ha.symm, b,
      x :: (v ++ (g ++ [y])), rfl, hb, [x], v ++ (g ++ [y]), rfl, ⟨x, hx, rfl⟩, v, g ++ [y], rfl, hv, g, [y], rfl, hg,
      [y], [], rfl, ⟨y, hy, rfl⟩, rfl⟩

theorem startsText_signatureTail : signatureTail.startsText s = true ↔ SignatureTail s := by
  rw [startsText_iff, signatureTail]
  simp only [spans_all_cons, spans_all_nil, spans_optional, spans_seq, spans_gap1, spans_memberName, spans_gap,
    spans_char, beq_iff_eq]
  constructor
  · rintro ⟨u, after, rfl, a, w, rfl, ha, g, w', rfl, hg, x', w, rfl, ⟨x, rfl, rfl⟩, rfl⟩
    exact ⟨a, g, after, by simp, ha.symm, hg⟩
  · rintro ⟨a, g, rest, rfl, ha, hg⟩
    exact ⟨a ++ (g ++ ['(']), rest, by simp, a, g ++ ['('], rfl, ha.symm, g, ['('], rfl, hg, ['('], [], rfl,
      ⟨'(', rfl, rfl⟩, rfl⟩

theorem afterParenthesis_iff {o : Occurrence} : o.afterParenthesis = true ↔ OpensBefore o.before.reverse := by
  rw [Occurrence.afterParenthesis, beq_iff_eq]
  constructor
  · intro h
    obtain ⟨r, hr⟩ : ∃ r, o.before.dropWhile isBlank = '(' :: r := by
      cases hd : o.before.dropWhile isBlank with
      | nil => simp [hd] at h
      | cons x r => exact ⟨r, by rw [hd] at h; simpa using h⟩
    refine ⟨r.reverse, (o.before.takeWhile isBlank).reverse, ?_, ?_⟩
    · have hsplit : o.before.takeWhile isBlank ++ '(' :: r = o.before := by
        rw [← hr, List.takeWhile_append_dropWhile]
      calc o.before.reverse = (o.before.takeWhile isBlank ++ '(' :: r).reverse := by rw [hsplit]
        _ = r.reverse ++ '(' :: (o.before.takeWhile isBlank).reverse := by simp
    · intro c hc
      exact List.mem_takeWhile_imp (List.mem_reverse.1 hc)
  · rintro ⟨b, g, htext, hg⟩
    have hbefore : o.before = g.reverse ++ '(' :: b.reverse := by
      rw [← List.reverse_reverse o.before, htext]
      simp
    have hblank : ∀ c ∈ g.reverse, isBlank c = true := fun c hc => hg c (List.mem_reverse.1 hc)
    rw [hbefore, List.dropWhile_append_of_pos hblank]
    rfl

end

/-! ## The strongest use -/

namespace Use

theorem max_eq_or (u v : Use) : max u v = u ∨ max u v = v := by
  unfold max
  split
  · exact Or.inr rfl
  · exact Or.inl rfl

theorem rank_max_le (u v : Use) : (max u v).rank ≤ u.rank ∧ (max u v).rank ≤ v.rank := by
  unfold max
  split <;> omega

theorem foldl_max_mem (us : List Use) (u : Use) : us.foldl max u ∈ u :: us := by
  induction us generalizing u with
  | nil => exact List.mem_cons_self
  | cons v us ih =>
    rcases max_eq_or u v with h | h
    · have hmem := ih u
      rw [List.foldl_cons, h]
      simp only [List.mem_cons] at hmem ⊢
      tauto
    · have hmem := ih v
      rw [List.foldl_cons, h]
      exact List.mem_cons_of_mem u hmem

theorem rank_foldl_max_le (us : List Use) (u : Use) : ∀ v ∈ u :: us, (us.foldl max u).rank ≤ v.rank := by
  induction us generalizing u with
  | nil => simp
  | cons w us ih =>
    intro v hv
    have hmax := rank_max_le u w
    have hle := ih (max u w) (max u w) List.mem_cons_self
    rw [List.foldl_cons]
    simp only [List.mem_cons] at hv
    rcases hv with rfl | rfl | hv
    · omega
    · omega
    · exact ih (max u w) v (List.mem_cons_of_mem _ hv)

theorem rank_strongest_le {us : List Use} {u : Use} (h : u ∈ us) : (strongest us).rank ≤ u.rank :=
  rank_foldl_max_le us .association u (List.mem_cons_of_mem _ h)

theorem eq_association_of_rank {u : Use} (h : 3 ≤ u.rank) : u = .association := by
  cases u <;> simp [rank] at h ⊢

theorem strongest_mem {us : List Use} (h : us ≠ []) : strongest us ∈ us := by
  rcases List.mem_cons.1 (foldl_max_mem us .association) with heq | hmem
  · -- the weakest use of all is the strongest only if there is no other
    obtain ⟨u, l, rfl⟩ := List.exists_cons_of_ne_nil h
    have hle : (strongest (u :: l)).rank ≤ u.rank := rank_strongest_le List.mem_cons_self
    rw [strongest, heq] at hle ⊢
    rw [eq_association_of_rank hle]
    exact List.mem_cons_self
  · exact hmem

/-- a name is created, or else held, or else taken, or else mentioned -/
def Decides (creates held taken : Prop) : Use → Prop
  | .composition => creates
  | .aggregation => ¬ creates ∧ held
  | .dependency => ¬ creates ∧ ¬ held ∧ taken
  | .association => ¬ creates ∧ ¬ held ∧ ¬ taken

theorem Decides.unique {creates held taken : Prop} {u v : Use} (hu : u.Decides creates held taken)
    (hv : v.Decides creates held taken) : u = v := by
  cases u <;> cases v <;> simp_all [Decides]

/-- the strongest use decides for all occurrences together what each use decides for one -/
theorem decides_strongest {α : Type} {creates : Prop} {held taken : α → Prop} {use : α → Use} {l : List α}
    (hne : l ≠ []) (h : ∀ a ∈ l, (use a).Decides creates (held a) (taken a)) :
    (strongest (l.map use)).Decides creates (∃ a ∈ l, held a) (∃ a ∈ l, taken a) := by
  have hmem : strongest (l.map use) ∈ l.map use := strongest_mem (by simpa using hne)
  obtain ⟨a, ha, huse⟩ := List.mem_map.1 hmem
  have hleast : ∀ b ∈ l, (use a).rank ≤ (use b).rank := by
    intro b hb
    rw [huse]
    exact rank_strongest_le (List.mem_map_of_mem hb)
  have hself := h a ha
  -- an occurrence that shows a stronger use would have a lower rank
  have hheld : ¬ creates → (∃ b ∈ l, held b) → (use a).rank ≤ 1 := by
    rintro hno ⟨b, hb, hb'⟩
    apply (hleast b hb).trans
    have hdecides := h b hb
    cases hu : use b <;> simp_all [Decides, rank]
  have htaken : ¬ creates → (∃ b ∈ l, taken b) → (use a).rank ≤ 2 := by
    rintro hno ⟨b, hb, hb'⟩
    apply (hleast b hb).trans
    have hdecides := h b hb
    cases hu : use b <;> simp_all [Decides, rank]
  rw [← huse]
  cases hu : use a with
  | composition =>
    rw [hu] at hself
    exact hself
  | aggregation =>
    rw [hu] at hself
    exact ⟨hself.1, a, ha, hself.2⟩
  | dependency =>
    rw [hu] at hself hheld
    exact ⟨hself.1, fun hex => absurd (hheld hself.1 hex) (by decide), a, ha, hself.2.2⟩
  | association =>
    rw [hu] at hself hheld htaken
    exact ⟨hself.1, fun hex => absurd (hheld hself.1 hex) (by decide),
      fun hex => absurd (htaken hself.1 hex) (by decide)⟩

end Use

/-! ## A line -/

section

variable {line n : List Char}

/-- the name follows the word `new` on the line -/
def Creates (line n : List Char) : Prop := InRow line "new".toList [n]

/-- the name stands where the type of a field stands -/
def Holds (line n : List Char) : Prop := ∃ before after, StandsAlone line before n after ∧ FieldTail after

/-- the name stands where a return type, a constructor's name or a parameter's type stands -/
def TakesOrGives (line n : List Char) : Prop :=
  ∃ before after, StandsAlone line before n after ∧ (SignatureTail after ∨ OpensBefore before)

/-- how a line uses a name that stands on it -/
def UsedAs (line n : List Char) (u : Use) : Prop := u.Decides (Creates line n) (Holds line n) (TakesOrGives line n)

theorem decides_use {o : Occurrence} (ho : o ∈ occurrencesOn line) :
    (o.use (createdOn line)).Decides (Creates line o.name) (FieldTail o.after)
      (SignatureTail o.after ∨ OpensBefore o.before.reverse) := by
  have hcreated : (createdOn line).contains o.name = true ↔ Creates line o.name := by
    rw [List.contains_iff_mem, mem_createdOn_iff]
    exact and_iff_right (mem_occurrencesOn_iff.1 ho).2
  have htaken : (signatureTail.startsText o.after || o.afterParenthesis) = true ↔
      SignatureTail o.after ∨ OpensBefore o.before.reverse := by
    rw [Bool.or_eq_true, startsText_signatureTail, afterParenthesis_iff]
  unfold Occurrence.use
  split_ifs with h1 h2 h3
  · exact hcreated.1 h1
  · exact ⟨mt hcreated.2 h1, startsText_fieldTail.1 h2⟩
  · exact ⟨mt hcreated.2 h1, mt startsText_fieldTail.2 h2, htaken.1 h3⟩
  · exact ⟨mt hcreated.2 h1, mt startsText_fieldTail.2 h2, mt htaken.2 h3⟩

/-- an occurrence of a name found on a line is a place where the name stands alone -/
theorem exists_occurrence_iff (hn : IsIdentifier n) {P : List Char → List Char → Prop} :
    (∃ o ∈ (occurrencesOn line).filter (fun o => o.name == n), P o.before.reverse o.after) ↔
      ∃ before after, StandsAlone line before n after ∧ P before after := by
  simp only [List.mem_filter, beq_iff_eq, mem_occurrencesOn_iff]
  constructor
  · rintro ⟨o, ⟨⟨halone, -⟩, rfl⟩, h⟩
    exact ⟨_, _, halone, h⟩
  · rintro ⟨before, after, halone, h⟩
    refine ⟨⟨n, before.reverse, after⟩, ⟨⟨?_, hn⟩, rfl⟩, ?_⟩
    · simpa using halone
    · simpa using h

/-- the uses that a line shows of a name -/
def usesShown (line n : List Char) : List Use := ((shownOn line).filter fun x => x.1 == n).map (·.2)

theorem usesShown_eq : usesShown line n =
    ((occurrencesOn line).filter fun o => o.name == n).map fun o => o.use (createdOn line) := by
  simp [usesShown, shownOn, List.filter_map, Function.comp_def]

/-- a name stands on a line if it is one of its words -/
theorem mem_shownOn_iff : n ∈ (shownOn line).map (·.1) ↔ n ∈ wordRuns line ∧ IsIdentifier n := by
  simp only [shownOn, List.map_map, List.mem_map, Function.comp_apply, mem_occurrencesOn_iff, mem_wordRuns_iff]
  constructor
  · rintro ⟨o, ⟨halone, ho⟩, rfl⟩
    exact ⟨⟨isRun_of_isIdentifier ho, _, _, halone⟩, ho⟩
  · rintro ⟨⟨-, before, after, halone⟩, hn⟩
    exact ⟨⟨n, before.reverse, after⟩, ⟨by simpa using halone, hn⟩, rfl⟩

/-- **The strongest use shown is the use by the line.** -/
theorem usedAs_strongest (hmem : n ∈ wordRuns line) (hn : IsIdentifier n) :
    UsedAs line n (.strongest (usesShown line n)) := by
  obtain ⟨-, before, after, halone⟩ := mem_wordRuns_iff.1 hmem
  have hne : (occurrencesOn line).filter (fun o => o.name == n) ≠ [] := by
    obtain ⟨o, ho, -⟩ := (exists_occurrence_iff hn (P := fun _ _ => True)).2 ⟨before, after, halone, trivial⟩
    exact List.ne_nil_of_mem ho
  have heach : ∀ o ∈ (occurrencesOn line).filter (fun o => o.name == n), (o.use (createdOn line)).Decides
      (Creates line n) (FieldTail o.after) (SignatureTail o.after ∨ OpensBefore o.before.reverse) := by
    intro o ho
    obtain ⟨ho, hname⟩ := List.mem_filter.1 ho
    rw [← beq_iff_eq.1 hname]
    exact decides_use ho
  have hdecides := Use.decides_strongest hne heach
  rw [usesShown_eq]
  rwa [exists_occurrence_iff hn (P := fun _ after => FieldTail after),
    exists_occurrence_iff hn (P := fun before after => SignatureTail after ∨ OpensBefore before)] at hdecides

theorem filter_eraseDups {l : List (List Char)} (h : n ∈ l) : l.eraseDups.filter (fun m => m == n) = [n] := by
  induction hlen : l.length using Nat.strong_induction_on generalizing l with
  | _ k ih =>
    cases l with
    | nil => cases h
    | cons a l =>
      rw [List.eraseDups_cons]
      by_cases ha : a = n
      · subst ha
        have hnone : (l.filter fun b => !b == a).eraseDups.filter (fun m => m == a) = [] := by
          rw [List.filter_eq_nil_iff]
          intro m hm
          simpa using (List.mem_filter.1 (List.mem_eraseDups.1 hm)).2
        rw [List.filter_cons_of_pos (by simp), hnone]
      · have hmem : n ∈ l.filter fun b => !b == a := by
          refine List.mem_filter.2 ⟨(List.mem_cons.1 h).resolve_left (Ne.symm ha), ?_⟩
          simpa using Ne.symm ha
        rw [List.filter_cons_of_neg (by simpa using ha)]
        have hle := List.length_filter_le (fun b => !b == a) l
        rw [List.length_cons] at hlen
        exact ih _ (by omega) hmem rfl

/-- **A line puts each name once.** -/
theorem filter_usesOn {own : List Char} (hmem : n ∈ wordRuns line) (hn : IsIdentifier n) (hown : n ≠ own) :
    (usesOn own line).filter (fun x => x.1 == n) = [(n, .strongest (usesShown line n))] := by
  have hshown : n ∈ (shownOn line).map (·.1) := mem_shownOn_iff.2 ⟨hmem, hn⟩
  have hnames : (((shownOn line).map (·.1)).eraseDups.filter fun m => m != own).filter (fun m => m == n) = [n] := by
    rw [List.filter_comm, filter_eraseDups hshown]
    simp [hown]
  change List.filter _ (List.map (fun m => (m, Use.strongest (usesShown line m))) _) = _
  rw [List.filter_map]
  simp only [Function.comp_def]
  rw [hnames]
  rfl

theorem mem_usesOn_iff {own : List Char} {u : Use} :
    (n, u) ∈ usesOn own line ↔ n ≠ own ∧ IsIdentifier n ∧ n ∈ wordRuns line ∧ UsedAs line n u := by
  constructor
  · intro h
    obtain ⟨m, hm, heq⟩ := List.mem_map.1 h
    obtain ⟨hshown, hown⟩ := List.mem_filter.1 hm
    obtain ⟨rfl, rfl⟩ := Prod.mk.inj heq
    obtain ⟨hmem, hn⟩ := mem_shownOn_iff.1 (List.mem_eraseDups.1 hshown)
    exact ⟨by simpa using hown, hn, hmem, usedAs_strongest hmem hn⟩
  · rintro ⟨hown, hn, hmem, hu⟩
    rw [Use.Decides.unique hu (usedAs_strongest hmem hn)]
    have hput : (n, Use.strongest (usesShown line n)) ∈ (usesOn own line).filter fun x => x.1 == n := by
      rw [filter_usesOn hmem hn hown]
      exact List.mem_cons_self
    exact (List.mem_filter.1 hput).1

end

/-! ## A file -/

/-- the names that a class uses in a given way -/
def ClassInfo.usedNames (c : ClassInfo) : Use → NameSet
  | .composition => c.compositions
  | .aggregation => c.aggregations
  | .dependency => c.dependencies
  | .association => c.associations

theorem mem_usedNames_iff {f : SourceFile} {u : Use} {t : String} : t ∈ f.readClass.usedNames u ↔
    t ≠ f.className ∧ IsIdentifier t.toList ∧
      ∃ line ∈ lines f.content.toList, t.toList ∈ wordRuns line ∧ UsedAs line t.toList u := by
  have hread : f.readClass.usedNames u =
      namesUsed ((lines f.content.toList).flatMap (usesOn f.className.toList)) u := by
    cases u <;> rfl
  rw [hread]
  simp only [namesUsed, NameSet.mem_ofList, List.mem_map, List.mem_filter, List.mem_flatMap, beq_iff_eq]
  constructor
  · rintro ⟨⟨n, v⟩, ⟨⟨line, hline, hput⟩, rfl⟩, rfl⟩
    obtain ⟨hown, hn, hmem, hu⟩ := mem_usesOn_iff.1 hput
    rw [String.toList_ofList]
    refine ⟨?_, hn, line, hline, hmem, hu⟩
    intro heq
    apply hown
    rw [← heq, String.toList_ofList]
  · rintro ⟨hown, hn, line, hline, hmem, hu⟩
    have hown' : t.toList ≠ f.className.toList := fun heq => hown (String.toList_inj.1 heq)
    exact ⟨(t.toList, u), ⟨⟨line, hline, mem_usesOn_iff.2 ⟨hown', hn, hmem, hu⟩⟩, rfl⟩, String.ofList_toList⟩

/-- **Classification of names.** On each line of a file, each capitalised identifier but the class's own name is put
once, in the way the line uses it. The names that the class is read to use in a given way are those that some line uses
so, together they are the identifiers of the text, and the order of the lines does not matter. -/
theorem uses_classified (f : SourceFile) :
    (∀ line ∈ lines f.content.toList, ∀ n ∈ wordRuns line, IsIdentifier n → n ≠ f.className.toList →
      ∃ u, UsedAs line n u ∧ (usesOn f.className.toList line).filter (fun x => x.1 == n) = [(n, u)]) ∧
    (∀ u t, t ∈ f.readClass.usedNames u ↔ t ≠ f.className ∧ IsIdentifier t.toList ∧
      ∃ line ∈ lines f.content.toList, t.toList ∈ wordRuns line ∧ UsedAs line t.toList u) ∧
    (∀ t, (∃ u, t ∈ f.readClass.usedNames u) ↔
      t ≠ f.className ∧ IsIdentifier t.toList ∧ t.toList ∈ wordRuns f.content.toList) ∧
    ∀ g : SourceFile, g.className = f.className →
      (∀ line, line ∈ lines g.content.toList ↔ line ∈ lines f.content.toList) →
      ∀ u, g.readClass.usedNames u = f.readClass.usedNames u := by
  refine ⟨?_, fun u t => mem_usedNames_iff, ?_, ?_⟩
  · intro line _ n hmem hn hown
    exact ⟨.strongest (usesShown line n), usedAs_strongest hmem hn, filter_usesOn hmem hn hown⟩
  · intro t
    simp only [mem_usedNames_iff, ← flatMap_wordRuns_lines f.content.toList, List.mem_flatMap]
    constructor
    · rintro ⟨u, hown, hn, line, hline, hmem, -⟩
      exact ⟨hown, hn, line, hline, hmem⟩
    · rintro ⟨hown, hn, line, hline, hmem⟩
      exact ⟨_, hown, hn, line, hline, hmem, usedAs_strongest hmem hn⟩
  · intro g hname hlines u
    apply NameSet.ext
    intro t
    rw [mem_usedNames_iff, mem_usedNames_iff, hname]
    simp only [hlines]

theorem uses_classified_shop :
    let line := "Order o = new Item(Price[] p);".toList
    let f : SourceFile := ⟨"src/Shop.java", "Order o = new Item(Price[] p);\r\nÉItem x; Item$ y;", by decide +kernel⟩
    let g : SourceFile := ⟨"lib/Shop.java", "ÉItem x; Item$ y;\n\nOrder o = new Item(Price[] p);", by decide +kernel⟩
    line ∈ lines f.content.toList ∧
      (∃ u, UsedAs line "Item".toList u ∧
        (usesOn "Shop".toList line).filter (fun x => x.1 == "Item".toList) = [("Item".toList, u)]) ∧
      (∃ u, "Item" ∈ f.readClass.usedNames u) ∧ ∀ u, g.readClass.usedNames u = f.readClass.usedNames u := by
  intro line f g
  have hname : f.className = "Shop" := by decide +kernel
  have hline : line ∈ lines f.content.toList := by decide +kernel
  have hitem : IsIdentifier "Item".toList :=
    ⟨'I', "tem".toList, by decide, by decide, List.all_eq_true.1 (by decide)⟩
  obtain ⟨honce, -, htogether, horder⟩ := uses_classified f
  refine ⟨hline, ?_, ?_, ?_⟩
  · rw [← hname]
    exact honce line hline _ (by decide +kernel) hitem (by decide +kernel)
  · exact (htogether "Item").2 ⟨by decide +kernel, hitem, by decide +kernel⟩
  · have hperm : (lines g.content.toList).Perm (lines f.content.toList) := by decide +kernel
    exact horder g (by decide +kernel) fun _ => hperm.mem_iff

end ClassAtlas.Source
