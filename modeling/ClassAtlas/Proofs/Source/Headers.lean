/-
Class declarations are read for the class they extend and the interfaces they list.

A declaration is searched for with patterns that take as little as possible of the type parameters and of what follows the
class that is extended. Type parameters may hold the very keywords that are searched for.

- `Header`: a declaration as it is written, with type parameters, a class that is extended and a list of interfaces, or
  any of them.
- `optional_parameterList_run`: the type parameters are passed over, whatever is searched for after them, if it needs a
  keyword to be found (`NeedsKeyword`).
- `optional_run_baseName`, `optional_run_interfaceText`: what is then found is the name after `extends` and the list after
  `implements`, or nothing where they are not written.
- `seek_declared`: if the class is declared at one place only, this is where the search succeeds or fails.
- `headers_read`: for every file, its parent and its interfaces.
-/
import ClassAtlas.Proofs.Source.Keywords
import ClassAtlas.Proofs.Text.Openings

namespace ClassAtlas.Source

open ClassAtlas.Text ClassAtlas.Text.Pattern ClassAtlas.Collect

/-! ## Headers as they are written -/

/-- type parameters; no angle bracket inside them is followed by a keyword, as the last one is -/
structure TypeParameters where
  gap : List Char
  inner : List Char
  blank : ∀ c ∈ gap, isBlank c = true
  braceless : '\x7b' ∉ inner
  enclosed : ∀ u v, inner = u ++ '>' :: v → ¬ Opens "extends".toList v ∧ ¬ Opens "implements".toList v

/-- the class that is extended, with type arguments or none -/
structure BaseClass where
  gap : List Char
  space : List Char
  name : List Char
  arguments : List Char
  isGap : IsGap gap
  isSpace : IsGap space
  named : IsIdentifier name
  bracketed : arguments = [] ∨ ∃ u, arguments = '<' :: (u ++ ['>'])
  braceless : '\x7b' ∉ arguments
  unlisted : ¬ "implements".toList <:+: arguments

/-- the interfaces that are implemented -/
structure InterfaceList where
  gap : List Char
  space : List Char
  list : List Char
  isGap : IsGap gap
  isSpace : IsGap space
  starts : ∃ x r, list = x :: r ∧ isBlank x = false
  braceless : '\x7b' ∉ list
  underived : ∀ u v, list = u ++ '>' :: v → ¬ Opens "extends".toList v

/-- a class declaration, from the word `class` to the opening brace -/
structure Header where
  gap : List Char
  parameters : Option TypeParameters
  base : Option BaseClass
  interfaces : Option InterfaceList
  close : List Char
  isGap : IsGap gap
  blank : ∀ c ∈ close, isBlank c = true

def TypeParameters.text (p : TypeParameters) : List Char := p.gap ++ '<' :: (p.inner ++ ['>'])

def BaseClass.text (b : BaseClass) : List Char := b.gap ++ ("extends".toList ++ (b.space ++ (b.name ++ b.arguments)))

def InterfaceList.text (l : InterfaceList) : List Char := l.gap ++ ("implements".toList ++ (l.space ++ l.list))

namespace Header

/-- what follows the class that is extended -/
def listing (h : Header) (body : List Char) : List Char :=
  h.interfaces.elim [] InterfaceList.text ++ (h.close ++ '\x7b' :: body)

/-- what follows the type parameters -/
def clauses (h : Header) (body : List Char) : List Char := h.base.elim [] BaseClass.text ++ h.listing body

/-- the declaration of the named class, with its body -/
def text (h : Header) (name body : List Char) : List Char :=
  "class".toList ++ (h.gap ++ (name ++ (h.parameters.elim [] TypeParameters.text ++ h.clauses body)))

end Header

/-! ## Type parameters -/

/-- the pattern for type parameters -/
def parameterList : Pattern :=
  .all [.gap, .char (· == '<'), .few Declaration.notOpeningBrace, .char (· == '>')]

/-- a continuation that finds nothing where no keyword follows -/
def NeedsKeyword {α : Type} (k : Cursor → Option α) : Prop :=
  ∀ before s, ¬ Opens "extends".toList s → ¬ Opens "implements".toList s → k ⟨before, s⟩ = none

theorem isRun_extends : IsRun "extends".toList := isRun_of_all (by decide)

theorem isRun_implements : IsRun "implements".toList := isRun_of_all (by decide)

theorem notOpeningBrace_of_not_mem {u : List Char} (h : '\x7b' ∉ u) : ∀ c ∈ u, Declaration.notOpeningBrace c = true := by
  intro c hc
  simp only [Declaration.notOpeningBrace, bne_iff_ne]
  rintro rfl
  exact h hc

theorem not_mem_of_notOpeningBrace {u : List Char} (h : ∀ c ∈ u, Declaration.notOpeningBrace c = true) : '\x7b' ∉ u :=
  fun hmem => absurd (h _ hmem) (by decide)

section

variable {α : Type} {k : Cursor → Option α} {a : α} {before y : List Char} {c d : Cursor}

theorem exists_of_mem_ends_parameterList (hd : d ∈ parameterList.ends c) :
    ∃ g u, c.after = g ++ '<' :: (u ++ '>' :: d.after) ∧ (∀ x ∈ g, isBlank x = true) ∧ '\x7b' ∉ u := by
  obtain ⟨u, htakes, hu⟩ := mem_ends_iff.1 hd
  simp only [parameterList, spans_all_cons, spans_all_nil, spans_gap, spans_char, beq_iff_eq] at hu
  obtain ⟨g, _, rfl, hg, _, _, rfl, ⟨_, rfl, rfl⟩, u, _, rfl, hu, _, _, rfl, ⟨_, rfl, rfl⟩, rfl⟩ := hu
  exact ⟨g, u, by simpa using htakes.after, hg, not_mem_of_notOpeningBrace hu⟩

namespace TypeParameters

variable (p : TypeParameters)

theorem text_append (y : List Char) : p.text ++ y = p.gap ++ '<' :: (p.inner ++ '>' :: y) := by
  simp [text]

/-- nothing is found after an angle bracket inside -/
theorem inside (hk : NeedsKeyword k) {u v : List Char} (h : p.inner = u ++ '>' :: v) :
    k ⟨before, v ++ '>' :: y⟩ = none := by
  obtain ⟨hextends, himplements⟩ := p.enclosed u v h
  apply hk
  · exact not_opens_append_cons isRun_extends (by decide) (by decide) hextends
  · exact not_opens_append_cons isRun_implements (by decide) (by decide) himplements

/-- the type parameters are left at the angle bracket that a keyword follows -/
theorem parameterList_run (hk : NeedsKeyword k) (hy : ∀ before, k ⟨before, y⟩ = some a) :
    parameterList.run k ⟨before, p.text ++ y⟩ = some a := by
  have hclose : ∀ before, (char (· == '>')).run k ⟨before, '>' :: y⟩ = some a := fun before => hy _
  have hinner : ∀ before, (few Declaration.notOpeningBrace).run ((char (· == '>')).run k)
      ⟨before, p.inner ++ '>' :: y⟩ = some a := by
    intro before
    rw [few_run_first (notOpeningBrace_of_not_mem p.braceless) ?_ (by rw [hclose]; rfl), hclose]
    intro u v hsplit hne
    obtain ⟨z, v, rfl⟩ := List.exists_cons_of_ne_nil hne
    by_cases hz : z = '>'
    · subst hz
      exact p.inside hk hsplit
    · simp [run, hz]
  have hopen : ∀ before, (char (· == '<')).run ((few Declaration.notOpeningBrace).run ((char (· == '>')).run k))
      ⟨before, '<' :: (p.inner ++ '>' :: y)⟩ = some a := fun before => hinner _
  rw [p.text_append, parameterList, all_run_cons, Pattern.gap, many_run_far p.blank rfl]
  · exact hopen _
  · exact Option.isSome_iff_exists.2 ⟨a, hopen _⟩

/-- nothing is found if nothing is found after any angle bracket up to the brace -/
theorem parameterList_run_eq_none (hk : NeedsKeyword k) (hy : ∀ before, k ⟨before, y⟩ = none)
    (hlater : ∀ before u t, y = u ++ '>' :: t → '\x7b' ∉ u → k ⟨before, t⟩ = none) :
    parameterList.run k ⟨before, p.text ++ y⟩ = none := by
  rw [run_eq_none_iff, p.text_append]
  rintro ⟨before', t⟩ hd
  obtain ⟨g, u, heq, hg, hu⟩ := exists_of_mem_ends_parameterList hd
  obtain ⟨-, hbracket⟩ := append_inj_of_class p.blank hg rfl rfl heq
  rcases append_eq_append_cons (List.cons.inj hbracket).2 with ⟨v, hinner, rfl⟩ | ⟨u', rfl, hrest⟩
  · exact p.inside hk hinner
  · cases u' with
    | nil =>
      obtain ⟨-, rfl⟩ := List.cons.inj hrest
      exact hy _
    | cons z u' =>
      have hafter : y = u' ++ '>' :: t := (List.cons.inj hrest).2
      exact hlater _ u' t hafter fun hmem => hu (by simp [hmem])

end TypeParameters

/-- where none stand, none are found -/
theorem parameterList_run_of_bare (hbare : ∀ g r, (∀ x ∈ g, isBlank x = true) → y ≠ g ++ '<' :: r) :
    parameterList.run k ⟨before, y⟩ = none := by
  rw [run_eq_none_iff]
  intro d hd
  obtain ⟨g, u, htext, hg, -⟩ := exists_of_mem_ends_parameterList hd
  exact absurd htext (hbare g _ hg)

/-- **Type parameters are passed over.** -/
theorem optional_parameterList_run (hk : NeedsKeyword k) (p : Option TypeParameters)
    (hbare : ∀ g r, (∀ x ∈ g, isBlank x = true) → y ≠ g ++ '<' :: r) (hy : ∀ before, k ⟨before, y⟩ = some a) :
    (optional parameterList).run k ⟨before, p.elim [] TypeParameters.text ++ y⟩ = some a := by
  cases p with
  | none => rw [Option.elim_none, List.nil_append, optional_run_skipped (parameterList_run_of_bare hbare), hy]
  | some p =>
    have hrun : parameterList.run k ⟨before, p.text ++ y⟩ = some a := p.parameterList_run hk hy
    rw [Option.elim_some, optional_run_taken (by rw [hrun]; rfl), hrun]

/-- **Nothing is found beyond them** if nothing is found after any angle bracket up to the brace. -/
theorem optional_parameterList_run_eq_none (hk : NeedsKeyword k) (p : Option TypeParameters)
    (hbare : ∀ g r, (∀ x ∈ g, isBlank x = true) → y ≠ g ++ '<' :: r) (hy : ∀ before, k ⟨before, y⟩ = none)
    (hlater : ∀ before u t, y = u ++ '>' :: t → '\x7b' ∉ u → k ⟨before, t⟩ = none) :
    (optional parameterList).run k ⟨before, p.elim [] TypeParameters.text ++ y⟩ = none := by
  cases p with
  | none => rw [Option.elim_none, List.nil_append, optional_run_skipped (parameterList_run_of_bare hbare), hy]
  | some p =>
    rw [Option.elim_some, optional_run_skipped (p.parameterList_run_eq_none hk hy hlater), p.text_append]
    apply hk
    · exact not_opens_gap_cons isRun_extends p.blank (by decide) (by decide)
    · exact not_opens_gap_cons isRun_implements p.blank (by decide) (by decide)

end

/-! ## Up to the brace -/

/-- the keyword opens nowhere before the brace -/
def SilentToBrace (keyword s : List Char) : Prop := ∀ u v, s = u ++ v → '\x7b' ∉ u → ¬ Opens keyword v

section

variable {kw w y g body u t : List Char}

theorem SilentToBrace.append (hy : SilentToBrace kw y) (hw : Silent kw w y) : SilentToBrace kw (w ++ y) := by
  intro u v h hu
  rcases List.append_eq_append_iff.1 h with ⟨u', rfl, hu'⟩ | ⟨v', hv', rfl⟩
  · exact hy u' v hu' fun hmem => hu (List.mem_append_right _ hmem)
  · by_cases hnil : v' = []
    · subst hnil
      exact hy [] y rfl (by simp)
    · exact hw u v' hv' hnil

theorem silentToBrace_close (hkw : IsRun kw) (hg : ∀ c ∈ g, isBlank c = true) :
    SilentToBrace kw (g ++ '\x7b' :: body) := by
  intro u v h hu
  rcases List.append_eq_append_iff.1 h with ⟨u', rfl, hu'⟩ | ⟨g', rfl, rfl⟩
  · cases u' with
    | nil =>
      obtain rfl : '\x7b' :: body = v := hu'
      exact not_opens_of_head? rfl
    | cons z u' =>
      obtain ⟨rfl, -⟩ := List.cons.inj hu'
      exact absurd (by simp) hu
  · exact not_opens_gap_cons hkw (fun c hc => hg c (List.mem_append_right _ hc)) (by decide) (by decide)

end

/-! ## The clauses -/

theorem identifierAt_append {n r : List Char} (hn : IsIdentifier n) (hr : r.head?.any isWord = false) :
    identifierAt (n ++ r) = some n := by
  obtain ⟨x, t, rfl, hx, ht⟩ := hn
  have hstop : r.takeWhile isIdentChar = [] := by
    cases r with
    | nil => rfl
    | cons y r =>
      have hident : ¬ isIdentChar y = true := fun hy => by simp [isWord_of_isIdentChar hy] at hr
      exact List.takeWhile_cons_of_neg hident
  rw [List.cons_append, identifierAt, if_pos hx, List.takeWhile_append_of_pos ht, hstop, List.append_nil]

namespace BaseClass

variable (b : BaseClass) {y : List Char}

theorem text_append (y : List Char) :
    b.text ++ y = b.gap ++ ("extends".toList ++ (b.space ++ (b.name ++ (b.arguments ++ y)))) := by
  simp [text]

theorem isBlank_name : ∀ c ∈ b.name, isBlank c = false := (isWord_of_isIdentifier b.named).2

theorem head?_name (y : List Char) : (b.name ++ y).head?.any isBlank = false :=
  head?_any_isBlank_of_isRun (isRun_of_isIdentifier b.named)

theorem head?_arguments_append (hy : y.head?.any isWord = false) : (b.arguments ++ y).head?.any isWord = false := by
  rcases b.bracketed with hnil | ⟨u, hu⟩
  · rwa [hnil]
  · rw [hu]
    rfl

theorem silent_arguments (hy : y.head?.any isWord = false) : Silent "implements".toList b.arguments y := by
  intro u v h hne hopens
  rcases hopens.of_append isRun_implements hy with ⟨g, r, -, rfl⟩ | ⟨hblank, -⟩
  · exact b.unlisted ⟨u ++ g, r, by simp [h]⟩
  · -- the arguments end with a bracket
    rcases b.bracketed with hnil | ⟨w, hw⟩
    · exact hne (List.append_eq_nil_iff.1 (h.symm.trans hnil)).2
    · have hlast : v.getLast? = some '>' := by
        have hlast' : (u ++ v).getLast? = some '>' := by
          rw [← h, hw, ← List.cons_append]
          exact List.getLast?_concat
        rwa [List.getLast?_append_of_ne_nil _ hne] at hlast'
      exact absurd (hblank _ (List.mem_of_getLast? hlast)) (by decide)

theorem silent_name_arguments (hy : y.head?.any isWord = false) :
    Silent "implements".toList (b.name ++ b.arguments) y :=
  (silent_of_isBlank_eq_false b.isBlank_name).append (b.silent_arguments hy)

/-- the class that is extended lists no interfaces -/
theorem silent_text (hy : y.head?.any isWord = false) : Silent "implements".toList b.text y := by
  have hname : ¬ "implements".toList <+: b.name ++ b.arguments ++ y := by
    rintro ⟨r, hr⟩
    obtain ⟨x, t, hx, hupper, -⟩ := b.named
    rw [hx] at hr
    obtain ⟨rfl, -⟩ := List.cons.inj hr
    cases hupper
  have hkeyword : ¬ "implements".toList <+: "extends".toList ++ (b.space ++ (b.name ++ b.arguments)) ++ y := by
    rintro ⟨r, hr⟩
    exact absurd (List.cons.inj hr).1 (by decide)
  have hspace : Silent "implements".toList b.space (b.name ++ b.arguments ++ y) := by
    refine silent_gap isRun_implements b.isSpace.2 ?_ hname
    rw [List.append_assoc]
    exact b.head?_name _
  have hextends : Silent "implements".toList "extends".toList (b.space ++ (b.name ++ b.arguments) ++ y) :=
    silent_of_isBlank_eq_false (by simp; decide)
  exact (silent_gap isRun_implements b.isGap.2 rfl hkeyword).append
    (hextends.append (hspace.append (b.silent_name_arguments hy)))

end BaseClass

namespace InterfaceList

variable (l : InterfaceList)

theorem text_append (y : List Char) :
    l.text ++ y = l.gap ++ ("implements".toList ++ (l.space ++ (l.list ++ y))) := by
  simp [text]

theorem not_opens_extends (y : List Char) : ¬ Opens "extends".toList (l.text ++ y) := by
  intro hopens
  rw [text_append] at hopens
  obtain ⟨r, hr⟩ := hopens.after_gap isRun_extends l.isGap.2 rfl
  exact absurd (List.cons.inj hr).1 (by decide)

end InterfaceList

/-! ## The class that is extended -/

/-- what follows the type parameters is read for the name after `extends` -/
def baseName : Cursor → Option (List Char) :=
  gap1.run ((text "extends".toList).run (gap1.run fun c => identifierAt c.after))

section

variable {before y g u t body : List Char}

theorem needsKeyword_baseName : NeedsKeyword baseName := fun _ _ hextends _ => keyword_run_eq_none hextends

theorem baseName_base (b : BaseClass) (hy : y.head?.any isWord = false) :
    baseName ⟨before, b.text ++ y⟩ = some b.name := by
  rw [b.text_append]
  apply keyword_run isRun_extends b.isGap
  intro before
  apply gap1_run b.isSpace (b.head?_name _)
  intro before
  exact identifierAt_append b.named (b.head?_arguments_append hy)

/-- no angle bracket stands in the white space before the brace -/
theorem bracket_beyond_brace (hg : ∀ c ∈ g, isBlank c = true) (h : g ++ '\x7b' :: body = u ++ '>' :: t) : '\x7b' ∈ u := by
  have hno : '>' ∉ g := fun hmem => absurd (hg _ hmem) (by decide)
  obtain ⟨u', rfl, hu'⟩ := append_eq_append_cons_of_not_mem hno h
  cases u' with
  | nil => exact absurd (List.cons.inj hu').1 (by decide)
  | cons z u' =>
    obtain ⟨rfl, -⟩ := List.cons.inj hu'
    simp

theorem head?_close (hg : ∀ c ∈ g, isBlank c = true) : (g ++ '\x7b' :: body).head?.any isWord = false :=
  head?_any_append (head?_any_of_forall fun c hc => isWord_eq_false_of_isBlank (hg c hc)) rfl

/-- nothing is extended after an angle bracket in a list of interfaces -/
theorem InterfaceList.not_opens_later (l : InterfaceList) (hg : ∀ c ∈ g, isBlank c = true)
    (h : l.text ++ (g ++ '\x7b' :: body) = u ++ '>' :: t) (hu : '\x7b' ∉ u) : ¬ Opens "extends".toList t := by
  have hlead : '>' ∉ l.gap ++ ("implements".toList ++ l.space) := by
    intro hmem
    simp only [List.mem_append] at hmem
    rcases hmem with hmem | hmem | hmem
    · exact absurd (l.isGap.2 _ hmem) (by decide)
    · exact absurd hmem (by decide)
    · exact absurd (l.isSpace.2 _ hmem) (by decide)
  have htext : l.text ++ (g ++ '\x7b' :: body) =
      l.gap ++ ("implements".toList ++ l.space) ++ (l.list ++ (g ++ '\x7b' :: body)) := by
    simp [text]
  rw [htext] at h
  obtain ⟨v, rfl, hlater⟩ := append_eq_append_cons_of_not_mem hlead h
  rcases append_eq_append_cons hlater with ⟨w, hlist, rfl⟩ | ⟨w, rfl, hclose⟩
  · intro hopens
    rcases hopens.of_append isRun_extends (head?_close hg) with hw | ⟨-, hrest⟩
    · exact l.underived v w hlist hw
    · exact not_opens_gap_cons isRun_extends hg (by decide) (by decide) hrest
  · have hmem := bracket_beyond_brace hg hclose
    exact absurd (by simp [hmem]) hu

end

namespace Header

variable (h : Header) {before body u t : List Char}

theorem head?_listing (body : List Char) : (h.listing body).head?.any isWord = false := by
  rw [listing]
  cases h.interfaces with
  | none => exact head?_close h.blank
  | some l =>
    rw [Option.elim_some, l.text_append]
    exact l.isGap.head?_any _

theorem not_opens_listing (body : List Char) : ¬ Opens "extends".toList (h.listing body) := by
  rw [listing]
  cases h.interfaces with
  | none => exact not_opens_gap_cons isRun_extends h.blank (by decide) (by decide)
  | some l => exact l.not_opens_extends _

theorem not_opens_listing_later (heq : h.listing body = u ++ '>' :: t) (hu : '\x7b' ∉ u) :
    ¬ Opens "extends".toList t := by
  rw [listing] at heq
  cases hl : h.interfaces with
  | none =>
    rw [hl] at heq
    exact absurd (bracket_beyond_brace h.blank heq) hu
  | some l =>
    rw [hl] at heq
    exact l.not_opens_later h.blank heq hu

/-- no type parameters start here -/
theorem clauses_ne (body g r : List Char) (hg : ∀ c ∈ g, isBlank c = true) : h.clauses body ≠ g ++ '<' :: r := by
  have hstart : ∃ g x r, h.clauses body = g ++ x :: r ∧ (∀ c ∈ g, isBlank c = true) ∧ isBlank x = false ∧ x ≠ '<' := by
    rw [clauses, listing]
    cases h.base with
    | some b => exact ⟨b.gap, 'e', _, b.text_append _, b.isGap.2, by decide, by decide⟩
    | none =>
      cases h.interfaces with
      | some l => exact ⟨l.gap, 'i', _, l.text_append _, l.isGap.2, by decide, by decide⟩
      | none => exact ⟨h.close, '\x7b', body, rfl, h.blank, by decide, by decide⟩
  obtain ⟨g', x, r', heq, hg', hx, hne⟩ := hstart
  rw [heq]
  intro hsame
  obtain ⟨-, hchar⟩ := append_inj_of_class hg' hg (by simpa using hx) rfl hsame
  exact hne (List.cons.inj hchar).1

/-- **The class that is extended.** -/
theorem optional_run_baseName (body : List Char) :
    (optional parameterList).run baseName ⟨before, h.parameters.elim [] TypeParameters.text ++ h.clauses body⟩ =
      h.base.map BaseClass.name := by
  cases hb : h.base with
  | some b =>
    apply optional_parameterList_run needsKeyword_baseName h.parameters (h.clauses_ne body)
    intro before
    rw [clauses, hb]
    exact baseName_base b (h.head?_listing body)
  | none =>
    have hclauses : h.clauses body = h.listing body := by rw [clauses, hb]; rfl
    apply optional_parameterList_run_eq_none needsKeyword_baseName h.parameters (h.clauses_ne body)
    · intro before
      rw [hclauses]
      exact keyword_run_eq_none (h.not_opens_listing body)
    · intro before u t heq hu
      rw [hclauses] at heq
      exact keyword_run_eq_none (h.not_opens_listing_later heq hu)

end Header

/-! ## The interfaces that are listed -/

/-- a list after `implements`, up to the brace -/
def listAfter : Cursor → Option (List Char) :=
  gap1.run ((text "implements".toList).run
    (gap1.run fun c => (some1 Declaration.notOpeningBrace).run (fun d => some (c.upTo d)) c))

/-- the pattern for the class that is extended, with whatever follows it -/
def baseClause : Pattern := .all [.gap1, .text "extends".toList, .gap1, .few Declaration.notOpeningBrace]

/-- what follows the type parameters is read for the list after `implements` -/
def interfaceText : Cursor → Option (List Char) := (optional baseClause).run listAfter

section

variable {before y g s body : List Char} {c d : Cursor}

theorem baseClause_run_eq_none {k : Cursor → Option (List Char)} (hs : ¬ Opens "extends".toList s) :
    baseClause.run k ⟨before, s⟩ = none := keyword_run_eq_none hs

theorem needsKeyword_interfaceText : NeedsKeyword interfaceText := by
  intro before s hextends himplements
  rw [interfaceText, optional_run_skipped (baseClause_run_eq_none hextends)]
  exact keyword_run_eq_none himplements

theorem exists_of_mem_ends_baseClause (hd : d ∈ baseClause.ends c) : ∃ u, c.after = u ++ d.after ∧ '\x7b' ∉ u := by
  obtain ⟨u, htakes, hu⟩ := mem_ends_iff.1 hd
  refine ⟨u, htakes.after, ?_⟩
  simp only [baseClause, spans_all_cons, spans_all_nil, spans_gap1, spans_text] at hu
  obtain ⟨g, _, rfl, hg, _, _, rfl, rfl, g', _, rfl, hg', u, _, rfl, hu, rfl⟩ := hu
  have hgap : '\x7b' ∉ g := fun hmem => absurd (hg.2 _ hmem) (by decide)
  have hgap' : '\x7b' ∉ g' := fun hmem => absurd (hg'.2 _ hmem) (by decide)
  have hrest : '\x7b' ∉ u := not_mem_of_notOpeningBrace hu
  simp [hgap, hgap', hrest]

/-- nothing is listed if `implements` opens nowhere before the brace -/
theorem interfaceText_eq_none (hs : SilentToBrace "implements".toList s) : interfaceText ⟨before, s⟩ = none := by
  rw [interfaceText, optional_run_skipped]
  · exact keyword_run_eq_none (hs [] s rfl (by simp))
  · rw [run_eq_none_iff]
    rintro ⟨before', t⟩ hd
    obtain ⟨u, heq, hu⟩ := exists_of_mem_ends_baseClause hd
    exact keyword_run_eq_none (hs u t heq hu)

theorem listAfter_list (l : InterfaceList) (hg : ∀ c ∈ g, isBlank c = true) :
    listAfter ⟨before, l.text ++ (g ++ '\x7b' :: body)⟩ = some (l.list ++ g) := by
  obtain ⟨x, r, hlist, hx⟩ := l.starts
  rw [l.text_append]
  apply keyword_run isRun_implements l.isGap
  intro before
  apply gap1_run l.isSpace
  · rw [hlist]
    simpa using hx
  · intro before
    have hbraceless : '\x7b' ∉ l.list ++ g := by
      intro hmem
      rcases List.mem_append.1 hmem with hmem | hmem
      · exact l.braceless hmem
      · exact absurd (hg _ hmem) (by decide)
    have htakes : Cursor.Takes ⟨before, l.list ++ g ++ '\x7b' :: body⟩ (l.list ++ g)
        ⟨(l.list ++ g).reverse ++ before, '\x7b' :: body⟩ := ⟨rfl, rfl⟩
    rw [← List.append_assoc, some1_run_far (by simp [hlist]) (notOpeningBrace_of_not_mem hbraceless) rfl rfl, htakes.upTo]

theorem baseClause_run (b : BaseClass) (hy : y.head?.any isWord = false) {list : List Char}
    (hlist : ∀ before, listAfter ⟨before, y⟩ = some list) :
    baseClause.run listAfter ⟨before, b.text ++ y⟩ = some list := by
  rw [b.text_append]
  apply keyword_run isRun_extends b.isGap
  intro before
  apply gap1_run b.isSpace (b.head?_name _)
  intro before
  have hbraceless : '\x7b' ∉ b.name ++ b.arguments := by
    intro hmem
    rcases List.mem_append.1 hmem with hmem | hmem
    · exact absurd ((isRun_of_isIdentifier b.named).2 _ hmem) (by decide)
    · exact b.braceless hmem
  rw [← List.append_assoc]
  refine (few_run_first (notOpeningBrace_of_not_mem hbraceless) ?_ ?_).trans (hlist _)
  · intro u v huv hne
    exact keyword_run_eq_none (b.silent_name_arguments hy u v huv hne)
  · exact Option.isSome_iff_exists.2 ⟨list, hlist _⟩

end

namespace Header

variable (h : Header) {before body u t : List Char}

theorem interfaceText_clauses {l : InterfaceList} (hl : h.interfaces = some l) :
    interfaceText ⟨before, h.clauses body⟩ = some (l.list ++ h.close) := by
  have hlisting : ∀ before, listAfter ⟨before, h.listing body⟩ = some (l.list ++ h.close) := by
    intro before
    rw [listing, hl]
    exact listAfter_list l h.blank
  cases hb : h.base with
  | none =>
    have hclauses : h.clauses body = h.listing body := by rw [clauses, hb]; rfl
    rw [hclauses, interfaceText, optional_run_skipped (baseClause_run_eq_none (h.not_opens_listing body)), hlisting]
  | some b =>
    have hclauses : h.clauses body = b.text ++ h.listing body := by rw [clauses, hb]; rfl
    have hrun : baseClause.run listAfter ⟨before, b.text ++ h.listing body⟩ = some (l.list ++ h.close) :=
      baseClause_run b (h.head?_listing body) hlisting
    rw [hclauses, interfaceText, optional_run_taken (by rw [hrun]; rfl), hrun]

theorem silentToBrace_clauses (hl : h.interfaces = none) : SilentToBrace "implements".toList (h.clauses body) := by
  have hclose : SilentToBrace "implements".toList (h.close ++ '\x7b' :: body) :=
    silentToBrace_close isRun_implements h.blank
  rw [clauses, listing, hl]
  cases h.base with
  | none => exact hclose
  | some b => exact hclose.append (b.silent_text (head?_close h.blank))

/-- **The interfaces that are listed.** -/
theorem optional_run_interfaceText (body : List Char) :
    (optional parameterList).run interfaceText ⟨before, h.parameters.elim [] TypeParameters.text ++ h.clauses body⟩ =
      h.interfaces.map fun l => l.list ++ h.close := by
  cases hl : h.interfaces with
  | some l =>
    apply optional_parameterList_run needsKeyword_interfaceText h.parameters (h.clauses_ne body)
    intro before
    exact h.interfaceText_clauses hl
  | none =>
    have hsilent : SilentToBrace "implements".toList (h.clauses body) := h.silentToBrace_clauses hl
    apply optional_parameterList_run_eq_none needsKeyword_interfaceText h.parameters (h.clauses_ne body)
    · intro before
      exact interfaceText_eq_none hsilent
    · intro before u t heq hu
      apply interfaceText_eq_none
      intro v r hsplit hv
      refine hsilent (u ++ '>' :: v) r ?_ ?_
      · simp [heq, hsplit]
      · simp [hu, hv]

end Header

/-! ## The place of the declaration -/

/-- the word `class` and the name follow this part of the content, with a word boundary before and after them -/
def DeclaredAfter (content name before : List Char) : Prop :=
  ∃ g after, content = before ++ ("class".toList ++ (g ++ (name ++ after))) ∧ IsGap g ∧
    before.getLast?.any isWord = false ∧ name.getLast?.any isWord ≠ after.head?.any isWord

/-- the pattern for the word `class` and the name -/
def declared (name : List Char) : Pattern := .seq .boundary (Declaration.named "class".toList name)

section

variable {α : Type} {k : Cursor → Option α} {name pre g rest : List Char} {c d : Cursor}

theorem mem_ends_declared (hname : name ≠ []) : d ∈ (declared name).ends c ↔
    ∃ g, c.Takes ("class".toList ++ (g ++ name)) d ∧ IsGap g ∧ c.before.head?.any isWord = false ∧
      name.getLast?.any isWord ≠ d.after.head?.any isWord := by
  have hclass : IsRun "class".toList := isRun_of_all (by decide)
  have hright : ∀ {before after : List Char}, Cursor.atBoundary ⟨name.reverse ++ before, after⟩ = true ↔
      name.getLast?.any isWord ≠ after.head?.any isWord := by
    intro before after
    rw [Cursor.atBoundary, List.head?_append_of_ne_nil _ (by simpa using hname), List.head?_reverse, bne_iff_ne]
  rw [mem_ends_iff]
  simp only [declared, Declaration.named, spans_seq, spans_all_cons, spans_all_nil, spans_boundary, spans_text, spans_gap1]
  constructor
  · rintro ⟨_, htakes, _, _, rfl, ⟨hleft, rfl⟩, _, _, rfl, rfl, g, _, rfl, hg, _, _, rfl, rfl, _, _, rfl, ⟨hend, rfl⟩, rfl⟩
    simp only [List.nil_append, List.append_nil] at htakes hleft hend
    rw [List.append_assoc, atBoundary_before_run hclass] at hleft
    exact ⟨g, htakes, hg, hleft, hright.1 hend⟩
  · rintro ⟨g, htakes, hg, hleft, hend⟩
    refine ⟨"class".toList ++ (g ++ name), htakes, [], "class".toList ++ (g ++ name), rfl, ⟨?_, rfl⟩, "class".toList,
      g ++ name, rfl, rfl, g, name, rfl, hg, name, [], by simp, rfl, [], [], rfl, ⟨hright.2 hend, rfl⟩, rfl⟩
    rw [List.append_assoc, atBoundary_before_run hclass]
    exact hleft

theorem declaredAfter_of_mem_ends (hname : name ≠ []) (hd : d ∈ (declared name).ends c) :
    DeclaredAfter c.text name c.before.reverse := by
  obtain ⟨g, htakes, hg, hleft, hend⟩ := (mem_ends_declared hname).1 hd
  refine ⟨g, d.after, ?_, hg, by simpa using hleft, hend⟩
  rw [Cursor.text, htakes.after]
  simp

/-- the white space after `class` and what follows the name are determined -/
theorem mem_ends_declared_iff_eq (hg : IsGap g) (hname : name ≠ []) (hblank : name.head?.any isBlank = false)
    (hplace : DeclaredAfter (pre ++ ("class".toList ++ (g ++ (name ++ rest)))) name pre) :
    d ∈ (declared name).ends ⟨pre.reverse, "class".toList ++ (g ++ (name ++ rest))⟩ ↔
      d = ⟨("class".toList ++ (g ++ name)).reverse ++ pre.reverse, rest⟩ := by
  have hhead : ∀ t, (name ++ t).head?.any isBlank = false := by
    intro t
    rwa [List.head?_append_of_ne_nil _ hname]
  have hsame : ∀ {g' after}, IsGap g' → g ++ (name ++ rest) = g' ++ (name ++ after) → g = g' ∧ rest = after := by
    intro g' after hg' heq
    obtain ⟨hgap, hafter⟩ := append_inj_of_class hg.2 hg'.2 (hhead _) (hhead _) heq
    exact ⟨hgap, List.append_cancel_left hafter⟩
  rw [mem_ends_declared hname]
  constructor
  · rintro ⟨g', htakes, hg', -⟩
    have hafter := htakes.after
    simp only [List.append_assoc] at hafter
    obtain ⟨rfl, rfl⟩ := hsame hg' (List.append_cancel_left hafter)
    exact htakes.unique ⟨by simp, rfl⟩
  · rintro rfl
    obtain ⟨g', after, heq, hg', hleft, hend⟩ := hplace
    obtain ⟨rfl, rfl⟩ := hsame hg' (List.append_cancel_left (List.append_cancel_left heq))
    exact ⟨g, ⟨by simp, rfl⟩, hg, by simpa using hleft, hend⟩

/-- **The declaration is read at its place.** -/
theorem seek_declared (hg : IsGap g) (hname : name ≠ []) (hblank : name.head?.any isBlank = false)
    (honly : ∀ before, DeclaredAfter (pre ++ ("class".toList ++ (g ++ (name ++ rest)))) name before ↔ before = pre) :
    seek ((declared name).run k) [] (pre ++ ("class".toList ++ (g ++ (name ++ rest)))) =
      k ⟨("class".toList ++ (g ++ name)).reverse ++ pre.reverse, rest⟩ := by
  have hmem : ∀ {d}, d ∈ (declared name).ends ⟨pre.reverse, "class".toList ++ (g ++ (name ++ rest))⟩ ↔ d = _ :=
    mem_ends_declared_iff_eq hg hname hblank ((honly pre).2 rfl)
  have hhere : (declared name).run k ⟨pre.reverse, "class".toList ++ (g ++ (name ++ rest))⟩ =
      k ⟨("class".toList ++ (g ++ name)).reverse ++ pre.reverse, rest⟩ :=
    run_of_only (hmem.2 rfl) fun e he hne => absurd (hmem.1 he) hne
  rw [← hhere]
  apply seek_only
  · simp [Cursor.text]
  · rintro ⟨before, after⟩ hc hne
    rw [run_eq_none_iff]
    intro d hd
    have hdeclared := declaredAfter_of_mem_ends hname hd
    rw [hc, honly] at hdeclared
    -- then it is the same place
    refine absurd ?_ hne
    simp only [Cursor.text] at hc hdeclared
    rw [hdeclared] at hc
    rw [← hdeclared, List.reverse_reverse, List.append_cancel_left hc]

end

/-! ## A file -/

section

variable {name content : List Char}

theorem parent_eq : Declaration.parent name content =
    (seek ((declared name).run ((optional parameterList).run baseName)) [] content).map String.ofList := by
  rw [Declaration.parent, capture_typeName]
  rfl

theorem interfaces_eq : Declaration.interfaces name content =
    (seek ((declared name).run ((optional parameterList).run interfaceText)) [] content).elim ∅ typeNames := by
  have hcapture : (Declaration.implementsLead name).capture (some1 Declaration.notOpeningBrace) content =
      seek ((declared name).run ((optional parameterList).run interfaceText)) [] content := rfl
  rw [Declaration.interfaces, hcapture]
  cases seek ((declared name).run ((optional parameterList).run interfaceText)) [] content <;> rfl

end

/-- **Class headers.** Where the word `class` and the name of the file's class, which starts with no white space, follow
each other at one place only, and a header is written there, the class is read to extend the one the header names, if it
names one, and to implement what its list names, if it has one. -/
theorem headers_read (f : SourceFile) (h : Header) (pre body : List Char)
    (htext : f.content.toList = pre ++ h.text f.className.toList body)
    (hname : f.className.toList.head?.any isBlank = false)
    (honly : ∀ before, DeclaredAfter f.content.toList f.className.toList before ↔ before = pre) :
    f.readClass.parent = h.base.map (fun b => String.ofList b.name) ∧
    f.readClass.interfaces = h.interfaces.elim ∅ fun l => typeNames (l.list ++ h.close) := by
  have hseek : ∃ before, ∀ k : Cursor → Option (List Char),
      seek ((declared f.className.toList).run k) [] f.content.toList =
        k ⟨before, h.parameters.elim [] TypeParameters.text ++ h.clauses body⟩ := by
    rw [htext] at honly ⊢
    exact ⟨_, fun k => seek_declared h.isGap f.className_ne_nil hname honly⟩
  obtain ⟨before, hseek⟩ := hseek
  have hparent : f.readClass.parent = _ := parent_eq
  have hinterfaces : f.readClass.interfaces = _ := interfaces_eq
  constructor
  · rw [hparent, hseek, h.optional_run_baseName, Option.map_map]
    rfl
  · rw [hinterfaces, hseek, h.optional_run_interfaceText, Option.elim_map]
    rfl

/-- ` <T extends Set<T>>` -/
def boundedParameters : TypeParameters where
  gap := [' ']
  inner := "T extends Set<T".toList ++ ['>']
  blank := by simp; decide
  braceless := by decide
  enclosed := by
    intro u v h
    obtain ⟨-, -, rfl⟩ := (List.append_cons_inj_of_notMem (by decide) (by simp)).1 h
    exact ⟨not_opens_of_head? rfl, not_opens_of_head? rfl⟩

/-- `class Box <T extends Set<T>> extends Base<K, V<W>> implements A, B<K>`, with the class's name left out -/
def boundedHeader : Header where
  gap := [' ']
  parameters := some boundedParameters
  base := some
    { gap := [' '], space := [' '], name := "Base".toList, arguments := "<K, V<W>>".toList
      isGap := by simp [IsGap]; decide
      isSpace := by simp [IsGap]; decide
      named := ⟨'B', "ase".toList, by decide, by decide, List.all_eq_true.1 (by decide)⟩
      bracketed := Or.inr ⟨"K, V<W>".toList, by decide⟩
      braceless := by decide
      unlisted := fun h => absurd (h.subset (by simp)) (by decide : 'i' ∉ _) }
  interfaces := some
    { gap := [' '], space := ['\t'], list := "A, B<K".toList ++ ['>']
      isGap := by simp [IsGap]; decide
      isSpace := by simp [IsGap]; decide
      starts := ⟨'A', _, rfl, by decide⟩
      braceless := by decide
      underived := by
        intro u v h
        obtain ⟨-, -, rfl⟩ := (List.append_cons_inj_of_notMem (by decide) (by simp)).1 h
        exact not_opens_of_head? rfl }
  close := ['\n']
  isGap := by simp [IsGap]; decide
  blank := by simp; decide

theorem headers_read_bounded :
    let f : SourceFile := ⟨"src/Box.java",
      "final class Box <T extends Set<T>> extends Base<K, V<W>> implements\tA, B<K>\n\x7b T t; \x7d", by decide⟩
    f.readClass.parent = some "Base" ∧ f.readClass.interfaces = typeNames "A, B<K>\n".toList := by
  intro f
  have htext : f.content.toList = "final ".toList ++ boundedHeader.text f.className.toList " T t; \x7d".toList := by
    decide +kernel
  have honly : ∀ before, DeclaredAfter f.content.toList f.className.toList before ↔ before = "final ".toList := by
    intro before
    rw [htext]
    constructor
    · rintro ⟨g, after, heq, -⟩
      -- no other place has the first letter of the keyword
      have hplace : "final ".toList ++ 'c' :: (boundedHeader.text f.className.toList " T t; \x7d".toList).tail =
          before ++ 'c' :: ("lass".toList ++ (g ++ (f.className.toList ++ after))) := heq
      exact ((List.append_cons_inj_of_notMem (by decide) (by decide +kernel)).1 hplace).1.symm
    · rintro rfl
      exact ⟨boundedHeader.gap, boundedParameters.text ++ boundedHeader.clauses " T t; \x7d".toList, rfl,
        boundedHeader.isGap, by decide, by decide +kernel⟩
  exact headers_read f boundedHeader _ _ htext (by decide +kernel) honly

end ClassAtlas.Source
