/-
Shell lines and the white space in them.

A line is a word, white space and an argument, with white space around them. What it commands does not depend on this
white space, with one exception: behind `show file` the argument is found only if a plain space comes first. The first
word is cut off at any white space, the second is looked for together with a space.

- `Spacing`, `Gap`, `Argument`: what can stand between the words, and what a command is about.
- `trim_line`, `firstWord_line`: how a line is taken apart, whatever white space is in it.
- `parseShow_name`, `parseShow_file`: what follows `show`.
- `commands_read_across_blanks`: what each line commands. `file_unread_after_tab`: the exception, at a line.
-/
import ClassAtlas.CommandLine.ShellCommand
import ClassAtlas.Proofs.Text.Words

namespace ClassAtlas.CommandLine.ShellCommand

open ClassAtlas.Report ClassAtlas.Text

/-! ## Lines -/

/-- white space, or nothing -/
structure Spacing where
  text : String
  blank : text.toList.all isBlank = true

/-- white space between two words -/
structure Gap extends Spacing where
  nonempty : text ≠ ""

/-- what a command is about: not empty, and without white space at its ends -/
structure Argument where
  text : String
  nonempty : text ≠ ""
  trimmed : Trimmed text.toList

theorem Spacing.isBlank_of_mem (s : Spacing) : ∀ c ∈ s.text.toList, isBlank c = true := List.all_eq_true.1 s.blank

theorem Gap.exists_cons (g : Gap) : ∃ b r, g.text.toList = b :: r ∧ isBlank b = true := by
  obtain ⟨b, r, hg⟩ := List.exists_cons_of_ne_nil (mt String.toList_eq_nil_iff.1 g.nonempty)
  exact ⟨b, r, hg, g.isBlank_of_mem b (by rw [hg]; exact List.mem_cons_self)⟩

variable {word rest : List Char}

/-- a word, white space and a text without white space at its ends -/
theorem trimmed_line (hword : IsWord word) (hne : rest ≠ []) (hrest : Trimmed rest) (g : List Char) :
    Trimmed (word ++ (g ++ rest)) := by
  refine ⟨fun c hc => ?_, fun c hc => ?_⟩
  · rw [List.head?_append_of_ne_nil _ hword.1] at hc
    exact hword.2 c (List.mem_of_head? hc)
  · rw [List.getLast?_append_of_ne_nil _ (List.append_ne_nil_of_right_ne_nil g hne),
      List.getLast?_append_of_ne_nil _ hne] at hc
    exact hrest.2 c hc

theorem trim_gap_append (hrest : Trimmed rest) (gap : Gap) : trim (gap.text.toList ++ rest) = rest := by
  have hnone : ∀ c ∈ ([] : List Char), isBlank c = true := by simp
  have hcut := trim_blanks gap.isBlank_of_mem hrest hnone
  rwa [List.append_nil] at hcut

theorem firstWord_line (hword : IsWord word) (hrest : Trimmed rest) (gap : Gap) :
    firstWord (word ++ (gap.text.toList ++ rest)) = (word, rest) := by
  have hletters : ∀ c ∈ word, (!isBlank c) = true := fun c hc => by simp [hword.2 c hc]
  have htrim := trim_gap_append hrest gap
  rw [firstWord, List.takeWhile_append_of_pos hletters, List.dropWhile_append_of_pos hletters]
  -- the gap stops both
  obtain ⟨b, r, hgap, hb⟩ := gap.exists_cons
  rw [hgap] at htrim ⊢
  rw [List.cons_append, List.takeWhile_cons_of_neg (by simp [hb]), List.dropWhile_cons_of_neg (by simp [hb]),
    List.append_nil, ← List.cons_append, htrim]

/-- a word, white space and more, with white space around them -/
def line (before : Spacing) (word : String) (gap : Gap) (rest : String) (after : Spacing) : String :=
  before.text ++ word ++ gap.text ++ rest ++ after.text

theorem trim_line {word rest : String} (hword : IsWord word.toList) (hne : rest ≠ "") (hrest : Trimmed rest.toList)
    (before after : Spacing) (gap : Gap) :
    trim (line before word gap rest after).toList = word.toList ++ (gap.text.toList ++ rest.toList) := by
  have htrimmed := trimmed_line hword (mt String.toList_eq_nil_iff.1 hne) hrest gap.text.toList
  simp only [line, String.toList_append]
  rw [← trim_blanks before.isBlank_of_mem htrimmed after.isBlank_of_mem]
  simp only [List.append_assoc]

/-! ## Folders -/

theorem readFolder_argument (a : Argument) :
    readFolder a.text = some (String.ofList (a.text.toList.map fun c => if c = '\\' then '/' else c)) := by
  have hne : a.text.toList.isEmpty = false := by simpa using a.nonempty
  simp only [readFolder, a.trimmed.trim_eq, hne, swap, beq_iff_eq]
  rfl

/-! ## What follows `show` -/

/-- a name with each of its letters as it is or in upper case -/
def InAnyCase (name text : String) : Prop := List.Forall₂ (fun c d => d = c ∨ d = c.toUpper) name.toList text.toList

theorem letters_name (v : ViewChoice) :
    ∀ c ∈ v.name.toList, ∀ d, d = c ∨ d = c.toUpper → d.toLower = c ∧ isBlank d = false := by
  have hletters : (v.name.toList.all fun c => c.toLower == c && c.toUpper.toLower == c && !isBlank c &&
      !isBlank c.toUpper) = true := by
    cases v with
    | only w => cases w <;> decide
    | all => decide
  intro c hc d hd
  have hletter := List.all_eq_true.1 hletters c hc
  simp only [Bool.and_eq_true, beq_iff_eq, Bool.not_eq_true', and_assoc] at hletter
  obtain ⟨hlower, hupper, hblank, hblankUpper⟩ := hletter
  rcases hd with rfl | rfl
  · exact ⟨hlower, hblank⟩
  · exact ⟨hupper, hblankUpper⟩

namespace InAnyCase

variable {v : ViewChoice} {text : String}

theorem letters (h : InAnyCase v.name text) :
    text.toList.map Char.toLower = v.name.toList ∧ ∀ d ∈ text.toList, isBlank d = false := by
  have hletters := letters_name v
  rw [InAnyCase] at h
  generalize v.name.toList = name at h hletters
  generalize text.toList = s at h
  induction h with
  | nil => exact ⟨rfl, by simp⟩
  | cons hd _ ih =>
    obtain ⟨hlower, hblank⟩ := hletters _ List.mem_cons_self _ hd
    obtain ⟨hlowers, hblanks⟩ := ih fun c hc => hletters c (List.mem_cons_of_mem _ hc)
    exact ⟨by rw [List.map_cons, hlower, hlowers], List.forall_mem_cons.2 ⟨hblank, hblanks⟩⟩

theorem nonempty (h : InAnyCase v.name text) : text ≠ "" := by
  rintro rfl
  have hnil : v.name.toList = [] := h.letters.1.symm
  cases v with
  | only w => cases w <;> cases hnil
  | all => cases hnil

end InAnyCase

theorem ofNameAnyCase?_eq_some {v : ViewChoice} {s : List Char} (h : s.map Char.toLower = v.name.toList) :
    ViewChoice.ofNameAnyCase? s = some v := by
  simp only [ViewChoice.ofNameAnyCase?, sameIgnoringCase, h]
  cases v with
  | only w => cases w <;> decide
  | all => decide

/-- no view is called like `file` -/
theorem ofNameAnyCase?_eq_none {s : List Char} (h : s.head? = some 'f') : ViewChoice.ofNameAnyCase? s = none := by
  rw [ViewChoice.ofNameAnyCase?, List.find?_eq_none]
  intro v _ hsame
  have hhead : (v.name.toList.map Char.toLower).head? = some 'f' := by
    rw [beq_iff_eq.1 hsame, List.head?_map, h]
    rfl
  cases v with
  | only w => cases w <;> exact absurd hhead (by decide)
  | all => exact absurd hhead (by decide)

theorem parseShow_name {v : ViewChoice} {text : String} (h : InAnyCase v.name text) (line : List Char) :
    parseShow line text.toList = .show v := by
  have hview : ViewChoice.ofNameAnyCase? text.toList = some v := ofNameAnyCase?_eq_some h.letters.1
  have hhead : text.toList.head? ≠ some 'f' := by
    intro hf
    rw [ofNameAnyCase?_eq_none hf] at hview
    cases hview
  have hfile : ¬ (text.toList == "file".toList || "file ".toList.isPrefixOf text.toList) = true := by
    rw [Bool.or_eq_true, beq_iff_eq, List.isPrefixOf_iff_prefix]
    rintro (heq | ⟨r, hr⟩)
    · exact hhead (by rw [heq]; rfl)
    · exact hhead (by rw [← hr]; rfl)
  rw [parseShow, if_neg (by simpa using h.nonempty), if_neg hfile, hview]

theorem file_prefix_iff {s : List Char} : "file ".toList.isPrefixOf ("file".toList ++ s) = true ↔ s.head? = some ' ' := by
  have hlead : "file ".toList = "file".toList ++ [' '] := rfl
  rw [List.isPrefixOf_iff_prefix, hlead, List.prefix_append_right_inj]
  cases s with
  | nil => simp
  | cons b r => simp [eq_comm]

theorem parseShow_file (gap : Gap) (a : Argument) (line : List Char) :
    parseShow line ("file".toList ++ (gap.text.toList ++ a.text.toList)) =
      if gap.text.toList.head? = some ' ' then .showFile a.text else .unknown (String.ofList line) := by
  have hgap : gap.text.toList ≠ [] := mt String.toList_eq_nil_iff.1 gap.nonempty
  have hlonger : ("file".toList ++ (gap.text.toList ++ a.text.toList) == "file".toList) = false := by
    rw [beq_eq_false_iff_ne, Ne, List.append_right_eq_self]
    exact List.append_ne_nil_of_left_ne_nil hgap _
  have hlead : "file ".toList.isPrefixOf ("file".toList ++ (gap.text.toList ++ a.text.toList)) = true ↔
      gap.text.toList.head? = some ' ' := by
    rw [file_prefix_iff, List.head?_append_of_ne_nil _ hgap]
  rw [parseShow, if_neg (by exact Bool.false_ne_true), hlonger, Bool.false_or]
  by_cases hspace : gap.text.toList.head? = some ' '
  · rw [if_pos (hlead.2 hspace), if_pos hspace]
    have hdrop : ("file".toList ++ (gap.text.toList ++ a.text.toList)).drop 4 = gap.text.toList ++ a.text.toList := rfl
    rw [hdrop, trim_gap_append a.trimmed, String.ofList_toList]
  · rw [if_neg (mt hlead.1 hspace), if_neg hspace, ofNameAnyCase?_eq_none rfl]

/-! ## Words that are no commands -/

/-- the words that commands start with -/
def commandWords : List String :=
  ["analyze", "open", "reload", "clear", "show", "folder", "help", "?", "exit", "quit"]

theorem parse_unknown {text : String} {w : List Char} {ws : List (List Char)} (h : words text.toList = w :: ws)
    (hw : String.ofList w ∉ commandWords) : parse text = .unknown (String.ofList (trim text.toList)) := by
  have hne : trim text.toList ≠ [] := by
    intro hnil
    rw [← words_trim, hnil] at h
    cases h
  have hfirst : (trim text.toList).takeWhile (fun c => !isBlank c) = w := by
    rw [← words_trim, words_eq_cons hne (trimmed_trim _)] at h
    exact (List.cons.inj h).1
  have hempty : String.ofList w ≠ "" := by
    have hmem : w ∈ words text.toList := by rw [h]; exact List.mem_cons_self
    exact mt String.ofList_eq_empty_iff.1 (of_mem_segments hmem).1
  simp only [parse, firstWord, hfirst]
  split <;> simp_all [commandWords]

/-! ## Commands -/

section Commands

variable (before after : Spacing) (gap gap' : Gap) (a : Argument)

theorem parse_analyze {word : String} (h : word ∈ ["analyze", "open"]) :
    parse (line before word gap a.text after) = .analyze a.text := by
  have hword : IsWord word.toList := by
    rcases List.mem_pair.1 h with rfl | rfl <;> decide
  have hline := trim_line hword a.nonempty a.trimmed before after gap
  have hfirst := firstWord_line hword a.trimmed gap
  rcases List.mem_pair.1 h with rfl | rfl <;> simp only [parse, hline, hfirst, String.ofList_toList]

theorem parse_folder :
    parse (line before "folder" gap a.text after) =
      .folder (some (String.ofList (a.text.toList.map fun c => if c = '\\' then '/' else c))) := by
  have hword : IsWord "folder".toList := by decide
  simp only [parse, trim_line hword a.nonempty a.trimmed, firstWord_line hword a.trimmed, String.ofList_toList,
    readFolder_argument]

theorem parse_show {rest : String} (hne : rest ≠ "") (hrest : Trimmed rest.toList) :
    parse (line before "show" gap rest after) =
      parseShow ("show".toList ++ (gap.text.toList ++ rest.toList)) rest.toList := by
  have hword : IsWord "show".toList := by decide
  simp only [parse, trim_line hword hne hrest, firstWord_line hword hrest, String.ofList_toList]

theorem parse_show_name {v : ViewChoice} {name : String} (h : InAnyCase v.name name) :
    parse (line before "show" gap name after) = .show v := by
  rw [parse_show before after gap h.nonempty (trimmed_of_forall h.letters.2), parseShow_name h]

theorem parse_show_file :
    parse (line before "show" gap ("file" ++ gap'.text ++ a.text) after) =
      if gap'.text.toList.head? = some ' ' then .showFile a.text
      else .unknown ("show" ++ gap.text ++ ("file" ++ gap'.text ++ a.text)) := by
  have hword : IsWord "file".toList := by decide
  have hne : a.text.toList ≠ [] := mt String.toList_eq_nil_iff.1 a.nonempty
  have hrest : ("file" ++ gap'.text ++ a.text).toList = "file".toList ++ (gap'.text.toList ++ a.text.toList) := by
    rw [String.toList_append, String.toList_append, List.append_assoc]
  have htrimmed : Trimmed ("file" ++ gap'.text ++ a.text).toList := by
    rw [hrest]
    exact trimmed_line hword hne a.trimmed _
  have hnonempty : "file" ++ gap'.text ++ a.text ≠ "" := by
    rw [Ne, ← String.toList_eq_nil_iff, hrest]
    exact List.append_ne_nil_of_left_ne_nil hword.1 _
  have hline : String.ofList ("show".toList ++ (gap.text.toList ++ ("file" ++ gap'.text ++ a.text).toList)) =
      "show" ++ gap.text ++ ("file" ++ gap'.text ++ a.text) := by
    rw [← String.toList_inj, String.toList_ofList]
    simp only [String.toList_append, List.append_assoc]
  have hshown := parseShow_file gap' a ("show".toList ++ (gap.text.toList ++ ("file" ++ gap'.text ++ a.text).toList))
  rw [← hrest, hline] at hshown
  rw [parse_show before after gap hnonempty htrimmed, hshown]

end Commands

/-- **Commands are read across white space.** Whatever white space stands around and between the words of a line, a line
that starts with `analyze`, `open`, `folder` or `show` and goes on with an argument, or with the name of a view in any
case, is the command it names, and a line that starts with no word of a command is unknown. Behind `show file` the
argument is read if the white space there starts with a space, else the line is unknown. -/
theorem commands_read_across_blanks (before after : Spacing) (gap gap' : Gap) (a : Argument) :
    (∀ word ∈ ["analyze", "open"], parse (line before word gap a.text after) = .analyze a.text) ∧
      parse (line before "folder" gap a.text after) =
        .folder (some (String.ofList (a.text.toList.map fun c => if c = '\\' then '/' else c))) ∧
      (∀ (v : ViewChoice) (name : String), InAnyCase v.name name → parse (line before "show" gap name after) = .show v) ∧
      (parse (line before "show" gap ("file" ++ gap'.text ++ a.text) after) =
        if gap'.text.toList.head? = some ' ' then .showFile a.text
        else .unknown ("show" ++ gap.text ++ ("file" ++ gap'.text ++ a.text))) ∧
      ∀ (text : String) (w : List Char) (ws : List (List Char)), words text.toList = w :: ws →
        String.ofList w ∉ commandWords → parse text = .unknown (String.ofList (trim text.toList)) := by
  exact ⟨fun word hword => parse_analyze before after gap a hword, parse_folder before after gap a,
    fun v name hname => parse_show_name before after gap hname, parse_show_file before after gap gap' a,
    fun text w ws => parse_unknown⟩

/-- a space, a tab and an ideographic space -/
def mixedGap : Gap := ⟨⟨" \t\u3000", by decide⟩, by decide⟩

theorem commands_read_mixed :
    parse " \t\u3000open \t\u3000src/My Order.java \t\u3000" = .analyze "src/My Order.java" ∧
      parse " \t\u3000show \t\u3000file \t\u3000src/My Order.java \t\u3000" = .showFile "src/My Order.java" ∧
      (InAnyCase "dia" "DiA" ∧ parse " \t\u3000show \t\u3000DiA \t\u3000" = .show (.only .dia)) ∧
      words "shows\tall ".toList = ["shows".toList, "all".toList] ∧ "shows" ∉ commandWords ∧
      parse "shows\tall " = .unknown "shows\tall" := by
  obtain ⟨hanalyze, -, hview, hfile, hunknown⟩ := commands_read_across_blanks mixedGap.toSpacing mixedGap.toSpacing mixedGap
    mixedGap ⟨"src/My Order.java", by decide, by decide +kernel⟩
  have hname : InAnyCase "dia" "DiA" := .cons (by decide) (.cons (by decide) (.cons (by decide) .nil))
  have hwords : words "shows\tall ".toList = ["shows".toList, "all".toList] := by decide +kernel
  exact ⟨hanalyze "open" (by decide), hfile, ⟨hname, hview (.only .dia) "DiA" hname⟩, hwords, by decide,
    hunknown "shows\tall " _ _ hwords (by decide)⟩

/-- behind `show file` a tab is not read as the space that it is elsewhere -/
theorem file_unread_after_tab :
    parse "show file\tsrc/shop/Order.java" ≠ .showFile "src/shop/Order.java" ∧
      parse "show\tfile src/shop/Order.java" = .showFile "src/shop/Order.java" := by
  decide +kernel

end ClassAtlas.CommandLine.ShellCommand
