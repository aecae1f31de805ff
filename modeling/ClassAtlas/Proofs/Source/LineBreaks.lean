/-
Line breaks of a source file, whatever their kind.

Sizes and uses are read line by line, and a carriage return ends a line as a line feed does. The declaration of the class
is looked for in the whole text, by patterns that may cross lines.

- line feeds for carriage returns: no pattern tells the two apart, as long as the class name holds neither, so all that is
  read from a file stays as it is (`readClass_toFeeds`);
- a line feed for a pair of the two: a pair encloses an empty line, which counts for nothing, and no declaration is found
  inside a pair. The list after `implements` is the one exception: it may start with the line feed of a pair.

`line_breaks_immaterial` says both of any files.
-/
import ClassAtlas.Proofs.Analysis
import ClassAtlas.Proofs.Text.Identifiers
import ClassAtlas.Proofs.Text.LineFeeds
import ClassAtlas.Proofs.Text.SingleBreaks

namespace ClassAtlas.Source

open ClassAtlas.Text ClassAtlas.Text.Pattern ClassAtlas.Collect

/-- the file with its content rewritten -/
def SourceFile.rewrite (g : List Char → List Char) (f : SourceFile) : SourceFile :=
  { f with content := String.ofList (g f.content.toList) }

/-! ## Line feeds for carriage returns -/

theorem lines_toFeeds (s : List Char) : lines (s.map toFeed) = lines s := by
  simp only [lines]
  induction s with
  | nil => rfl
  | cons c s ih =>
    have hbreak : isLineBreak (toFeed c) = isLineBreak c := class_toFeed rfl c
    simp only [List.map_cons, List.splitOnP_cons_eq_if_modifyHead, hbreak, ih]
    by_cases hc : c = '\r'
    · subst hc
      rfl
    · rw [toFeed_eq_self hc]

theorem splitOnP_toFeeds (sep : Char → Bool) (h : sep '\r' = sep '\n') (s : List Char) :
    (s.map toFeed).splitOnP sep = (s.splitOnP sep).map (List.map toFeed) := by
  induction s with
  | nil => rfl
  | cons c s ih =>
    simp only [List.map_cons, List.splitOnP_cons_eq_if_modifyHead, class_toFeed h, ih]
    split
    · rfl
    · cases s.splitOnP sep <;> rfl

theorem dropWhile_toFeeds {ok : Char → Bool} (h : ok '\r' = ok '\n') (s : List Char) :
    (s.map toFeed).dropWhile ok = (s.dropWhile ok).map toFeed := by
  have hcomp : ok ∘ toFeed = ok := funext (class_toFeed h)
  rw [List.dropWhile_map, hcomp]

theorem trim_toFeeds (s : List Char) : trim (s.map toFeed) = (trim s).map toFeed := by
  have hblank : isBlank '\r' = isBlank '\n' := by decide
  simp only [trim, trimEnd, trimStart, dropEndWhile, dropWhile_toFeeds hblank, ← List.map_reverse]

theorem afterLast_toFeeds (sep : Char → Bool) (h : sep '\r' = sep '\n') (s : List Char) :
    afterLast sep (s.map toFeed) = (afterLast sep s).map toFeed := by
  have hcomp : (fun c => !sep c) ∘ toFeed = fun c => !sep c := funext fun c => by simp [class_toFeed h]
  simp only [afterLast, ← List.map_reverse, List.takeWhile_map, hcomp]

/-- a character of a type name is no carriage return -/
theorem map_toFeed_of_all {s : List Char} (h : s.all isTypeNameChar = true) : s.map toFeed = s := by
  have hfixed : ∀ c ∈ s, toFeed c = c := by
    intro c hc
    refine toFeed_eq_self fun hreturn => ?_
    have hname : isTypeNameChar c = true := List.all_eq_true.1 h c hc
    rw [hreturn] at hname
    exact absurd hname (by decide)
  rw [List.map_congr_left hfixed, List.map_id']

theorem simpleTypeName?_toFeeds (item : List Char) : simpleTypeName? (item.map toFeed) = simpleTypeName? item := by
  have hclass : isTypeNameChar ∘ toFeed = isTypeNameChar := funext (class_toFeed (by decide))
  simp only [simpleTypeName?, trim_toFeeds, afterLast_toFeeds (· == '.') rfl, List.isEmpty_map,
    List.all_map, hclass]
  split
  · rename_i h
    simp only [Bool.and_eq_true] at h
    rw [map_toFeed_of_all h.2]
  · rfl

theorem dropTypeArguments_toFeeds (s : List Char) :
    dropTypeArguments (s.map toFeed) = (dropTypeArguments s).map toFeed := by
  have hreplace : ∀ t, typeArguments.replaceAll [] (t.map toFeed) = (typeArguments.replaceAll [] t).map toFeed :=
    fun t => replaceAll_toFeeds (by simp [typeArguments, all, BreakBlind]) rfl t
  fun_induction dropTypeArguments s with
  | case1 s t hlt ih =>
    rw [dropTypeArguments, hreplace, List.length_map, List.length_map, if_pos hlt]
    exact ih
  | case2 s t hle => rw [dropTypeArguments, hreplace, List.length_map, List.length_map, if_neg hle]

theorem typeNames_toFeeds (s : List Char) : typeNames (s.map toFeed) = typeNames s := by
  have hcomment : comment.replaceAll [' '] (s.map toFeed) = (comment.replaceAll [' '] s).map toFeed :=
    replaceAll_toFeeds (by simp [comment, all, text, BreakBlind, isLineBreak]) rfl s
  have hsimple : simpleTypeName? ∘ List.map toFeed = simpleTypeName? := funext simpleTypeName?_toFeeds
  simp only [typeNames, hcomment, dropTypeArguments_toFeeds, splitOnP_toFeeds (· == ',') rfl,
    List.filterMap_map, hsimple]

theorem takeWhile_toFeeds (ok : Char → Bool) (h : ok '\r' = false ∧ ok '\n' = false) (s : List Char) :
    (s.map toFeed).takeWhile ok = s.takeWhile ok := by
  induction s with
  | nil => rfl
  | cons c s ih =>
    have hclass : ok (toFeed c) = ok c := class_toFeed (h.1.trans h.2.symm) c
    by_cases hc : c = '\r'
    · subst hc
      simp [hclass, h]
    · simp [List.takeWhile_cons, toFeed_eq_self hc, ih]

theorem identifierAt_toFeeds (s : List Char) : identifierAt (s.map toFeed) = identifierAt s := by
  cases s with
  | nil => rfl
  | cons c s =>
    have hupper : isUpperAscii (toFeed c) = isUpperAscii c := class_toFeed (by decide) c
    simp only [List.map_cons, identifierAt, hupper, takeWhile_toFeeds isIdentChar (by decide)]
    by_cases hc : c = '\r'
    · subst hc
      rfl
    · rw [toFeed_eq_self hc]

namespace Declaration

section

variable {name : List Char} (hname : '\r' ∉ name ∧ '\n' ∉ name)

include hname

theorem breakBlind_named {keyword : List Char} (hkeyword : '\r' ∉ keyword ∧ '\n' ∉ keyword) :
    (named keyword name).BreakBlind :=
  ⟨breakBlind_text hkeyword, breakBlind_gap1, breakBlind_text hname, trivial, trivial⟩

theorem breakBlind_classHeader : (classHeader name).BreakBlind := by
  have hparameters : (all [gap, char (· == '<'), few notOpeningBrace, char (· == '>')]).BreakBlind :=
    ⟨breakBlind_gap, rfl, rfl, rfl, trivial⟩
  exact ⟨trivial, breakBlind_named hname (by decide), hparameters, trivial⟩

theorem breakBlind_extendsLead : (extendsLead name).BreakBlind :=
  ⟨breakBlind_classHeader hname, breakBlind_gap1, breakBlind_text (by decide), breakBlind_gap1, trivial⟩

theorem breakBlind_implementsLead : (implementsLead name).BreakBlind := by
  have hextends : (all [gap1, text "extends".toList, gap1, few notOpeningBrace]).BreakBlind :=
    ⟨breakBlind_gap1, breakBlind_text (by decide), breakBlind_gap1, rfl, trivial⟩
  exact ⟨breakBlind_classHeader hname, hextends, breakBlind_gap1, breakBlind_text (by decide), breakBlind_gap1, trivial⟩

theorem isInterface_toFeeds (s : List Char) : isInterface name (s.map toFeed) = isInterface name s := by
  have hheader : (interfaceHeader name).BreakBlind := ⟨trivial, breakBlind_named hname (by decide)⟩
  exact occursIn_toFeeds hheader s

theorem isAbstract_toFeeds (s : List Char) : isAbstract name (s.map toFeed) = isAbstract name s := by
  have hheader : (abstractHeader name).BreakBlind :=
    ⟨trivial, breakBlind_text (by decide), breakBlind_gap1, breakBlind_named hname (by decide), trivial⟩
  exact occursIn_toFeeds hheader s

theorem parent_toFeeds (s : List Char) : parent name (s.map toFeed) = parent name s := by
  have hrun : ∀ d : Cursor, (extendsLead name).run (fun c => identifierAt c.after) d.toFeeds =
      ((extendsLead name).run (fun c => identifierAt c.after) d).map id :=
    fun d => run_toFeeds (breakBlind_extendsLead hname) (fun c => by simp [Cursor.toFeeds, identifierAt_toFeeds]) d
  simp only [parent, capture_typeName, seek_toFeeds hrun, Option.map_id_fun, id_eq]

theorem interfaces_toFeeds (s : List Char) : interfaces name (s.map toFeed) = interfaces name s := by
  have hlist : (some1 notOpeningBrace).BreakBlind := ⟨rfl, rfl⟩
  simp only [interfaces, capture_toFeeds (breakBlind_implementsLead hname) hlist]
  cases (implementsLead name).capture (some1 notOpeningBrace) s with
  | none => rfl
  | some list => exact typeNames_toFeeds list

end

end Declaration

theorem size_toFeeds (f : SourceFile) : (f.rewrite (swap '\r' '\n')).size = f.size := by
  simp only [SourceFile.size, SourceFile.rewrite, countLines, countBranches, String.toList_ofList, swap_eq_map_toFeed,
    lines_toFeeds]

/-- **Reading a class does not tell a carriage return from a line feed.** -/
theorem readClass_toFeeds {f : SourceFile} (hname : '\r' ∉ f.className.toList ∧ '\n' ∉ f.className.toList) :
    (f.rewrite (swap '\r' '\n')).readClass = f.readClass := by
  have hclassName : (f.rewrite (swap '\r' '\n')).className = f.className := rfl
  simp only [SourceFile.readClass, hclassName]
  simp only [SourceFile.rewrite, String.toList_ofList, swap_eq_map_toFeed, lines_toFeeds,
    Declaration.isInterface_toFeeds hname, Declaration.isAbstract_toFeeds hname, Declaration.parent_toFeeds hname,
    Declaration.interfaces_toFeeds hname]

/-! ## A line feed for a pair of the two -/

theorem takeWhile_singleBreaks (ok : Char → Bool) (h : ok '\r' = false ∧ ok '\n' = false) (s : List Char) :
    (singleBreaks s).takeWhile ok = s.takeWhile ok := by
  fun_induction singleBreaks s with
  | case1 => rfl
  | case2 r ih => simp [h]
  | case3 x r hx ih => simp [List.takeWhile_cons, ih]

theorem identifierAt_singleBreaks (s : List Char) : identifierAt (singleBreaks s) = identifierAt s := by
  fun_cases singleBreaks s with
  | case1 => rfl
  | case2 r => rfl
  | case3 x r hx => simp only [identifierAt, takeWhile_singleBreaks isIdentChar (by decide)]

/-- what follows `extends` and its white space is looked for at the same places, and not inside a pair -/
theorem identifierAt_agree : Agree (fun c => identifierAt c.after) fun c => identifierAt c.after := by
  intro c d h
  simp only [h.after, identifierAt_singleBreaks]

theorem identifierAt_failsInside : FailsInside fun c => identifierAt c.after := by
  intro ⟨before, after⟩ h
  cases after with
  | nil => rfl
  | cons x r =>
    obtain rfl : x = '\n' := Option.some.inj h.2
    rfl

namespace Declaration

section

variable {α : Type} {k k' : Cursor → Option α} {name : List Char} (hname : '\r' ∉ name ∧ '\n' ∉ name)

include hname

theorem named_agree {keyword : List Char} (hkeyword : '\r' ∉ keyword ∧ '\n' ∉ keyword) (hk : Agree k k') :
    Agree ((named keyword name).run k) ((named keyword name).run k') := by
  have hend : Agree (boundary.run k) (boundary.run k') := boundary_agree hk
  have hword : Agree ((text name).run (boundary.run k)) ((text name).run (boundary.run k')) := text_agree hname hend
  have hinside : FailsInside ((text name).run (boundary.run k)) := text_failsInside hname.2 boundary_failsInside
  exact text_agree hkeyword (some1_agree (by decide) hword hinside)

/-- what follows the header may well go on inside a pair: the type parameters and the name end outside of it -/
theorem classHeader_agree (hk : Agree k k') : Agree ((classHeader name).run k) ((classHeader name).run k') := by
  have hclose : Agree ((char (· == '>')).run k) ((char (· == '>')).run k') := char_agree (by decide) hk
  refine boundary_agree (named_agree hname (by decide) (optional_agree ?_ hk))
  refine many_agree (by decide) (char_agree (by decide) ?_) (char_failsInside (by decide))
  exact few_agree (by decide) hclose (char_failsInside (by decide))

theorem extendsLead_agree (hk : Agree k k') (hin : FailsInside k) :
    Agree ((extendsLead name).run k) ((extendsLead name).run k') := by
  have hgap : Agree (gap1.run k) (gap1.run k') := some1_agree (by decide) hk hin
  have hinside : FailsInside ((text "extends".toList).run (gap1.run k)) := char_failsInside (by decide)
  exact classHeader_agree hname (some1_agree (by decide) (text_agree (by decide) hgap) hinside)

theorem isInterface_singleBreaks (s : List Char) : isInterface name (singleBreaks s) = isInterface name s := by
  have hheader : ∀ k : Cursor → Option Unit, Agree k k →
      Agree ((interfaceHeader name).run k) ((interfaceHeader name).run k) :=
    fun k hk => boundary_agree (named_agree hname (by decide) hk)
  exact occursIn_singleBreaks hheader (fun k => boundary_failsInside) s

theorem isAbstract_singleBreaks (s : List Char) : isAbstract name (singleBreaks s) = isAbstract name s := by
  have hheader : ∀ k : Cursor → Option Unit, Agree k k →
      Agree ((abstractHeader name).run k) ((abstractHeader name).run k) := by
    intro k hk
    have hnamed : Agree ((named "class".toList name).run k) ((named "class".toList name).run k) :=
      named_agree hname (by decide) hk
    have hinside : FailsInside ((named "class".toList name).run k) := char_failsInside (by decide)
    exact boundary_agree (text_agree (by decide) (some1_agree (by decide) hnamed hinside))
  exact occursIn_singleBreaks hheader (fun k => boundary_failsInside) s

theorem parent_singleBreaks (s : List Char) : parent name (singleBreaks s) = parent name s := by
  have hlead := extendsLead_agree hname identifierAt_agree identifierAt_failsInside
  have hinside : FailsInside ((extendsLead name).run fun c => identifierAt c.after) := boundary_failsInside
  simp only [parent, capture_typeName, seek_singleBreaks hlead hinside]

end

end Declaration

/-! ## Empty lines -/

theorem filter_segments {p : List Char → Bool} (hp : p [] = false) (s : List Char) :
    (segments isLineBreak s).filter p = (lines s).filter p := by
  simp only [segments, lines, List.filter_filter]
  refine List.filter_congr fun l _ => ?_
  cases l with
  | nil => simp [hp]
  | cons c l => simp

theorem countLines_singleBreaks (s : List Char) : countLines (singleBreaks s) = countLines s := by
  simp only [countLines]
  rw [← filter_segments rfl, ← filter_segments rfl, segments_singleBreaks]

theorem flatMap_segments {β : Type} {g : List Char → List β} (hg : g [] = []) (s : List Char) :
    (segments isLineBreak s).flatMap g = (lines s).flatMap g := by
  simp only [segments, lines]
  induction s.splitOnP isLineBreak with
  | nil => rfl
  | cons l ls ih =>
    cases l with
    | nil => simp [hg, ih]
    | cons c l => simp [ih]

theorem usesOn_nil (own : List Char) : usesOn own [] = [] := by
  simp [usesOn, shownOn, occurrencesOn, matchesIn, scan]

theorem countBranches_singleBreaks (s : List Char) : countBranches (singleBreaks s) = countBranches s := by
  have hflat : ∀ t, countBranches t = ((lines t).flatMap fun l => branchKeyword.matchesIn l).length := by
    intro t
    rw [List.length_flatMap]
    rfl
  have hnil : branchKeyword.matchesIn [] = [] := by simp [matchesIn, scan]
  rw [hflat, hflat, ← flatMap_segments hnil, ← flatMap_segments hnil, segments_singleBreaks]

theorem size_singleBreaks (f : SourceFile) : (f.rewrite singleBreaks).size = f.size := by
  simp only [SourceFile.size, SourceFile.rewrite, String.toList_ofList, countLines_singleBreaks,
    countBranches_singleBreaks]

theorem usesOn_singleBreaks (own s : List Char) :
    (lines (singleBreaks s)).flatMap (usesOn own) = (lines s).flatMap (usesOn own) := by
  rw [← flatMap_segments (usesOn_nil own), ← flatMap_segments (usesOn_nil own), segments_singleBreaks]

/-- **Pairs made single change nothing of a class but its interfaces.** -/
theorem readClass_singleBreaks {f : SourceFile} (hname : '\r' ∉ f.className.toList ∧ '\n' ∉ f.className.toList) :
    (f.rewrite singleBreaks).readClass =
      { f.readClass with interfaces := (f.rewrite singleBreaks).readClass.interfaces } := by
  have hclassName : (f.rewrite singleBreaks).className = f.className := rfl
  simp only [SourceFile.readClass, hclassName]
  simp only [SourceFile.rewrite, String.toList_ofList, usesOn_singleBreaks, Declaration.isInterface_singleBreaks hname,
    Declaration.isAbstract_singleBreaks hname, Declaration.parent_singleBreaks hname]

-- the one exception: a list of interfaces that is nothing but the line feed of a pair
example : (Declaration.implementsLead "A".toList).capture (some1 Declaration.notOpeningBrace)
      "class A implements\r\n\x7b".toList = some ['\n'] ∧
    (Declaration.implementsLead "A".toList).capture (some1 Declaration.notOpeningBrace)
      (singleBreaks "class A implements\r\n\x7b".toList) = none := by decide

/-! ## Files -/

theorem readClasses_toFeeds {files : List SourceFile}
    (hnames : ∀ f ∈ files, '\r' ∉ f.className.toList ∧ '\n' ∉ f.className.toList) :
    readClasses (files.map (·.rewrite (swap '\r' '\n'))) = readClasses files := by
  rw [readClasses, List.map_map]
  exact List.map_congr_left fun f hf => readClass_toFeeds (hnames f hf)

/-- whether a class is read depends on its name alone -/
theorem tryReadClasses_toFeeds {files : List SourceFile} (refusal : String → Option String)
    (hnames : ∀ f ∈ files, '\r' ∉ f.className.toList ∧ '\n' ∉ f.className.toList) :
    tryReadClasses refusal (files.map (·.rewrite (swap '\r' '\n'))) = tryReadClasses refusal files := by
  induction files with
  | nil => rfl
  | cons f files ih =>
    have hrest := ih fun g hg => hnames g (List.mem_cons_of_mem f hg)
    have hread := readClass_toFeeds (hnames f List.mem_cons_self)
    have hname : (f.rewrite (swap '\r' '\n')).className = f.className := rfl
    simp only [tryReadClasses] at hrest
    simp only [tryReadClasses, List.map_cons, List.mapM_cons, hname, hread, hrest]

/-- what is read from files does not depend on how their lines are ended -/
structure BreaksImmaterial (files : List SourceFile) : Prop where
  /-- line feeds for carriage returns leave the sizes as they are, -/
  sizes : (files.map (·.rewrite (swap '\r' '\n'))).map (·.size) = files.map (·.size)
  /-- and all that is read of the classes, -/
  classes : readClasses (files.map (·.rewrite (swap '\r' '\n'))) = readClasses files
  /-- also where the patterns for some class names are refused, -/
  tried : ∀ refusal, tryReadClasses refusal (files.map (·.rewrite (swap '\r' '\n'))) = tryReadClasses refusal files
  /-- and so the whole analysis, with its coupling table and its diagram -/
  analysis : ∃ r, Analysis.ofFiles files = .ok r ∧
    Analysis.ofFiles (files.map (·.rewrite (swap '\r' '\n'))) = .ok r
  /-- a line feed for each pair leaves the sizes as they are, -/
  singleSizes : (files.map (·.rewrite singleBreaks)).map (·.size) = files.map (·.size)
  /-- and all of a class but its interfaces -/
  singleClasses : ∀ f ∈ files, (f.rewrite singleBreaks).readClass =
    { f.readClass with interfaces := (f.rewrite singleBreaks).readClass.interfaces }

/-- **Line breaks of any kind read alike.** For all files whose class names hold no line break. -/
theorem line_breaks_immaterial (files : List SourceFile)
    (hnames : ∀ f ∈ files, '\r' ∉ f.className.toList ∧ '\n' ∉ f.className.toList) : BreaksImmaterial files := by
  have hclasses := readClasses_toFeeds hnames
  have hsizes : (files.map (·.rewrite (swap '\r' '\n'))).map (·.size) = files.map (·.size) := by
    rw [List.map_map]
    exact List.map_congr_left fun f _ => size_toFeeds f
  refine ⟨hsizes, hclasses, fun refusal => tryReadClasses_toFeeds refusal hnames, ?_, ?_, ?_⟩
  · refine ⟨_, ofFiles_eq_ok files, ?_⟩
    rw [ofFiles_eq_ok, hsizes, hclasses]
  · rw [List.map_map]
    exact List.map_congr_left fun f _ => size_singleBreaks f
  · intro f hf
    exact readClass_singleBreaks (hnames f hf)

/-- an abstract class whose declaration, fields and branches are divided by breaks of all three kinds -/
def brokenOrder : SourceFile :=
  ⟨"src/Order.java", "abstract class\r\nOrder\rextends\r\n Base\r\x7b\n Item item;\r\n if (x) new Item();\r\x7d", by decide⟩

theorem line_breaks_immaterial_order :
    (∀ f ∈ [brokenOrder], '\r' ∉ f.className.toList ∧ '\n' ∉ f.className.toList) ∧ BreaksImmaterial [brokenOrder] :=
  ⟨by decide, line_breaks_immaterial [brokenOrder] (by decide)⟩

end ClassAtlas.Source
