/-
Which addresses name a folder.

An address is looked at twice, by a check of the whole text and by the reader of its parts, and the two decide on their own.
The check wants `github.com` somewhere in the text, the reader wants it as the host.

- `occursWithin_of_parse`: the host that the reader accepts is part of the text, so the check for it refuses no address
  that can be read.
- `folderAt_eq_ok_iff`: an address names a folder exactly if it holds no white space and reads as a folder.
- `Refused`: what is wrong first with an address; `folderAt_eq_error_iff`: an address is refused for just that.
-/
import ClassAtlas.Proofs.Text.Words
import ClassAtlas.Repository.Location

namespace ClassAtlas.Repository

open ClassAtlas.Text

/-! ## Parts of a text -/

theorem occursWithin_iff {needle s : List Char} : occursWithin needle s = true ↔ needle <:+: s := by
  induction s with
  | nil => simp [occursWithin]
  | cons c s ih => rw [occursWithin, Bool.or_eq_true, ih, List.isPrefixOf_iff_prefix, List.infix_cons_iff]

theorem infix_of_mem_segments {sep : Char → Bool} {s p : List Char} (hp : p ∈ segments sep s) : p <:+: s := by
  obtain ⟨before, after, hpiece⟩ := mem_splitOnP_iff.1 (List.mem_filter.1 hp).1
  exact ⟨before, after, hpiece.text.symm⟩

theorem dropScheme_suffix (s : List Char) : dropScheme s <:+ s := by
  have hlead : ∀ {lead r : List Char}, dropLead? lead s = some r → r <:+ s := by
    intro lead r h
    unfold dropLead? at h
    split_ifs at h
    cases h
    exact List.drop_suffix _ _
  unfold dropScheme
  split
  · rename_i r hr
    exact hlead hr
  · cases hr : dropLead? "http://".toList s with
    | none => exact List.suffix_rfl
    | some r => exact hlead hr

theorem infix_of_mem_addressParts {s p : List Char} (hp : p ∈ addressParts s) : p <:+: s :=
  (infix_of_mem_segments hp).trans ((List.takeWhile_prefix _).isInfix.trans (dropScheme_suffix s).isInfix)

/-! ## The host of an address -/

theorem host_of_parse {address : String} {l : Location} (h : Location.parse address = .ok l) :
    ∃ host ∈ addressParts (trim address.toList), isHost host = true := by
  simp only [Location.parse] at h
  split_ifs at h
  cases hparts : addressParts (trim address.toList) with
  | nil => rw [hparts] at h; cases h
  | cons host parts =>
    rw [hparts] at h
    refine ⟨host, List.mem_cons_self, ?_⟩
    by_contra hhost
    simp only [if_neg hhost] at h
    cases h

/-- in small letters every accepted host holds the name of the site -/
theorem infix_of_isHost {host : List Char} (h : isHost host = true) :
    "github.com".toList <:+: host.map Char.toLower := by
  simp only [isHost, sameIgnoringCase, Bool.or_eq_true, beq_iff_eq] at h
  rcases h with h | h <;> rw [h]
  · exact ⟨[], [], by decide⟩
  · exact ⟨"www.".toList, [], by decide⟩

/-- **What can be read passes the check for the site.** -/
theorem occursWithin_of_parse {address : String} {l : Location} (hblank : ∀ c ∈ address.toList, isBlank c = false)
    (h : Location.parse address = .ok l) :
    occursWithin "github.com".toList (address.toList.map Char.toLower) = true := by
  obtain ⟨host, hmem, hhost⟩ := host_of_parse h
  rw [trim_eq_self hblank] at hmem
  exact occursWithin_iff.2 ((infix_of_isHost hhost).trans ((infix_of_mem_addressParts hmem).map _))

/-! ## Folders -/

/-- an address without white space that reads as a folder -/
structure NamesFolder (address : String) (l : Location) : Prop where
  noBlank : ∀ c ∈ address.toList, isBlank c = false
  reads : Location.parse address = .ok l
  folder : l.isFile = false

/-- what is wrong first with an address -/
inductive Refused (address : String) : AddressFault → Prop where
  | blank (h : ∀ c ∈ address.toList, isBlank c = true) : Refused address .blank
  | innerBlank {b c : Char} (hb : b ∈ address.toList) (hblank : isBlank b = true) (hc : c ∈ address.toList)
      (hother : isBlank c = false) : Refused address .innerBlank
  | elsewhere {c : Char} (hc : c ∈ address.toList) (hblank : ∀ c ∈ address.toList, isBlank c = false)
      (hsite : ¬ "github.com".toList <:+: address.toList.map Char.toLower) : Refused address .elsewhere
  | unreadable {f : AddressFault} (hblank : ∀ c ∈ address.toList, isBlank c = false)
      (hsite : "github.com".toList <:+: address.toList.map Char.toLower) (h : Location.parse address = .error f) :
      Refused address f
  | file {l : Location} (hblank : ∀ c ∈ address.toList, isBlank c = false) (h : Location.parse address = .ok l)
      (hfile : l.isFile = true) : Refused address .notFolder

theorem folderAt_of_checkAddress {address : String} (h : checkAddress address = .ok ()) :
    folderAt address =
      match Location.parse address with
      | .error f => .error f
      | .ok l => if l.isFile then .error .notFolder else .ok l := by
  unfold folderAt
  rw [h]
  cases Location.parse address with
  | error f => rfl
  | ok l =>
    simp only [bind, Except.bind]
    split_ifs <;> rfl

/-- what the check finds, look by look -/
theorem checkAddress_eq (address : String) :
    checkAddress address =
      if address.toList.all isBlank then .error .blank
      else if address.toList.any isBlank then .error .innerBlank
      else if occursWithin "github.com".toList (address.toList.map Char.toLower) then .ok ()
      else .error .elsewhere := by
  have hblank : (trim address.toList).isEmpty = address.toList.all isBlank := by
    rw [Bool.eq_iff_iff, List.isEmpty_iff, trim_eq_nil_iff, List.all_eq_true]
  rw [checkAddress, hblank]

theorem not_any_isBlank {s : List Char} (h : ∀ c ∈ s, isBlank c = false) : ¬ s.any isBlank = true := by
  rw [List.any_eq_true]
  rintro ⟨c, hc, hblank⟩
  rw [h c hc] at hblank
  cases hblank

theorem not_all_isBlank {s : List Char} {c : Char} (hc : c ∈ s) (h : isBlank c = false) :
    ¬ s.all isBlank = true := by
  rw [List.all_eq_true]
  intro hall
  rw [hall c hc] at h
  cases h

theorem checkAddress_eq_ok {address : String} (hblank : ∀ c ∈ address.toList, isBlank c = false)
    (hsite : "github.com".toList <:+: address.toList.map Char.toLower) : checkAddress address = .ok () := by
  have hne : address.toList ≠ [] := by
    intro hnil
    rw [hnil, List.map_nil, List.infix_nil] at hsite
    exact absurd hsite (by decide)
  obtain ⟨c, hc⟩ := List.exists_mem_of_ne_nil _ hne
  rw [checkAddress_eq, if_neg (not_all_isBlank hc (hblank c hc)), if_neg (not_any_isBlank hblank),
    if_pos (occursWithin_iff.2 hsite)]

theorem folderAt_of_refused {address : String} {f : AddressFault} (h : Refused address f) :
    folderAt address = .error f := by
  have hstop : ∀ {f}, checkAddress address = .error f → folderAt address = .error f := by
    intro f hf
    unfold folderAt
    rw [hf]
    rfl
  cases h with
  | blank hall =>
    refine hstop ?_
    rw [checkAddress_eq, if_pos (List.all_eq_true.2 hall)]
  | @innerBlank b c hb hblank hc hother =>
    refine hstop ?_
    rw [checkAddress_eq, if_neg (not_all_isBlank hc hother), if_pos (List.any_eq_true.2 ⟨b, hb, hblank⟩)]
  | @elsewhere c hc hblank hsite =>
    refine hstop ?_
    rw [checkAddress_eq, if_neg (not_all_isBlank hc (hblank c hc)), if_neg (not_any_isBlank hblank),
      if_neg fun hwithin => hsite (occursWithin_iff.1 hwithin)]
  | unreadable hblank hsite h => rw [folderAt_of_checkAddress (checkAddress_eq_ok hblank hsite), h]
  | file hblank h hfile =>
    have hsite := occursWithin_iff.1 (occursWithin_of_parse hblank h)
    rw [folderAt_of_checkAddress (checkAddress_eq_ok hblank hsite), h]
    simp [hfile]

theorem folderAt_of_namesFolder {address : String} {l : Location} (h : NamesFolder address l) :
    folderAt address = .ok l := by
  have hsite := occursWithin_iff.1 (occursWithin_of_parse h.noBlank h.reads)
  rw [folderAt_of_checkAddress (checkAddress_eq_ok h.noBlank hsite), h.reads]
  simp [h.folder]

theorem refused_or_namesFolder (address : String) : (∃ f, Refused address f) ∨ ∃ l, NamesFolder address l := by
  by_cases hother : ∃ c ∈ address.toList, isBlank c = false
  · obtain ⟨c, hc, hother⟩ := hother
    by_cases hsome : ∃ b ∈ address.toList, isBlank b = true
    · obtain ⟨b, hb, hblank⟩ := hsome
      exact Or.inl ⟨_, .innerBlank hb hblank hc hother⟩
    · have hblank : ∀ b ∈ address.toList, isBlank b = false := by
        intro b hb
        rw [← Bool.not_eq_true]
        exact fun hbb => hsome ⟨b, hb, hbb⟩
      by_cases hsite : "github.com".toList <:+: address.toList.map Char.toLower
      · cases hparse : Location.parse address with
        | error f => exact Or.inl ⟨_, .unreadable hblank hsite hparse⟩
        | ok l =>
          cases hfile : l.isFile with
          | true => exact Or.inl ⟨_, .file hblank hparse hfile⟩
          | false => exact Or.inr ⟨l, hblank, hparse, hfile⟩
      · exact Or.inl ⟨_, .elsewhere hc hblank hsite⟩
  · refine Or.inl ⟨_, .blank fun c hc => ?_⟩
    rw [← Bool.not_eq_false]
    exact fun hcc => hother ⟨c, hc, hcc⟩

/-- **Which addresses name a folder.** -/
theorem folderAt_eq_ok_iff {address : String} {l : Location} : folderAt address = .ok l ↔ NamesFolder address l := by
  constructor
  · intro h
    rcases refused_or_namesFolder address with ⟨f, hf⟩ | ⟨l', hl'⟩
    · rw [folderAt_of_refused hf] at h
      cases h
    · rw [folderAt_of_namesFolder hl'] at h
      cases h
      exact hl'
  · exact folderAt_of_namesFolder

/-- **Why the others are refused.** -/
theorem folderAt_eq_error_iff {address : String} {f : AddressFault} :
    folderAt address = .error f ↔ Refused address f := by
  constructor
  · intro h
    rcases refused_or_namesFolder address with ⟨f', hf'⟩ | ⟨l, hl⟩
    · rw [folderAt_of_refused hf'] at h
      cases h
      exact hf'
    · rw [folderAt_of_namesFolder hl] at h
      cases h
  · exact folderAt_of_refused

end ClassAtlas.Repository
