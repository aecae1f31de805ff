/-
What a session holds after any history of commands.

A session remembers an address and owns the runs. `Session.perform` is one command of the user, or a step of some run,
which may come between any two commands; `Session.after` is the session after a whole history. What it holds is said by
the history alone:

- the address is that of the last `analyze` whose text was not blank (`lastAddress`);
- every run was started by such an `analyze` (`analyses`), or by a `reload` made while an address was remembered
  (`reloads`).

`session_follows_history` puts this together with what the next command does. A `reload` goes through `analyze`, which
cuts white space off once more; nothing is left to cut off, so it starts the address that is remembered.
-/
import ClassAtlas.Proofs.Run.Steps
import ClassAtlas.Proofs.Text.Words
import ClassAtlas.Run.Session

namespace ClassAtlas.Run

open ClassAtlas.Repository ClassAtlas.Text

/-- what a user can do, and the steps of the runs in between -/
inductive Command where
  | analyze (text : String)
  | reload
  | clear
  | step (generation : Nat) (host : Host)

namespace Command

/-- whether white space is all there is -/
def isBlankText (text : String) : Bool := text.toList.all isBlank

/-- the address a command gives, without white space around it -/
def address? : Command → Option String
  | .analyze text => if isBlankText text then none else some (String.ofList (trim text.toList))
  | _ => none

def isReload : Command → Bool
  | .reload => true
  | _ => false

theorem isBlankText_iff {text : String} : isBlankText text = true ↔ trim text.toList = [] := by
  rw [isBlankText, List.all_eq_true, trim_eq_nil_iff]

theorem isBlankText_of_trimmed {url : String} (hne : url.toList ≠ []) (h : Trimmed url.toList) :
    isBlankText url = false := by
  rw [← Bool.not_eq_true, isBlankText_iff, h.trim_eq]
  exact hne

theorem trimmed_of_address? {c : Command} {url : String} (h : c.address? = some url) :
    url.toList ≠ [] ∧ Trimmed url.toList := by
  cases c with
  | analyze text =>
    simp only [address?] at h
    split_ifs at h with hblank
    cases h
    rw [String.toList_ofList]
    exact ⟨fun hnil => hblank (isBlankText_iff.2 hnil), trimmed_trim _⟩
  | _ => cases h

end Command

namespace Session

variable {setup : Setup} {s : Session}

/-! ## Commands -/

/-- one command and the events it causes -/
def perform (setup : Setup) (s : Session) : Command → Session × List Event
  | .analyze text => s.analyze text
  | .reload => s.reload
  | .clear => s.clear
  | .step generation host =>
    let (t, events) := s.system.perform setup (.step generation host)
    ({ s with system := t }, events)

/-- what starting a run for an address comes to -/
def launched (s : Session) (url : String) : Session × List Event :=
  (⟨s.system.start url, some url⟩, [.status none Message.fetching, .started (s.system.generation + 1)])

theorem analyze_eq (s : Session) (text : String) :
    s.analyze text =
      match (Command.analyze text).address? with
      | some url => s.launched url
      | none => (s, [.status none Message.provideUrl]) := by
  have hempty : (String.ofList (trim text.toList)).isEmpty = Command.isBlankText text := by
    rw [Bool.eq_iff_iff, Command.isBlankText_iff, String.isEmpty_iff, String.ofList_eq_empty_iff]
  simp only [analyze, hempty, Command.address?]
  split_ifs <;> rfl

/-- an address that was remembered is analysed as it is -/
theorem analyze_of_trimmed {url : String} (hne : url.toList ≠ []) (h : Trimmed url.toList) :
    s.analyze url = s.launched url := by
  have haddress : (Command.analyze url).address? = some url := by
    rw [Command.address?, Command.isBlankText_of_trimmed hne h, h.trim_eq, String.ofList_toList]
    rfl
  rw [analyze_eq, haddress]

/-- what is remembered is an address: neither blank nor with white space around it -/
def RemembersAddress (s : Session) : Prop := ∀ url, s.lastUrl = some url → url.toList ≠ [] ∧ Trimmed url.toList

theorem reload_of_some {url : String} (hs : RemembersAddress s) (h : s.lastUrl = some url) :
    s.reload = s.launched url := by
  obtain ⟨hne, htrimmed⟩ := hs url h
  rw [reload, h]
  exact analyze_of_trimmed hne htrimmed

theorem reload_of_none (h : s.lastUrl = none) : s.reload = (s, [.status none Message.nothingToReload]) := by
  rw [reload, h]

/-- what a command can do, with the events it causes -/
inductive Effect (setup : Setup) (s : Session) : Command → Session × List Event → Prop where
  | analyze {text url : String} (h : (Command.analyze text).address? = some url) :
      Effect setup s (.analyze text) (s.launched url)
  | blank {text : String} (h : (Command.analyze text).address? = none) :
      Effect setup s (.analyze text) (s, [.status none Message.provideUrl])
  | reload {url : String} (h : s.lastUrl = some url) : Effect setup s .reload (s.launched url)
  | nothing (h : s.lastUrl = none) : Effect setup s .reload (s, [.status none Message.nothingToReload])
  | clear : Effect setup s .clear (⟨s.system.clear, s.lastUrl⟩, [.cleared, .status none Message.cleared])
  | step {g : Nat} {host : Host} :
      Effect setup s (.step g host)
        (⟨(s.system.perform setup (.step g host)).1, s.lastUrl⟩, (s.system.perform setup (.step g host)).2)

theorem perform_effect (setup : Setup) (hs : RemembersAddress s) (c : Command) :
    Effect setup s c (s.perform setup c) := by
  cases c with
  | analyze text =>
    rw [perform, analyze_eq]
    cases h : (Command.analyze text).address? with
    | none => exact .blank h
    | some url => exact .analyze h
  | reload =>
    rw [perform]
    cases h : s.lastUrl with
    | none =>
      rw [reload_of_none h]
      exact .nothing h
    | some url =>
      rw [reload_of_some hs h]
      exact .reload h
  | clear => exact .clear
  | step g host => exact .step

/-! ## Histories -/

/-- the session after a history of commands -/
def after (setup : Setup) (history : List Command) : Session :=
  history.foldl (fun s c => (s.perform setup c).1) fresh

/-- the address of the last command that gave one -/
def lastAddress (history : List Command) : Option String := (history.filterMap Command.address?).getLast?

/-- the calls of `analyze` with a text that is not blank -/
def analyses (history : List Command) : Nat := history.countP fun c => c.address?.isSome

/-- the calls of `reload` made while an address was remembered -/
def reloads (setup : Setup) (history : List Command) : Nat :=
  (List.range history.length).countP fun i =>
    history[i]?.any Command.isReload && (after setup (history.take i)).lastUrl.isSome

variable {history : List Command}

theorem after_snoc (history : List Command) (c : Command) :
    after setup (history ++ [c]) = ((after setup history).perform setup c).1 := by
  simp [after]

theorem lastAddress_snoc (history : List Command) (c : Command) :
    lastAddress (history ++ [c]) = c.address?.or (lastAddress history) := by
  have hlast : ([c].filterMap Command.address?).getLast? = c.address? := by
    cases h : c.address? <;> simp [h]
  rw [lastAddress, List.filterMap_append, List.getLast?_append, hlast]
  rfl

theorem analyses_snoc (history : List Command) (c : Command) :
    analyses (history ++ [c]) = analyses history + if c.address?.isSome then 1 else 0 := by
  rw [analyses, List.countP_append, List.countP_singleton, ← analyses]

theorem reloads_snoc (history : List Command) (c : Command) :
    reloads setup (history ++ [c]) =
      reloads setup history + if c.isReload && (after setup history).lastUrl.isSome then 1 else 0 := by
  -- the calls before the last one are made with the same commands before them
  have hbefore : ∀ i ∈ List.range history.length,
      ((history ++ [c])[i]?.any Command.isReload && (after setup ((history ++ [c]).take i)).lastUrl.isSome) =
        (history[i]?.any Command.isReload && (after setup (history.take i)).lastUrl.isSome) := by
    intro i hi
    have hlt : i < history.length := List.mem_range.1 hi
    rw [List.getElem?_append_left hlt, List.take_append_of_le_length hlt.le]
  have hsame := List.countP_congr fun i hi => Bool.eq_iff_iff.1 (hbefore i hi)
  rw [reloads, List.length_append, List.length_singleton, List.range_succ, List.countP_append, List.countP_singleton,
    hsame, ← reloads]
  simp

/-- what a session holds, by the history that led to it -/
structure Holds (setup : Setup) (history : List Command) (s : Session) : Prop where
  numbered : s.system.Numbered
  address : s.lastUrl = lastAddress history
  generation : s.system.generation = analyses history + reloads setup history

theorem Holds.remembersAddress (h : Holds setup history s) : RemembersAddress s := by
  intro url hurl
  rw [h.address] at hurl
  obtain ⟨c, -, hc⟩ := List.mem_filterMap.1 (List.mem_of_getLast? hurl)
  exact Command.trimmed_of_address? hc

theorem holds_nil : Holds setup [] fresh := ⟨System.numbered_fresh, rfl, rfl⟩

/-- a command gives an address, or it is a `reload` that finds one, or it starts no run -/
theorem Holds.grow (h : Holds setup history (after setup history)) {c : Command} {t : Session}
    (hnumbered : t.system.Numbered) (hurl : t.lastUrl = c.address?.or (after setup history).lastUrl)
    (hgeneration : t.system.generation = (after setup history).system.generation +
      ((if c.address?.isSome then 1 else 0) + if c.isReload && (after setup history).lastUrl.isSome then 1 else 0)) :
    Holds setup (history ++ [c]) t := by
  refine ⟨hnumbered, ?_, ?_⟩
  · rw [hurl, h.address, lastAddress_snoc]
  · rw [hgeneration, h.generation, analyses_snoc, reloads_snoc]
    omega

theorem Holds.snoc (h : Holds setup history (after setup history)) (c : Command) :
    Holds setup (history ++ [c]) (after setup (history ++ [c])) := by
  have heffect := perform_effect setup h.remembersAddress c
  rw [after_snoc]
  generalize (after setup history).perform setup c = next at heffect
  cases heffect with
  | analyze hurl =>
    refine h.grow (System.numbered_start h.numbered _) ?_ ?_
    · simp [launched, hurl]
    · simp [launched, hurl, System.start, Command.isReload]
  | blank hnone =>
    refine h.grow h.numbered ?_ ?_
    · simp [hnone]
    · simp [hnone, Command.isReload]
  | reload hurl =>
    refine h.grow (System.numbered_start h.numbered _) ?_ ?_
    · simp [launched, hurl, Command.address?]
    · simp [launched, hurl, System.start, Command.address?, Command.isReload]
  | nothing hnone =>
    refine h.grow h.numbered ?_ ?_
    · simp [Command.address?]
    · simp [hnone, Command.address?]
  | clear => exact h.grow ((System.generations_cancelCurrent _).trans h.numbered) rfl rfl
  | step => exact h.grow (System.numbered_perform h.numbered _) rfl (System.generation_step h.numbered _)

theorem holds_after (history : List Command) : Holds setup history (after setup history) := by
  induction history using List.reverseRecOn with
  | nil => exact holds_nil
  | append_singleton history c ih => exact ih.snoc c

/-! ## What a session holds and does next -/

/-- a session as its history says, and what the next command does to it -/
structure FollowsHistory (setup : Setup) (history : List Command) (s : Session) : Prop where
  /-- the address is that of the last `analyze` whose text was not blank, -/
  address : s.lastUrl = lastAddress history
  /-- and it is neither blank nor has white space around it -/
  trimmed : ∀ url, s.lastUrl = some url → Command.isBlankText url = false ∧ Trimmed url.toList
  /-- a run was started by each such `analyze` and by each `reload` that found an address, and by nothing else -/
  generation : s.system.generation = analyses history + reloads setup history
  /-- a text that is not blank is remembered and started without the white space around it -/
  analyze : ∀ text, Command.isBlankText text = false → s.analyze text = s.launched (String.ofList (trim text.toList))
  /-- `reload` does what `analyze` does with the address, and keeps it -/
  reload : ∀ url, s.lastUrl = some url → s.reload = s.analyze url ∧
    s.reload = (⟨s.system.start url, s.lastUrl⟩, [.status none "Fetching...", .started (s.system.generation + 1)])
  /-- a blank text leaves all as it is, -/
  blank : ∀ text, Command.isBlankText text = true → s.analyze text = (s, [.status none "Please provide a URL."])
  /-- and so does a `reload` without an address -/
  nothing : s.lastUrl = none → s.reload = (s, [.status none "Nothing to reload."])
  /-- `clear` keeps the address and the generation and empties the store -/
  clear : s.clear.1.lastUrl = s.lastUrl ∧ s.clear.1.system.generation = s.system.generation ∧
    s.clear.1.system.store = none ∧ s.clear.2 = [.cleared, .status none "Cleared."]

/-- **A session follows its history.** For every history of commands, with steps of the runs anywhere in it. -/
theorem session_follows_history (setup : Setup) (history : List Command) :
    FollowsHistory setup history (after setup history) := by
  have h : Holds setup history (after setup history) := holds_after history
  refine ⟨h.address, fun url hurl => ?_, h.generation, fun text htext => ?_, fun url hurl => ?_, fun text htext => ?_,
    reload_of_none, rfl, rfl, rfl, rfl⟩
  · obtain ⟨hne, htrimmed⟩ := h.remembersAddress url hurl
    exact ⟨Command.isBlankText_of_trimmed hne htrimmed, htrimmed⟩
  · rw [analyze_eq, Command.address?, htext]
    rfl
  · obtain ⟨hne, htrimmed⟩ := h.remembersAddress url hurl
    rw [reload_of_some h.remembersAddress hurl, analyze_of_trimmed hne htrimmed, hurl]
    exact ⟨rfl, rfl⟩
  · rw [analyze_eq, Command.address?, htext]
    rfl

/-- of five commands two start a run: the first `reload` finds no address, and the second text is blank -/
example :
    let s := after ".java" [.reload, .analyze " github.com/shop/orders\t", .analyze "\n ", .clear, .reload]
    s.lastUrl = some "github.com/shop/orders" ∧ s.system.generation = 2 := by decide

end Session

end ClassAtlas.Run
