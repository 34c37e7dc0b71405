import TextCursor.Proofs.CharSet
import TextCursor.SetShelf

/-!
# The sets of a shelf

A set may come onto a shelf from a string, from a list, as a copy of another or empty, and it may grow there one
character at a time. A ledger is kept beside the shelf: under the same names it has the characters inserted so far. It
knows nothing of bits and lists, and a copy in it is a copy of the sequence.

Whatever commands are carried out, every set on the shelf is the set of its sequence in the ledger
(`SetShelf.Keeps.step`), and so represents it (`SetShelf.sets_represent_insertions`). Equality of two sets is finer than
having the same members: it also compares the order in which the members outside ASCII came in
(`SetShelf.equal_answers_true_iff`).
-/

set_option autoImplicit false

namespace TextCursor

/-- What has been inserted under each name, in order. Of several entries under one name the first counts. -/
structure InsertionLedger where
  entries : List (String × List Char)

namespace InsertionLedger

def blank : InsertionLedger := ⟨[]⟩

def inserted? (ledger : InsertionLedger) (name : String) : Option (List Char) :=
  ledger.entries.lookup name

def write (ledger : InsertionLedger) (name : String) (inserted : List Char) : InsertionLedger :=
  ⟨(name, inserted) :: ledger.entries⟩

/-- The ledger after a command. A name that is not there has had nothing inserted. -/
def enter (ledger : InsertionLedger) : SetCommand → InsertionLedger
  | .ofString name content => ledger.write name content.toList
  | .empty name => ledger.write name []
  | .ofList name cs => ledger.write name cs
  | .copy name source => ledger.write name ((ledger.inserted? source).getD [])
  | .insert name ch => ledger.write name ((ledger.inserted? name).getD [] ++ [ch])
  | .contains _ _ | .equal _ _ => ledger

def ofCommands (commands : List SetCommand) : InsertionLedger :=
  commands.foldl enter blank

end InsertionLedger

namespace SetShelf

def after? (shelf : SetShelf) : List SetCommand → Option SetShelf
  | [] => some shelf
  | command :: commands => do (← shelf.step? command).shelf.after? commands

/-- The sets of the shelf are those of the sequences in the ledger. -/
def Keeps (shelf : SetShelf) (ledger : InsertionLedger) : Prop :=
  shelf.sets = ledger.entries.map fun entry => (entry.1, CharSet.ofList entry.2)

theorem lookup_map_snd {α β : Type} (f : α → β) (name : String) (entries : List (String × α)) :
    (entries.map fun entry => (entry.1, f entry.2)).lookup name = (entries.lookup name).map f := by
  induction entries with
  | nil => rfl
  | cons entry entries ih =>
    rw [List.map_cons, List.lookup_cons, List.lookup_cons, ih]
    cases name == entry.1 <;> rfl

variable {shelf : SetShelf} {ledger : InsertionLedger} {name : String}

namespace Keeps

theorem find?_eq (h : shelf.Keeps ledger) (name : String) :
    shelf.find? name = (ledger.inserted? name).map CharSet.ofList := by
  rw [find?, h, lookup_map_snd]
  rfl

theorem exists_inserted (h : shelf.Keeps ledger) {set : CharSet} (hset : shelf.find? name = some set) :
    ∃ inserted, ledger.inserted? name = some inserted ∧ set = CharSet.ofList inserted := by
  rw [h.find?_eq, Option.map_eq_some_iff] at hset
  obtain ⟨inserted, hledger, heq⟩ := hset
  exact ⟨inserted, hledger, heq.symm⟩

theorem put (h : shelf.Keeps ledger) (name : String) (inserted : List Char) :
    (shelf.put name (CharSet.ofList inserted)).shelf.Keeps (ledger.write name inserted) := by
  rw [Keeps] at h
  simp only [Keeps, SetShelf.put, InsertionLedger.write, List.map_cons, h]

/-- One step: a command changes the shelf and the ledger alike. -/
theorem step (h : shelf.Keeps ledger) {command : SetCommand} {r : SetReaction} (hstep : shelf.step? command = some r) :
    r.shelf.Keeps (ledger.enter command) := by
  cases command with
  | ofString name content =>
    obtain rfl := Option.some.inj hstep
    exact h.put name content.toList
  | empty name =>
    obtain rfl := Option.some.inj hstep
    exact h.put name []
  | ofList name cs =>
    obtain rfl := Option.some.inj hstep
    exact h.put name cs
  | copy name source =>
    obtain ⟨set, hset, hput⟩ := Option.bind_eq_some_iff.1 hstep
    obtain rfl := Option.some.inj hput
    obtain ⟨inserted, hledger, rfl⟩ := h.exists_inserted hset
    rw [InsertionLedger.enter, hledger]
    exact h.put name inserted
  | insert name ch =>
    obtain ⟨set, hset, hput⟩ := Option.bind_eq_some_iff.1 hstep
    obtain rfl := Option.some.inj hput
    obtain ⟨inserted, hledger, rfl⟩ := h.exists_inserted hset
    rw [InsertionLedger.enter, hledger, CharSet.insert_ofList]
    exact h.put name (inserted ++ [ch])
  | contains name content =>
    obtain ⟨set, -, hshow⟩ := Option.bind_eq_some_iff.1 hstep
    obtain rfl := Option.some.inj hshow
    exact h
  | equal name other =>
    obtain ⟨set, -, hother⟩ := Option.bind_eq_some_iff.1 hstep
    obtain ⟨set', -, hshow⟩ := Option.bind_eq_some_iff.1 hother
    obtain rfl := Option.some.inj hshow
    exact h

/-- A run of commands. -/
theorem after? (h : shelf.Keeps ledger) {commands : List SetCommand} {last : SetShelf}
    (hrun : shelf.after? commands = some last) : last.Keeps (commands.foldl InsertionLedger.enter ledger) := by
  induction commands generalizing shelf ledger with
  | nil =>
    obtain rfl := Option.some.inj hrun
    exact h
  | cons command commands ih =>
    obtain ⟨r, hstep, hrest⟩ := Option.bind_eq_some_iff.1 hrun
    exact ih (h.step hstep) hrest

end Keeps

theorem keeps_of_after? {commands : List SetCommand} (hrun : bare.after? commands = some shelf) :
    shelf.Keeps (.ofCommands commands) :=
  Keeps.after? rfl hrun

/-- However a set has come onto a shelf, it is as the characters inserted into it make it. -/
theorem sets_represent_insertions {commands : List SetCommand} (hrun : bare.after? commands = some shelf)
    {set : CharSet} (hset : shelf.find? name = some set) :
    ∃ inserted, (InsertionLedger.ofCommands commands).inserted? name = some inserted ∧ set.Represents inserted := by
  obtain ⟨inserted, hledger, rfl⟩ := (keeps_of_after? hrun).exists_inserted hset
  exact ⟨inserted, hledger, (CharSet.follows_ofList inserted).represents⟩

/-- A set and its copy, which grow apart. What the copy is given twice it has once. -/
theorem sets_represent_insertions_copy :
    let commands : List SetCommand :=
      [.ofString "a" "\x7fé\x00é", .copy "b" "a", .insert "b" '€', .insert "a" 'x', .insert "b" 'é']
    let shelf := (bare.after? commands).getD bare
    let set : CharSet := ⟨BitVec.twoPow 128 0 ||| BitVec.twoPow 128 127, ['é', '€']⟩
    bare.after? commands = some shelf ∧ shelf.find? "b" = some set ∧
      set.Represents ['\x7f', 'é', '\x00', 'é', '€', 'é'] := by
  intro commands shelf set
  have hrun : bare.after? commands = some shelf := rfl
  have hset : shelf.find? "b" = some set := by decide
  have hledger : (InsertionLedger.ofCommands commands).inserted? "b" = some ['\x7f', 'é', '\x00', 'é', '€', 'é'] := rfl
  obtain ⟨inserted, hinserted, hrepresents⟩ := sets_represent_insertions hrun hset
  obtain rfl := Option.some.inj (hinserted.symm.trans hledger)
  exact ⟨hrun, hset, hrepresents⟩

/-- Two sets are found equal if they have the same members, and those outside ASCII came in in the same order. -/
theorem equal_answers_true_iff {commands : List SetCommand} (hrun : bare.after? commands = some shelf)
    {left right : String} {s u : CharSet} (hleft : shelf.find? left = some s) (hright : shelf.find? right = some u) :
    ∃ r inserted others, shelf.step? (.equal left right) = some r ∧
      (InsertionLedger.ofCommands commands).inserted? left = some inserted ∧
      (InsertionLedger.ofCommands commands).inserted? right = some others ∧
      (r.answer = .flag true ↔ (∀ ch, s.contains ch = u.contains ch) ∧ CharSet.WideAlike inserted others) := by
  have hkeeps := keeps_of_after? hrun
  obtain ⟨inserted, hinserted, rfl⟩ := hkeeps.exists_inserted hleft
  obtain ⟨others, hothers, rfl⟩ := hkeeps.exists_inserted hright
  have hstep : shelf.step? (.equal left right) = some
      ⟨.flag (CharSet.ofList inserted = CharSet.ofList others), CharSet.ofList inserted, shelf⟩ := by
    simp [step?, hleft, hright]
  refine ⟨_, inserted, others, hstep, hinserted, hothers, ?_⟩
  rw [← (CharSet.follows_ofList inserted).eq_iff (CharSet.follows_ofList others), SetAnswer.flag.injEq, decide_eq_true_iff]

/-- Two sets made in different ways. The letter of ASCII comes in at different places, which does not show. -/
theorem equal_answers_true_iff_ascii_moved :
    let commands : List SetCommand := [.ofString "a" "éaü", .ofList "b" ['é', 'ü', 'é'], .insert "b" 'a']
    let shelf := (bare.after? commands).getD bare
    bare.after? commands = some shelf ∧ (∃ s, shelf.find? "a" = some s) ∧ (∃ u, shelf.find? "b" = some u) ∧
      ∃ r, shelf.step? (.equal "a" "b") = some r ∧ r.answer = .flag true := by
  intro commands shelf
  have hrun : bare.after? commands = some shelf := rfl
  have hleft : shelf.find? "a" = some (CharSet.ofList ['é', 'a', 'ü']) := by decide
  have hright : shelf.find? "b" = some (CharSet.ofList ['é', 'ü', 'é', 'a']) := by decide
  obtain ⟨r, inserted, others, hstep, hinserted, hothers, heq⟩ := equal_answers_true_iff hrun hleft hright
  have hfirst : (InsertionLedger.ofCommands commands).inserted? "a" = some ['é', 'a', 'ü'] := rfl
  have hsecond : (InsertionLedger.ofCommands commands).inserted? "b" = some ['é', 'ü', 'é', 'a'] := rfl
  obtain rfl := Option.some.inj (hinserted.symm.trans hfirst)
  obtain rfl := Option.some.inj (hothers.symm.trans hsecond)
  have halike : CharSet.WideAlike ['é', 'a', 'ü'] ['é', 'ü', 'é', 'a'] := by simp [CharSet.WideAlike]
  have hsame : ∀ ch, ch ∈ ['é', 'a', 'ü'] ↔ ch ∈ ['é', 'ü', 'é', 'a'] := by grind
  have hmembers := ((CharSet.follows_ofList _).sameMembers_iff (CharSet.follows_ofList _)).2 hsame
  exact ⟨hrun, ⟨_, hleft⟩, ⟨_, hright⟩, r, hstep, heq.2 ⟨hmembers, halike⟩⟩

/-- Two letters outside ASCII, in either order: membership is the same, and the sets are found unequal. -/
theorem equal_sees_order_of_insertion :
    let commands : List SetCommand := [.ofString "a" "éü", .ofString "b" "üé"]
    let shelf := (bare.after? commands).getD bare
    bare.after? commands = some shelf ∧
      ∃ s u r, shelf.find? "a" = some s ∧ shelf.find? "b" = some u ∧ (∀ ch, s.contains ch = u.contains ch) ∧
        shelf.step? (.equal "a" "b") = some r ∧ r.answer = .flag false := by
  intro commands shelf
  have hleft : shelf.find? "a" = some (CharSet.ofList ['é', 'ü']) := by decide
  have hright : shelf.find? "b" = some (CharSet.ofList ['ü', 'é']) := by decide
  have hsame : ∀ ch, ch ∈ ['é', 'ü'] ↔ ch ∈ ['ü', 'é'] := by grind
  have hmembers := ((CharSet.follows_ofList _).sameMembers_iff (CharSet.follows_ofList _)).2 hsame
  exact ⟨rfl, _, _, _, hleft, hright, hmembers, rfl, by decide⟩

end SetShelf

end TextCursor
