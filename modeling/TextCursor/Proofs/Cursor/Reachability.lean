import TextCursor.Proofs.Cursor.Move

/-!
# The cursors that can be reached

A run of operations, whatever they are and whether they succeed, keeps the text and both boundaries: from a well-formed
cursor every operation is carried out and leaves a well-formed cursor (`Operation.exists_run`). Nothing more can be said
about the cursors reached, because the two setters lead from each of them to every pair of boundaries in order. So the
cursors reached from the beginning of a text are exactly the well-formed ones over it (`Cursor.reachable_iff`).

`Cursor.runs_stand_in_text` puts both directions together for a cursor that was opened on a string or on bytes.
-/

set_option autoImplicit false

namespace TextCursor

theorem Utf8.utf8ByteSize_ofList (cs : List Char) : (String.ofList cs).utf8ByteSize = width cs := by
  rw [← length_encode, ← String.size_toByteArray, String.toByteArray_ofList, List.utf8Encode, List.size_toByteArray]
  rfl

namespace Text

/-- The length of a text is the number of bytes of its string. -/
theorem utf8ByteSize_content (t : Text) : t.content.utf8ByteSize = t.length :=
  Utf8.utf8ByteSize_ofList t.chars

theorem eq_of_chars_eq {t u : Text} (h : t.chars = u.chars) : t = u := by
  obtain ⟨chars, hwidth⟩ := t
  subst h
  rfl

/-- A text made from bytes encodes to them. -/
theorem encode_of_ofBytes {bytes : Bytes} {t : Text} (h : ofBytes bytes = .ok t) :
    Utf8.encode t.chars = bytes.toList := by
  unfold ofBytes at h
  split at h
  next cs hdecode =>
    cases h
    exact Utf8.encode_eq_of_decode hdecode
  next => cases h

end Text

namespace Cursor

variable {c : Cursor} {before run ahead : List Char}

namespace Parts

theorem wellFormed (h : c.Parts before run ahead) : c.WellFormed :=
  wellFormed_iff_exists_parts.2 ⟨before, run, ahead, h⟩

end Parts

/-- Exactly the boundaries are offsets to move to. -/
theorem offsetFault?_eq_none_iff {offset : Nat} :
    c.offsetFault? offset = none ↔ Utf8.IsBoundary c.text.chars offset := by
  unfold offsetFault?
  constructor
  · intro h
    split at h
    · cases h
    · split at h
      · cases h
      next hboundary => exact Decidable.not_not.1 hboundary
  · intro h
    have hle := h.le_width
    rw [if_neg (by simpa [length, Text.length] using hle), if_neg (not_not_intro h)]

theorem offsetFault?_of_not_isBoundary {offset : Nat} (h : ¬ Utf8.IsBoundary c.text.chars offset) :
    ∃ e record, c.offsetFault? offset = some (e, record) := by
  cases hfault : c.offsetFault? offset with
  | none => exact absurd (offsetFault?_eq_none_iff.1 hfault) h
  | some fault => exact ⟨fault.1, fault.2, rfl⟩

theorem moveTo_of_isBoundary {offset : Nat} (h : Utf8.IsBoundary c.text.chars offset) (next : Cursor)
    (record : Record) : c.moveTo offset next record = ⟨.ok (), next, [], [record]⟩ := by
  rw [moveTo, offsetFault?_eq_none_iff.2 h]

theorem moveTo_of_not_isBoundary {offset : Nat} (h : ¬ Utf8.IsBoundary c.text.chars offset) (next : Cursor)
    (record : Record) : ∃ e refusal, c.moveTo offset next record = ⟨.error e, c, [], [refusal]⟩ := by
  obtain ⟨e, refusal, hfault⟩ := offsetFault?_of_not_isBoundary h
  exact ⟨e, refusal, by rw [moveTo, hfault]⟩

theorem moveTo_fails_iff {offset : Nat} {next : Cursor} {record : Record} :
    (∃ e, (c.moveTo offset next record).reply = .error e) ↔ ¬ Utf8.IsBoundary c.text.chars offset := by
  constructor
  · intro hfails hboundary
    obtain ⟨e, he⟩ := hfails
    rw [moveTo_of_isBoundary hboundary] at he
    cases he
  · intro h
    obtain ⟨e, refusal, heq⟩ := moveTo_of_not_isBoundary h next record
    exact ⟨e, by rw [heq]⟩

theorem text_moveTo {offset : Nat} {next : Cursor} {record : Record} (h : next.text = c.text) :
    (c.moveTo offset next record).cursor.text = c.text := by
  unfold moveTo
  split
  · rfl
  · exact h

theorem WellFormed.moveTo {offset : Nat} {next : Cursor} {record : Record} (h : c.WellFormed)
    (hnext : Utf8.IsBoundary c.text.chars offset → next.WellFormed) :
    (c.moveTo offset next record).cursor.WellFormed := by
  by_cases hboundary : Utf8.IsBoundary c.text.chars offset
  · rw [moveTo_of_isBoundary hboundary]
    exact hnext hboundary
  · obtain ⟨e, refusal, heq⟩ := moveTo_of_not_isBoundary hboundary next record
    rw [heq]
    exact h

/-- Setting the start keeps a cursor well-formed, whether the offset is accepted or not. -/
theorem WellFormed.setStart (h : c.WellFormed) (start : Nat) : (c.setStart start).cursor.WellFormed := by
  apply h.moveTo
  intro hboundary
  refine ⟨Nat.le_max_right _ _, hboundary, ?_⟩
  -- the larger of two boundaries is one of them
  rcases Nat.le_total c.index start with hle | hle
  · simpa [Nat.max_eq_right hle] using hboundary
  · simpa [Nat.max_eq_left hle] using h.index_isBoundary

theorem WellFormed.setIndex (h : c.WellFormed) (index : Nat) : (c.setIndex index).cursor.WellFormed := by
  apply h.moveTo
  intro hboundary
  refine ⟨Nat.min_le_right _ _, ?_, hboundary⟩
  rcases Nat.le_total c.start index with hle | hle
  · simpa [Nat.min_eq_left hle] using h.start_isBoundary
  · simpa [Nat.min_eq_right hle] using hboundary

end Cursor

/-- Whichever way a cursor moves, its three parts join to the same characters. -/
theorem Move.LeadsTo.exists_parts {m : Move} {c next : Cursor} {before run ahead : List Char}
    (h : c.Parts before run ahead) (hnext : m.LeadsTo before run ahead c next) :
    ∃ before' run' ahead', next.Parts before' run' ahead' ∧ before' ++ run' ++ ahead' = before ++ run ++ ahead := by
  cases m with
  | take =>
    obtain ⟨taken, rest, rfl, hparts⟩ := hnext
    exact ⟨_, _, _, hparts, by simp⟩
  | extend =>
    obtain ⟨taken, rest, rfl, hparts⟩ := hnext
    exact ⟨_, _, _, hparts, by simp⟩
  | giveUp => exact ⟨_, _, _, hnext, by simp⟩
  | stay =>
    obtain rfl : next = c := hnext
    exact ⟨_, _, _, h, rfl⟩

theorem Move.LeadsTo.text_eq_and_wellFormed {m : Move} {c next : Cursor} {before run ahead : List Char}
    (h : c.Parts before run ahead) (hnext : m.LeadsTo before run ahead c next) :
    next.text = c.text ∧ next.WellFormed := by
  obtain ⟨before', run', ahead', hparts, hjoin⟩ := hnext.exists_parts h
  have hchars : next.text.chars = c.text.chars := by rw [hparts.chars_eq, hjoin, h.chars_eq]
  exact ⟨Text.eq_of_chars_eq hchars, hparts.wellFormed⟩

/-- One step: from a well-formed cursor every operation is carried out, and leaves a well-formed cursor on the same
text. -/
theorem Operation.exists_run {c : Cursor} (h : c.WellFormed) (op : Operation) :
    ∃ o, op.run c = .ok o ∧ o.cursor.text = c.text ∧ o.cursor.WellFormed := by
  obtain ⟨before, run, ahead, hparts⟩ := Cursor.wellFormed_iff_exists_parts.1 h
  have hmoves (hop : op.isSetter = false) : ∃ o, op.run c = .ok o ∧ o.cursor.text = c.text ∧ o.cursor.WellFormed := by
    obtain ⟨o, hrun, hmove⟩ := op.exists_move hparts hop
    exact ⟨o, hrun, hmove.text_eq_and_wellFormed hparts⟩
  cases op with
  | setStart start => exact ⟨_, rfl, Cursor.text_moveTo rfl, h.setStart start⟩
  | setIndex index => exact ⟨_, rfl, Cursor.text_moveTo rfl, h.setIndex index⟩
  | _ => exact hmoves rfl

namespace Cursor

def after (c : Cursor) : List Operation → Except Breach Cursor
  | [] => .ok c
  | op :: ops => do (← op.run c).cursor.after ops

/-- A run: every operation is carried out, and the last cursor is well-formed on the same text. -/
theorem WellFormed.exists_after {c : Cursor} (h : c.WellFormed) (ops : List Operation) :
    ∃ last, c.after ops = .ok last ∧ last.text = c.text ∧ last.WellFormed := by
  induction ops generalizing c with
  | nil => exact ⟨c, rfl, rfl, h⟩
  | cons op ops ih =>
    obtain ⟨o, hrun, htext, hnext⟩ := op.exists_run h
    obtain ⟨last, hafter, hlast, hwell⟩ := ih hnext
    exact ⟨last, by rw [after, hrun]; exact hafter, hlast.trans htext, hwell⟩

/-- The two setters, the index first, lead from any cursor to any pair of boundaries in order. -/
theorem after_setters {t : Text} {c : Cursor} (htext : c.text = t) {start index : Nat}
    (hstart : Utf8.IsBoundary t.chars start) (hindex : Utf8.IsBoundary t.chars index) (hle : start ≤ index) :
    (c.setIndex index).reply = .ok () ∧ ((c.setIndex index).cursor.setStart start).reply = .ok () ∧
      ((c.setIndex index).cursor.setStart start).cursor = ⟨t, start, index⟩ := by
  subst htext
  have htext : (c.setIndex index).cursor.text = c.text := text_moveTo rfl
  have hkept : Utf8.IsBoundary (c.setIndex index).cursor.text.chars start := by rwa [htext]
  rw [setStart, moveTo_of_isBoundary hkept, setIndex, moveTo_of_isBoundary hindex]
  simp [Nat.max_eq_left hle]

theorem Reachable.text_eq_and_wellFormed {t : Text} {c : Cursor} (h : Reachable t c) : c.text = t ∧ c.WellFormed := by
  induction h with
  | ofText => exact ⟨rfl, wellFormed_ofText t⟩
  | @step c op o _ hrun ih =>
    obtain ⟨o', hrun', htext, hnext⟩ := op.exists_run ih.2
    obtain rfl : o' = o := Except.ok.inj (hrun'.symm.trans hrun)
    exact ⟨htext.trans ih.1, hnext⟩

/-- The cursors that runs of operations lead to are the well-formed ones. -/
theorem reachable_iff {t : Text} {c : Cursor} : Reachable t c ↔ c.text = t ∧ c.WellFormed := by
  constructor
  · exact Reachable.text_eq_and_wellFormed
  · intro hplace
    obtain ⟨rfl, h⟩ := hplace
    -- two steps are enough: the index is set first, because setting it may move the start back
    have hzero : (ofText c.text).text = c.text := rfl
    obtain ⟨-, -, hlast⟩ := after_setters hzero h.start_isBoundary h.index_isBoundary h.start_le_index
    have hindex : (Operation.setIndex c.index).run (ofText c.text) = .ok _ := rfl
    have hstart : (Operation.setStart c.start).run ((ofText c.text).setIndex c.index).cursor = .ok _ := rfl
    have hreached : Reachable c.text (((ofText c.text).setIndex c.index).cursor.setStart c.start).cursor :=
      (Reachable.ofText.step hindex).step hstart
    rw [hlast] at hreached
    exact hreached

/-- A cursor as it is opened on a text: on the string, or on the bytes that encode it. -/
inductive Begins (t : Text) : Cursor → Prop where
  | ofText : Begins t (ofText t)
  | ofBytes {bytes : Bytes} {c : Cursor} :
      (Cursor.ofBytes bytes).result = .ok c → bytes.toList = Utf8.encode t.chars → Begins t c

theorem Begins.eq_ofText {t : Text} {c : Cursor} (h : Begins t c) : c = Cursor.ofText t := by
  cases h with
  | ofText => rfl
  | @ofBytes bytes _ hopen hbytes =>
    unfold Cursor.ofBytes at hopen
    split at hopen
    next u hu =>
      have hchars : u.chars = t.chars := Utf8.encode_inj ((Text.encode_of_ofBytes hu).trans hbytes)
      obtain rfl : u = t := Text.eq_of_chars_eq hchars
      cases hopen
      rfl
    next => cases hopen

/-- Where a cursor over a text stands: at two boundaries of the text, in order. -/
structure StandsIn (c : Cursor) (t : Text) : Prop where
  text_eq : c.text = t
  length_eq : c.length = t.content.utf8ByteSize
  start_le_index : c.start ≤ c.index
  index_le_length : c.index ≤ c.length
  start_isBoundary : Utf8.IsBoundary t.chars c.start
  index_isBoundary : Utf8.IsBoundary t.chars c.index

/-- The setters lead from a cursor to every place in the text, and refuse all other offsets. -/
structure MovesIn (c : Cursor) (t : Text) : Prop where
  places : ∀ start index, Utf8.IsBoundary t.chars start → Utf8.IsBoundary t.chars index → start ≤ index →
    (c.setIndex index).reply = .ok () ∧ ((c.setIndex index).cursor.setStart start).reply = .ok () ∧
      ((c.setIndex index).cursor.setStart start).cursor = ⟨t, start, index⟩
  setIndex_fails : ∀ index, (∃ e, (c.setIndex index).reply = .error e) ↔ ¬ Utf8.IsBoundary t.chars index
  setStart_fails : ∀ start, (∃ e, (c.setStart start).reply = .error e) ↔ ¬ Utf8.IsBoundary t.chars start

theorem WellFormed.standsIn {c : Cursor} (h : c.WellFormed) : c.StandsIn c.text where
  text_eq := rfl
  length_eq := c.text.utf8ByteSize_content.symm
  start_le_index := h.start_le_index
  index_le_length := h.index_isBoundary.le_width
  start_isBoundary := h.start_isBoundary
  index_isBoundary := h.index_isBoundary

theorem movesIn_text (c : Cursor) : c.MovesIn c.text where
  places _ _ hstart hindex hle := after_setters rfl hstart hindex hle
  setIndex_fails _ := moveTo_fails_iff
  setStart_fails _ := moveTo_fails_iff

/-- However a cursor was opened on a text, every run of operations goes through and ends at two boundaries of the text;
and from there the setters lead to every other two. -/
theorem runs_stand_in_text {t : Text} {c : Cursor} (h : Begins t c) (ops : List Operation) :
    ∃ last, c.after ops = .ok last ∧ last.StandsIn t ∧ last.MovesIn t := by
  obtain rfl := h.eq_ofText
  obtain ⟨last, hafter, htext, hwell⟩ := (wellFormed_ofText t).exists_after ops
  have hplaced := hwell.standsIn
  have hmoves := last.movesIn_text
  rw [htext] at hplaced hmoves
  exact ⟨last, hafter, hplaced, hmoves⟩

/-- A run over a letter of one byte and a letter of two: the offset inside the second is refused, and when the second has
been taken the cursor goes back behind the first. -/
theorem runs_stand_in_text_mixed :
    let t : Text := ⟨['a', 'é'], by decide⟩
    let last : Cursor := ⟨t, 1, 1⟩
    Begins t (ofText t) ∧ (ofText t).after [.nextChar, .setIndex 2, .skip .toEnd] = .ok ⟨t, 1, 3⟩ ∧
      (ofText t).after [.nextChar, .setIndex 2, .skip .toEnd, .revert] = .ok last ∧ last.StandsIn t ∧ last.MovesIn t := by
  intro t last
  have htaken : (ofText t).after [.nextChar, .setIndex 2, .skip .toEnd] = .ok ⟨t, 1, 3⟩ := rfl
  have hreverted : (ofText t).after [.nextChar, .setIndex 2, .skip .toEnd, .revert] = .ok last := rfl
  obtain ⟨stop, hafter, hplaced, hmoves⟩ :=
    runs_stand_in_text (.ofText : Begins t _) [.nextChar, .setIndex 2, .skip .toEnd, .revert]
  obtain rfl : stop = last := Except.ok.inj (hafter.symm.trans hreverted)
  exact ⟨.ofText, htaken, hreverted, hplaced, hmoves⟩

end Cursor

end TextCursor
