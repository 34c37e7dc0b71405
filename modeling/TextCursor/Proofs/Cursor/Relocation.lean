import Mathlib.Data.List.Forall2
import TextCursor.Proofs.Cursor.Digits
import TextCursor.Proofs.Cursor.Move

/-!
# What lies before makes no difference

A cursor that has been moved to some place of a text works from there on as a new cursor on the rest of the text does.
The texts in front may be anything: no operation looks back past the start of the result, and no answer but a report
of an offset depends on where the text begins.

`Use` is anything done with a cursor, and `Cursor.trace` the outcomes of such things one after the other. The uses that
name no offset (`Use.isRelative`) keep two cursors `Relocated`: they cut what they have into the same result and the
same characters ahead, and one of them has `front` before all that the other has. One step of both is
`Relocated.exists_step`, a run of both `Relocated.exists_run`; `Cursor.trace_mirrors` is what comes of it.

Left out are the uses that name an offset, which count from the beginning of the text, and the records left, in which
offsets are written.
-/

set_option autoImplicit false

namespace TextCursor

/-- Two answers that do not differ but in offsets: they are the same, or both report an index out of range. -/
inductive Reply.Alike : Reply → Reply → Prop where
  | same {r : Reply} : Alike r r
  | outOfRange {index length index' length' : Nat} :
      Alike (.failure (.indexOutOfRange index length)) (.failure (.indexOutOfRange index' length'))

/-- Whether the query looks at the cursor's own place, and not at an offset that its caller chooses. -/
def Query.isRelative : Query → Bool
  | isAtEnd | result | resultLength | resultChar | resultDecimal _ _ | resultHex _ => true
  | charAt _ | substring _ _ | decimal _ _ _ _ | hex _ _ _ => false

inductive Use where
  | act (op : Operation)
  | ask (q : Query)

namespace Use

def run : Use → Cursor → Except Breach (Outcome Reply)
  | act op, c => op.run c
  | ask q, c => q.run c

/-- Whether no offset is named, neither to go to nor to look at. -/
def isRelative : Use → Bool
  | act op => !op.isSetter
  | ask q => q.isRelative

end Use

def Cursor.trace (c : Cursor) : List Use → Except Breach (List (Outcome Reply))
  | [] => .ok []
  | use :: uses => do
    let o ← use.run c
    return o :: (← o.cursor.trace uses)

/-- The first outcome is the second at a place that lies further back by a number of bytes: the answers are alike, the
same questions were asked about the same characters, and both offsets are moved. -/
structure Outcome.Mirrors (distance : Nat) (o o' : Outcome Reply) : Prop where
  reply_alike : o.reply.Alike o'.reply
  asked_eq : o.asked = o'.asked
  start_eq : o.cursor.start = o'.cursor.start + distance
  index_eq : o.cursor.index = o'.cursor.index + distance

/-- Two cursors with the same result and the same characters ahead; what lies before the result of the first is `front`
and what lies before the result of the second. -/
structure Relocated (front before run ahead : List Char) (c c' : Cursor) : Prop where
  behind : c.Parts (front ++ before) run ahead
  alone : c'.Parts before run ahead

/-- The outcomes of one use of two relocated cursors, which leave relocated cursors. -/
structure Outcome.Relocated (front : List Char) (o o' : Outcome Reply) : Prop where
  reply_alike : o.reply.Alike o'.reply
  asked_eq : o.asked = o'.asked
  cursors : ∃ before run ahead, TextCursor.Relocated front before run ahead o.cursor o'.cursor

namespace Cursor

variable {c : Cursor} {before run ahead : List Char}

/-- The character at the start is the first of the result, or of what stands ahead if the result is empty. -/
theorem Parts.resultChar_eq (h : c.Parts before run ahead) :
    c.resultChar = .ok (
      match run ++ ahead with
      | ch :: _ => .ok ch
      | [] => .error (.indexOutOfRange c.start c.length)) := by
  have hlength : c.length = c.start + Utf8.width (run ++ ahead) := by
    rw [h.length_eq, h.start_eq, List.append_assoc, Utf8.width_append]
  unfold resultChar
  cases hrest : run ++ ahead with
  | nil =>
    rw [hrest, Utf8.width_nil] at hlength
    rw [if_pos (by omega)]
  | cons ch rest =>
    have hpos := ch.utf8Size_pos
    rw [hrest, Utf8.width_cons] at hlength
    have hchars : c.text.chars = before ++ ch :: rest := by rw [h.chars_eq, List.append_assoc, hrest]
    rw [if_neg (by omega)]
    exact Access.charAt_eq_ok_iff.2 ⟨before, rest, hchars, h.start_eq.symm⟩

end Cursor

namespace Relocated

variable {front before run ahead taken : List Char} {c c' : Cursor}

theorem start_eq (h : Relocated front before run ahead c c') : c.start = c'.start + Utf8.width front := by
  rw [h.behind.start_eq, h.alone.start_eq, Utf8.width_append, Nat.add_comm]

theorem index_eq (h : Relocated front before run ahead c c') : c.index = c'.index + Utf8.width front := by
  rw [h.behind.index_eq, h.alone.index_eq, List.append_assoc, Utf8.width_append, Nat.add_comm]

/-- Both take the same characters as their new result. -/
theorem acceptTo (h : Relocated front before run ahead c c') (htaken : taken <+: ahead) :
    ∃ before' run' ahead', Relocated front before' run' ahead'
      (c.acceptTo (c.index + Utf8.width taken)) (c'.acceptTo (c'.index + Utf8.width taken)) := by
  obtain ⟨rest, rfl⟩ := htaken
  have hbehind := h.behind.parts_acceptTo
  rw [List.append_assoc] at hbehind
  exact ⟨_, _, _, hbehind, h.alone.parts_acceptTo⟩

/-- Both extend their result by the same characters. -/
theorem extend (h : Relocated front before run ahead c c') (htaken : taken <+: ahead) :
    ∃ before' run' ahead', Relocated front before' run' ahead'
      { c with index := c.index + Utf8.width taken } { c' with index := c'.index + Utf8.width taken } := by
  obtain ⟨rest, rfl⟩ := htaken
  exact ⟨_, _, _, h.behind.parts_extend, h.alone.parts_extend⟩

/-- Both give their result up. They go back to their own starts, which are the same place. -/
theorem giveUp (h : Relocated front before run ahead c c') :
    ∃ before' run' ahead', Relocated front before' run' ahead'
      { c with index := c.start } { c' with index := c'.start } :=
  ⟨_, _, _, h.behind.parts_giveUp, h.alone.parts_giveUp⟩

theorem settle (h : Relocated front before run ahead c c') {a : Attempt} (ha : a.Sound ahead) :
    ((c.settle a).map .flag).Relocated front ((c'.settle a).map .flag) := by
  unfold Cursor.settle
  split
  next taken htaken => exact ⟨.same, rfl, h.acceptTo (ha taken htaken)⟩
  next => exact ⟨.same, rfl, before, run, ahead, h⟩

theorem settleExtension (h : Relocated front before run ahead c c') {a : Attempt} (ha : a.Sound ahead) :
    ((c.settleExtension a).map .flag).Relocated front ((c'.settleExtension a).map .flag) := by
  unfold Cursor.settleExtension
  split
  next taken htaken => exact ⟨.same, rfl, h.extend (ha taken htaken)⟩
  next => exact ⟨.same, rfl, h.giveUp⟩

/-- One step of an operation that sets no offset. -/
theorem exists_operation (h : Relocated front before run ahead c c') {op : Operation} (hop : op.isSetter = false) :
    ∃ o o', op.run c = .ok o ∧ op.run c' = .ok o' ∧ o.Relocated front o' := by
  cases op with
  | tryMatch op =>
    exact ⟨_, _, Operation.run_tryMatch_eq op h.behind, Operation.run_tryMatch_eq op h.alone,
      h.settle (op.sound_attempt ahead)⟩
  | extend op =>
    exact ⟨_, _, Operation.run_extend_eq op h.behind, Operation.run_extend_eq op h.alone,
      h.settleExtension (op.sound_attempt ahead)⟩
  | skip op =>
    exact ⟨_, _, Operation.run_skip_eq op h.behind, Operation.run_skip_eq op h.alone, .same, rfl,
      h.acceptTo (op.taken_isPrefix ahead)⟩
  | skipCount n =>
    refine ⟨_, _, Operation.run_skipCount_eq n h.behind, Operation.run_skipCount_eq n h.alone, ?_⟩
    by_cases hfew : ahead.length < n
    · rw [if_pos hfew, if_pos hfew]
      exact ⟨.outOfRange, rfl, before, run, ahead, h⟩
    · rw [if_neg hfew, if_neg hfew]
      exact ⟨.same, rfl, h.acceptTo (ahead.take_prefix n)⟩
  | nextChar =>
    refine ⟨_, _, Operation.run_nextChar_eq h.behind, Operation.run_nextChar_eq h.alone, ?_⟩
    cases ahead with
    | nil => exact ⟨.outOfRange, rfl, before, run, [], h⟩
    | cons ch rest => exact ⟨.same, rfl, h.acceptTo ⟨rest, rfl⟩⟩
  | revert => exact ⟨_, _, rfl, rfl, .same, rfl, h.giveUp⟩
  | setStart start => cases hop
  | setIndex index => cases hop

/-- One step of a query that names no offset. Both cursors stay. -/
theorem exists_query (h : Relocated front before run ahead c c') {q : Query} (hq : q.isRelative = true) :
    ∃ o o', q.run c = .ok o ∧ q.run c' = .ok o' ∧ o.Relocated front o' := by
  have hstay : ∃ before run ahead, Relocated front before run ahead c c' := ⟨before, run, ahead, h⟩
  cases q with
  | isAtEnd =>
    refine ⟨_, _, rfl, rfl, ?_, rfl, hstay⟩
    rw [h.behind.isAtEnd_eq, h.alone.isAtEnd_eq]
    exact .same
  | result =>
    refine ⟨_, _, by rw [Query.run, h.behind.result_eq]; rfl, by rw [Query.run, h.alone.result_eq]; rfl, ?_⟩
    exact ⟨.same, rfl, hstay⟩
  | resultLength =>
    refine ⟨_, _, by rw [Query.run, h.behind.resultLength_eq]; rfl, by rw [Query.run, h.alone.resultLength_eq]; rfl, ?_⟩
    exact ⟨.same, rfl, hstay⟩
  | resultChar =>
    refine ⟨_, _, by rw [Query.run, h.behind.resultChar_eq]; rfl, by rw [Query.run, h.alone.resultChar_eq]; rfl, ?_⟩
    refine ⟨?_, rfl, hstay⟩
    cases run ++ ahead with
    | nil => exact .outOfRange
    | cons ch rest => exact .same
  | resultDecimal size negative =>
    -- both read the same digits
    have hrun := Cursor.number_eq h.behind.numeral_result_eq (Numeral.Decimal.parse size negative) .decimalRefused
    have hrun' := Cursor.number_eq h.alone.numeral_result_eq (Numeral.Decimal.parse size negative) .decimalRefused
    refine ⟨_, _, by rw [Query.run, Cursor.resultDecimal, Cursor.decimal, hrun]; rfl,
      by rw [Query.run, Cursor.resultDecimal, Cursor.decimal, hrun']; rfl, ?_⟩
    exact ⟨.same, rfl, hstay⟩
  | resultHex size =>
    have hrun := Cursor.number_eq h.behind.numeral_result_eq (Numeral.Hexadecimal.parse size) .hexRefused
    have hrun' := Cursor.number_eq h.alone.numeral_result_eq (Numeral.Hexadecimal.parse size) .hexRefused
    refine ⟨_, _, by rw [Query.run, Cursor.resultHex, Cursor.hex, hrun]; rfl,
      by rw [Query.run, Cursor.resultHex, Cursor.hex, hrun']; rfl, ?_⟩
    exact ⟨.same, rfl, hstay⟩
  | charAt | substring | decimal | hex => cases hq

/-- One step of both: whatever is done without naming an offset is done alike, and leaves relocated cursors. -/
theorem exists_step (h : Relocated front before run ahead c c') {use : Use} (huse : use.isRelative = true) :
    ∃ o o', use.run c = .ok o ∧ use.run c' = .ok o' ∧ o.Relocated front o' := by
  cases use with
  | act op => exact h.exists_operation (by rwa [Use.isRelative, Bool.not_eq_true'] at huse)
  | ask q => exact h.exists_query huse

/-- The outcomes of a run stay a prefix apart, use by use. -/
theorem exists_run {uses : List Use} (huses : ∀ use ∈ uses, use.isRelative = true)
    (h : Relocated front before run ahead c c') :
    ∃ os os', c.trace uses = .ok os ∧ c'.trace uses = .ok os' ∧
      List.Forall₂ (Outcome.Relocated front) os os' := by
  -- by induction on the uses, over all ways in which the two cursors cut what they have
  induction uses generalizing before run ahead c c' with
  | nil => exact ⟨[], [], rfl, rfl, .nil⟩
  | cons use uses ih =>
    obtain ⟨huse, huses⟩ := List.forall_mem_cons.1 huses
    obtain ⟨o, o', hrun, hrun', hstep⟩ := h.exists_step huse
    obtain ⟨_, _, _, hcursors⟩ := hstep.cursors
    obtain ⟨os, os', htrace, htrace', hsteps⟩ := ih huses hcursors
    refine ⟨o :: os, o' :: os', ?_, ?_, .cons hstep hsteps⟩
    · rw [Cursor.trace, hrun]
      dsimp only [bind, Except.bind]
      rw [htrace]
      rfl
    · rw [Cursor.trace, hrun']
      dsimp only [bind, Except.bind]
      rw [htrace']
      rfl

end Relocated

theorem Outcome.Relocated.mirrors {front : List Char} {o o' : Outcome Reply} (h : o.Relocated front o') :
    o.Mirrors (Utf8.width front) o' := by
  obtain ⟨_, _, _, hcursors⟩ := h.cursors
  exact ⟨h.reply_alike, h.asked_eq, hcursors.start_eq, hcursors.index_eq⟩

namespace Cursor

/-- The beginning of the second part of a text can be moved to, and the cursor there is a new one with the first part
behind it. -/
theorem relocated_ofText {whole part : Text} {front : List Char} (hwhole : whole.chars = front ++ part.chars) :
    TextCursor.Relocated front [] [] part.chars ⟨whole, Utf8.width front, Utf8.width front⟩ (ofText part) where
  behind := ⟨by simpa using hwhole, by simp, by simp⟩
  alone := Parts.ofText part

/-- Translation: with any text in front of another, what is done behind the first comes out as if it were not there, but
for the offsets, all of which are further back by its bytes. That is so of everything that names no offset, done in any
order and any number of times, and it all goes through. -/
theorem trace_mirrors {whole part : Text} {front : List Char} (hwhole : whole.chars = front ++ part.chars)
    {uses : List Use} (huses : ∀ use ∈ uses, use.isRelative = true) :
    ((ofText whole).setStart (Utf8.width front)).reply = .ok () ∧
    ((ofText whole).setStart (Utf8.width front)).cursor = ⟨whole, Utf8.width front, Utf8.width front⟩ ∧
    ∃ os os', (⟨whole, Utf8.width front, Utf8.width front⟩ : Cursor).trace uses = .ok os ∧
      (ofText part).trace uses = .ok os' ∧ List.Forall₂ (Outcome.Mirrors (Utf8.width front)) os os' := by
  have hboundary : Utf8.IsBoundary whole.chars (Utf8.width front) := ⟨front, part.chars, hwhole, rfl⟩
  have hmoved := moveTo_of_isBoundary (c := ofText whole) hboundary
  obtain ⟨os, os', htrace, htrace', hsteps⟩ := (relocated_ofText hwhole).exists_run huses
  refine ⟨by rw [setStart, hmoved], by rw [setStart, hmoved]; simp [ofText], os, os', htrace, htrace', ?_⟩
  exact hsteps.imp fun _ _ hstep => hstep.mirrors

/-- Behind a letter of two bytes: a match that asks a probe, a conversion of what it took, an extension that fails, and
a count of characters that is too large. -/
theorem trace_mirrors_behind_letter :
    let whole : Text := ⟨['é', '4', '2', 'a'], by decide⟩
    let part : Text := ⟨['4', '2', 'a'], by decide⟩
    let uses : List Use := [.act (.tryMatch (.whileHolds (.probe "digit" .digit))), .ask (.resultDecimal .word32 false),
      .act (.extend (.whileBounded 3 2 .anything)), .act (.skipCount 4)]
    whole.chars = ['é'] ++ part.chars ∧ (∀ use ∈ uses, use.isRelative = true) ∧
    ∃ os os', (⟨whole, 2, 2⟩ : Cursor).trace uses = .ok os ∧ (ofText part).trace uses = .ok os' ∧
      List.Forall₂ (Outcome.Mirrors 2) os os' ∧
      os.map Outcome.reply = [.flag true, .integer 42, .flag false, .failure (.indexOutOfRange 6 5)] ∧
      os'.map Outcome.reply = [.flag true, .integer 42, .flag false, .failure (.indexOutOfRange 4 3)] := by
  intro whole part uses
  have hwhole : whole.chars = ['é'] ++ part.chars := rfl
  have huses : ∀ use ∈ uses, use.isRelative = true := by decide
  obtain ⟨-, -, os, os', htrace, htrace', hmirrors⟩ := trace_mirrors hwhole huses
  refine ⟨hwhole, huses, os, os', htrace, htrace', hmirrors, ?_, ?_⟩
  · cases htrace
    decide
  · cases htrace'
    decide

end Cursor

end TextCursor
