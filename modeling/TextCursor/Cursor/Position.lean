import TextCursor.Cursor.Basic

/-!
# Moving by offset

The start and the index can be set to any boundary of the text. They stay in order: setting one past the other moves
the other along. An offset that is no boundary changes nothing and is reported. Going back to the start never fails.
-/

set_option autoImplicit false

namespace TextCursor.Cursor

/-- What is wrong with an offset to move to, with the record to leave. The end of the text is a place to move to. -/
def offsetFault? (c : Cursor) (offset : Nat) : Option (ScanError × Record) :=
  if c.length < offset then some (.indexOutOfRange offset c.length, .offsetBeyond offset c.length)
  else if ¬ Utf8.IsBoundary c.text.chars offset then some (.notCharBoundary offset, .offsetInside offset)
  else none

/-- The move to `next`, unless something is wrong with the offset that was asked for. -/
def moveTo (c : Cursor) (offset : Nat) (next : Cursor) (record : Record) : Outcome (Except ScanError Unit) :=
  match c.offsetFault? offset with
  | some (e, refusal) => ⟨.error e, c, [], [refusal]⟩
  | none => ⟨.ok (), next, [], [record]⟩

/-- Sets the start; an index before it moves up to it. -/
def setStart (c : Cursor) (start : Nat) : Outcome (Except ScanError Unit) :=
  c.moveTo start { c with start, index := max c.index start } (.startSet start c.index)

/-- Sets the index; a start behind it moves back to it. -/
def setIndex (c : Cursor) (index : Nat) : Outcome (Except ScanError Unit) :=
  c.moveTo index { c with start := min c.start index, index } (.indexSet index c.start)

/-- Takes the last advance back: the index returns to the start. -/
def revert (c : Cursor) : Outcome Unit :=
  ⟨(), { c with index := c.start }, [], [.reverted c.index c.start]⟩

end TextCursor.Cursor
