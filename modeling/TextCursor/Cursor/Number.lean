import TextCursor.Cursor.Result
import TextCursor.Numeral.Decimal
import TextCursor.Numeral.Hexadecimal

/-!
# Numbers in the text

A range of the text, or the current result, read as a number. An empty or inverted range is an empty numeral wherever
its ends are; only then is the range checked, and only then are digits looked at. A numeral that is refused at that last
step leaves a record.
-/

set_option autoImplicit false

namespace TextCursor.Cursor

/-- The digits between two offsets, of which there has to be at least one byte. -/
def numeral (c : Cursor) (first last : Nat) : Except Breach (Except ScanError String) :=
  if last ≤ first then .ok (.error (.number .empty)) else c.substring first last

/-- The number between two offsets as `parse` reads it. Digits that it refuses leave a record. -/
def number {α : Type} (c : Cursor) (parse : String → Except Numeral.Error α)
    (refused : String → Numeral.Error → Record) (first last : Nat) : Except Breach (Outcome (Except ScanError α)) := do
  match ← c.numeral first last with
  | .error e => return ⟨.error e, c, [], []⟩
  | .ok digits =>
    match parse digits with
    | .ok n => return ⟨.ok n, c, [], []⟩
    | .error e => return ⟨.error (.number e), c, [], [refused digits e]⟩

/-- The decimal number between two offsets, negated if asked for. -/
def decimal (c : Cursor) (size : Numeral.Size) (negative : Bool) (first last : Nat) :
    Except Breach (Outcome (Except ScanError Int)) :=
  c.number (Numeral.Decimal.parse size negative) .decimalRefused first last

def hex (c : Cursor) (size : Numeral.Size) (first last : Nat) :
    Except Breach (Outcome (Except ScanError (BitVec size.bits))) :=
  c.number (Numeral.Hexadecimal.parse size) .hexRefused first last

def resultDecimal (c : Cursor) (size : Numeral.Size) (negative : Bool) :
    Except Breach (Outcome (Except ScanError Int)) :=
  c.decimal size negative c.start c.index

def resultHex (c : Cursor) (size : Numeral.Size) : Except Breach (Outcome (Except ScanError (BitVec size.bits))) :=
  c.hex size c.start c.index

end TextCursor.Cursor
