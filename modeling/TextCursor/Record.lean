import TextCursor.Numeral.Basic
import TextCursor.ScanError
import TextCursor.Utf8.Decode

/-!
# Log records

Operations leave records of what they did. A change of position that was asked for by offset or by count is traced;
an error is recorded for debugging where it arises. Matches and searches, which are what a scanner does all the time,
leave none.
-/

set_option autoImplicit false

namespace TextCursor

inductive Level where
  | trace | debug
deriving DecidableEq, Repr

inductive Record where
  /-- The start was set; `index` is the index before. -/
  | startSet (start index : Nat)
  /-- The index was set; `start` is the start before. -/
  | indexSet (index start : Nat)
  | reverted (index start : Nat)
  | skipped (index stop : Nat)
  /-- An offset to move to is beyond the end. -/
  | offsetBeyond (offset length : Nat)
  /-- An offset to move to is inside a character. -/
  | offsetInside (offset : Nat)
  /-- A count to skip is more than there is; the text ends at `stop`. -/
  | skipTooFar (count stop : Nat)
  /-- A character was asked for at the end of the text. -/
  | noNextChar (index : Nat)
  | decimalRefused (digits : String) (cause : Numeral.Error)
  | hexRefused (digits : String) (cause : Numeral.Error)
  | bytesRefused (cause : Utf8.DecodeError)
deriving DecidableEq, Repr

namespace Record

/-- The name under which all records are filed. -/
def target : String := "text_matcher"

/-- What was done is traced, what was refused is for debugging. -/
def level : Record → Level
  | startSet _ _ | indexSet _ _ | reverted _ _ | skipped _ _ => .trace
  | offsetBeyond _ _ | offsetInside _ | skipTooFar _ _ | noNextChar _ | decimalRefused _ _ | hexRefused _ _
  | bytesRefused _ => .debug

def message : Record → String
  | startSet start index => s!"set_start {start} (index {index})"
  | indexSet index start => s!"set_index {index} (start {start})"
  | reverted index start => s!"revert {index} -> {start}"
  | skipped index stop => s!"skip_fixed {index}..{stop}"
  | offsetBeyond offset length => s!"offset {offset} beyond length {length}"
  | offsetInside offset => s!"offset {offset} splits a character"
  | skipTooFar count stop => s!"skip_fixed({count}) runs past end at {stop}"
  | noNextChar index => s!"next_char at end of text ({index})"
  | decimalRefused digits cause => s!"decimal conversion of {Quoted.ofString digits} failed: {cause.message}"
  | hexRefused digits cause => s!"hex conversion of {Quoted.ofString digits} failed: {cause.message}"
  | bytesRefused cause => s!"rejecting matcher text: {cause.message}"

end Record

end TextCursor
