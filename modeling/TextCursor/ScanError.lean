import TextCursor.Numeral.Basic
import TextCursor.Quoted

/-!
# Errors

A match that fails is no error. Errors answer misuse: offsets and ranges that do not fit the text, bytes that are no
text, digits that are no number, and a sink that refuses what is written to it. `message` is the wording for people,
`inspect` shows the constructor with its fields.
-/

set_option autoImplicit false

namespace TextCursor

/-- Why a sink took nothing. A sink gives no reason beyond the refusal. -/
inductive SinkError where
  | refused
deriving DecidableEq, Repr

/-- What an operation reports instead of an answer. -/
inductive ScanError where
  | invalidArgument (reason : String)
  | indexOutOfRange (index length : Nat)
  /-- A range is inverted or ends beyond the end. -/
  | rangeOutOfBounds (first last length : Nat)
  | notCharBoundary (offset : Nat)
  | number (cause : Numeral.Error)
  | write (cause : SinkError)
deriving DecidableEq, Repr

inductive ErrorKind where
  | invalidArgument | outOfRange | numberFormat | write
deriving DecidableEq, Repr

def Numeral.Error.message : Numeral.Error → String
  | .empty => "empty digit range"
  | .invalidDigit ch => s!"illegal digit {Quoted.ofChar ch}"
  | .overflow => "value out of range for integer type"

def Numeral.Error.inspect : Numeral.Error → String
  | .empty => "Empty"
  | .invalidDigit ch => s!"InvalidDigit({Quoted.ofChar ch})"
  | .overflow => "Overflow"

def SinkError.message : SinkError → String
  | .refused => "an error occurred when formatting an argument"

def SinkError.inspect : SinkError → String
  | .refused => "Error"

namespace ScanError

def kind : ScanError → ErrorKind
  | invalidArgument _ => .invalidArgument
  | indexOutOfRange _ _ | rangeOutOfBounds _ _ _ | notCharBoundary _ => .outOfRange
  | number _ => .numberFormat
  | write _ => .write

def message : ScanError → String
  | invalidArgument reason => s!"invalid argument: {reason}"
  | indexOutOfRange index length => s!"index {index} out of range for length {length}"
  | rangeOutOfBounds first last length => s!"range {first}..{last} out of bounds for length {length}"
  | notCharBoundary offset => s!"offset {offset} is not on a character boundary"
  | number cause => s!"number format error: {cause.message}"
  | write _ => "write to sink failed"

/-- The wording of the error behind this one, if there is one. -/
def cause? : ScanError → Option String
  | number cause => some cause.message
  | write cause => some cause.message
  | invalidArgument _ | indexOutOfRange _ _ | rangeOutOfBounds _ _ _ | notCharBoundary _ => none

def inspect : ScanError → String
  | invalidArgument reason => s!"InvalidArgument({Quoted.ofString reason})"
  | indexOutOfRange index length => s!"IndexOutOfRange \x7b index: {index}, length: {length} \x7d"
  | rangeOutOfBounds first last length => s!"RangeOutOfBounds \x7b from: {first}, to: {last}, length: {length} \x7d"
  | notCharBoundary offset => s!"NotCharBoundary \x7b offset: {offset} \x7d"
  | number cause => s!"NumberFormat({cause.inspect})"
  | write cause => s!"Write({cause.inspect})"

end ScanError

end TextCursor
