import TextCursor.Cursor.Result

/-!
# Snapshots

All that can be seen of a cursor without an argument, taken at one moment.
-/

set_option autoImplicit false

namespace TextCursor

/-- What a cursor shows of its text, its place in it and its result. -/
structure Snapshot where
  text : String
  length : Nat
  isEmpty : Bool
  start : Nat
  index : Nat
  isAtEnd : Bool
  result : String
  resultLength : Nat
  resultChar : Except ScanError Char
  resultSpan : Span.Report
  inspected : String

def Cursor.snapshot (c : Cursor) : Except Breach Snapshot := do
  let span ← c.resultSpan
  return {
    text := c.text.content
    length := c.length
    isEmpty := c.isEmpty
    start := c.start
    index := c.index
    isAtEnd := c.isAtEnd
    result := ← c.result
    resultLength := ← c.resultLength
    resultChar := ← c.resultChar
    resultSpan := ← span.report
    inspected := c.inspect }

end TextCursor
