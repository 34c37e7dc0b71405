import TextCursor.Cursor.Basic
import TextCursor.Sink
import TextCursor.Span

/-!
# Results and ranges

The run that the last operation took, and any other range of the text, can be had as a string, as a span, or written to
a sink. A range is checked first, in one order for all three forms, and a range that fails the check is never written.
-/

set_option autoImplicit false

namespace TextCursor.Cursor

def resultChars (c : Cursor) : Except Breach (List Char) :=
  Utf8.slice c.text.chars c.start c.index

theorem Parts.resultChars_eq {c : Cursor} {before run ahead : List Char} (h : c.Parts before run ahead) :
    c.resultChars = .ok run :=
  Utf8.slice_eq_ok_iff.2 ⟨before, ahead, h.chars_eq, h.start_eq.symm, h.index_eq.symm⟩

def result (c : Cursor) : Except Breach String := do
  return String.ofList (← c.resultChars)

theorem Parts.result_eq {c : Cursor} {before run ahead : List Char} (h : c.Parts before run ahead) :
    c.result = .ok (String.ofList run) := by
  rw [result, h.resultChars_eq]
  rfl

def resultSpan (c : Cursor) : Except Breach Span :=
  Span.ofOffsets c.text c.start c.index

def resultLength (c : Cursor) : Except Breach Nat :=
  Offset.sub c.index c.start

/-- The character at the start, which is the first of the current result if there is any. -/
def resultChar (c : Cursor) : Except Breach (Except ScanError Char) :=
  if c.length ≤ c.start then .ok (.error (.indexOutOfRange c.start c.length))
  else c.charAt c.start

def substring (c : Cursor) (first last : Nat) : Except Breach (Except ScanError String) :=
  match Access.rangeFault? c.text.chars first last with
  | some e => .ok (.error e)
  | none => do return .ok (String.ofList (← Utf8.slice c.text.chars first last))

def substringSpan (c : Cursor) (first last : Nat) : Except Breach (Except ScanError Span) :=
  match Access.rangeFault? c.text.chars first last with
  | some e => .ok (.error e)
  | none => do return .ok (← Span.ofOffsets c.text first last)

def appendResult (c : Cursor) (sink : Sink) : Except Breach (Written SinkError) := do
  return sink.write (← c.result)

/-- Writes the text between two offsets to a sink; a range that is refused is not written. -/
def appendSubstring (c : Cursor) (sink : Sink) (first last : Nat) : Except Breach (Written ScanError) := do
  match ← c.substring first last with
  | .error e => return ⟨.error e, sink⟩
  | .ok content =>
    let written := sink.write content
    match written.result with
    | .ok () => return ⟨.ok (), written.sink⟩
    | .error e => return ⟨.error (.write e), written.sink⟩

def inspect (c : Cursor) : String :=
  let text := Quoted.ofString c.text.content
  s!"Matcher \x7b text: {text}, length: {c.length}, start: {c.start}, index: {c.index} \x7d"

end TextCursor.Cursor
