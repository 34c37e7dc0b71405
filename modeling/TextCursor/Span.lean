import TextCursor.Access
import TextCursor.Text

/-!
# Spans

A span is the part of a text between two offsets, kept by its offsets: making one copies nothing, and two spans are
equal when they are the same place of the same text, not when they read alike. Offsets handed to a span count from its
own start, and so do the offsets in its reports.
-/

set_option autoImplicit false

namespace TextCursor

/-- The part of a text from `start` up to `stop`. -/
structure Span where
  text : Text
  start : Nat
  stop : Nat
deriving DecidableEq, Repr

namespace Span

/-- The span between two offsets, which have to be in order and within the text. -/
def ofOffsets (t : Text) (start stop : Nat) : Except Breach Span :=
  if start ≤ stop ∧ stop ≤ t.length then .ok ⟨t, start, stop⟩ else .error (.span start stop t.length)

def length (s : Span) : Except Breach Nat :=
  Offset.sub s.stop s.start

def isEmpty (s : Span) : Bool :=
  s.start == s.stop

def chars (s : Span) : Except Breach (List Char) :=
  Utf8.slice s.text.chars s.start s.stop

def content (s : Span) : Except Breach String := do
  return String.ofList (← s.chars)

/-- The character that begins at an offset from the start of the span. -/
def charAt (s : Span) (offset : Nat) : Except Breach (Except ScanError Char) := do
  Access.charAt (← s.chars) offset

/-- The span between two offsets from the start of this one. -/
def sub (s : Span) (first last : Nat) : Except Breach (Except ScanError Span) := do
  match Access.rangeFault? (← s.chars) first last with
  | some e => return .error e
  | none => return .ok (← ofOffsets s.text (← Offset.add s.start first) (← Offset.add s.start last))

def reads (s : Span) (content : String) : Except Breach Bool := do
  return (← s.content) == content

def inspect (s : Span) : Except Breach String := do
  return s!"TextView({s.start}..{s.stop}, {Quoted.ofString (← s.content)})"

/-- All that can be seen of a span without asking for an offset. -/
structure Report where
  start : Nat
  stop : Nat
  length : Nat
  isEmpty : Bool
  content : String
  inspected : String
deriving DecidableEq, Repr

def report (s : Span) : Except Breach Report := do
  return ⟨s.start, s.stop, ← s.length, s.isEmpty, ← s.content, ← s.inspect⟩

end Span

end TextCursor
