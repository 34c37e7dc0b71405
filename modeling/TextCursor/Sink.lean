import TextCursor.ScanError

/-!
# Sinks

A sink takes strings one after the other. It may be bounded, and then it refuses a string that would take it past its
bound, whole: a refused write leaves the content as it was. Every attempt counts as a write, refused and empty ones
included.
-/

set_option autoImplicit false

namespace TextCursor

/-- What has been written so far, how often a write was tried, and the bound on the bytes, if there is one. -/
structure Sink where
  content : String
  writes : Nat
  capacity : Option Nat
deriving DecidableEq, Repr

/-- The result of a write, and the sink after it. -/
structure Written (ε : Type) where
  result : Except ε Unit
  sink : Sink

namespace Sink

def empty (capacity : Option Nat) : Sink :=
  ⟨"", 0, capacity⟩

/-- Whether the content with one more string behind it stays within the bound. -/
def hasRoom (s : Sink) (added : String) : Bool :=
  match s.capacity with
  | none => true
  | some bound => s.content.utf8ByteSize + added.utf8ByteSize ≤ bound

/-- Writes a whole string, or nothing of it. -/
def write (s : Sink) (added : String) : Written SinkError :=
  if s.hasRoom added then ⟨.ok (), { s with content := s.content ++ added, writes := s.writes + 1 }⟩
  else ⟨.error .refused, { s with writes := s.writes + 1 }⟩

variable {s : Sink} {added : String}

theorem write_of_hasRoom (h : s.hasRoom added = true) :
    s.write added = ⟨.ok (), { s with content := s.content ++ added, writes := s.writes + 1 }⟩ :=
  if_pos h

theorem write_of_not_hasRoom (h : s.hasRoom added = false) :
    s.write added = ⟨.error .refused, { s with writes := s.writes + 1 }⟩ :=
  if_neg (Bool.eq_false_iff.1 h)

/-- Every attempt counts. -/
theorem writes_write (s : Sink) (added : String) : (s.write added).sink.writes = s.writes + 1 := by
  cases hroom : s.hasRoom added with
  | true => rw [write_of_hasRoom hroom]
  | false => rw [write_of_not_hasRoom hroom]

end Sink

end TextCursor
