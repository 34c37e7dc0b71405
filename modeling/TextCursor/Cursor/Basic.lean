import TextCursor.Access
import TextCursor.Record
import TextCursor.Scan
import TextCursor.Text

/-!
# Cursors

A cursor is a text with two byte offsets. The index is where the next character is looked for; the start is where the
run taken by the last operation began, so that the characters from the start to the index are the current result.

The offsets are plain numbers. `WellFormed` says what they have to be for the result and the rest to exist; it holds of
a new cursor and is not part of the type. The functions that cut the text answer with a breach where it fails.
-/

set_option autoImplicit false

namespace TextCursor

/-- A position in a text, with the start of the last result. -/
structure Cursor where
  text : Text
  start : Nat
  index : Nat
deriving DecidableEq, Repr

/-- What an operation yields: its answer, the cursor after it, the notes taken by probes, and the records left. -/
structure Outcome (α : Type) where
  reply : α
  cursor : Cursor
  asked : List Inquiry
  log : List Record

/-- A cursor made from bytes, or the reason why there is none, and the records left. -/
structure Opened where
  result : Except ScanError Cursor
  log : List Record

namespace Cursor

def ofText (t : Text) : Cursor :=
  ⟨t, 0, 0⟩

def ofBytes (bytes : Bytes) : Opened :=
  match Text.ofBytes bytes with
  | .ok t => ⟨.ok (ofText t), []⟩
  | .error e => ⟨.error (.invalidArgument s!"text is not valid UTF-8: {e.message}"), [.bytesRefused e]⟩

def length (c : Cursor) : Nat :=
  c.text.length

def isEmpty (c : Cursor) : Bool :=
  c.length == 0

def isAtEnd (c : Cursor) : Bool :=
  c.length ≤ c.index

/-- Both offsets lie between two characters of the text or at an end of it, and the start is not behind the index. -/
structure WellFormed (c : Cursor) : Prop where
  start_le_index : c.start ≤ c.index
  start_isBoundary : Utf8.IsBoundary c.text.chars c.start
  index_isBoundary : Utf8.IsBoundary c.text.chars c.index

theorem wellFormed_ofText (t : Text) : (ofText t).WellFormed :=
  ⟨Nat.le_refl 0, Utf8.isBoundary_zero _, Utf8.isBoundary_zero _⟩

/-- The three parts into which a cursor cuts its text: what lies before the result, the result, and what lies ahead. -/
structure Parts (c : Cursor) (before run ahead : List Char) : Prop where
  chars_eq : c.text.chars = before ++ run ++ ahead
  start_eq : c.start = Utf8.width before
  index_eq : c.index = Utf8.width (before ++ run)

/-- The cursors that cut their text into three parts are the well-formed ones. -/
theorem wellFormed_iff_exists_parts {c : Cursor} :
    c.WellFormed ↔ ∃ before run ahead, c.Parts before run ahead := by
  constructor
  · rintro ⟨hle, hstart, hindex⟩
    obtain ⟨before, run, ahead, hchars, hfirst, hlast⟩ := hstart.exists_parts hindex hle
    exact ⟨before, run, ahead, hchars, hfirst, hlast⟩
  · rintro ⟨before, run, ahead, hchars, hstart, hindex⟩
    refine ⟨by simp [hstart, hindex], ⟨before, run ++ ahead, by simp [hchars], hstart.symm⟩,
      ⟨before ++ run, ahead, hchars, hindex.symm⟩⟩

def rest (c : Cursor) : Except Breach (List Char) :=
  Utf8.sliceFrom c.text.chars c.index

def peek (c : Cursor) : Except Breach (Option Char) := do
  return (← c.rest).head?

/-- A character that stands at the index ends within the text. -/
theorem add_utf8Size_le_length {c : Cursor} {ch : Char} (h : c.peek = .ok (some ch)) :
    c.index + ch.utf8Size ≤ c.length := by
  cases hrest : c.rest with
  | error breach => simp [peek, hrest, bind, Except.bind] at h
  | ok ahead =>
    obtain ⟨before, hchars, hindex⟩ := Utf8.sliceFrom_eq_ok_iff.1 hrest
    cases ahead with
    | nil => simp [peek, hrest, bind, Except.bind, pure, Except.pure] at h
    | cons first rest =>
      obtain rfl : first = ch := by simpa [peek, hrest, bind, Except.bind, pure, Except.pure] using h
      simp only [length, Text.length, hchars, Utf8.width_append, Utf8.width_cons]
      omega

/-- Scans from the index on, over at most `max` characters (0 is no bound). -/
def scan (c : Cursor) (max : Nat) (t : CharTest) : Except Breach Scan := do
  t.scan max c.index 0 (← c.rest)

def charAt (c : Cursor) (offset : Nat) : Except Breach (Except ScanError Char) :=
  Access.charAt c.text.chars offset

/-- The cursor with everything from its index up to `stop` as its result. -/
def acceptTo (c : Cursor) (stop : Nat) : Cursor :=
  { c with start := c.index, index := stop }

/-- The cursor with the run that stands at its index as its result. -/
def accept (c : Cursor) (run : List Char) : Except Breach Cursor := do
  return c.acceptTo (← Offset.add c.index (Utf8.width run))

namespace Parts

variable {c : Cursor} {before run ahead taken : List Char}

theorem rest_eq (h : c.Parts before run ahead) : c.rest = .ok ahead :=
  Utf8.sliceFrom_eq_ok_iff.2 ⟨before ++ run, h.chars_eq, h.index_eq.symm⟩

theorem peek_eq (h : c.Parts before run ahead) : c.peek = .ok ahead.head? := by
  simp [peek, h.rest_eq, bind, Except.bind, pure, Except.pure]

theorem length_eq (h : c.Parts before run ahead) : c.length = Utf8.width (before ++ run ++ ahead) := by
  rw [length, Text.length, h.chars_eq]

/-- Moving over what stands at the index makes it the result, and the old result a part of what lies before. -/
theorem parts_acceptTo (h : c.Parts before run (taken ++ ahead)) :
    (c.acceptTo (c.index + Utf8.width taken)).Parts (before ++ run) taken ahead where
  chars_eq := by simp [Cursor.acceptTo, h.chars_eq]
  start_eq := h.index_eq
  index_eq := by simp [Cursor.acceptTo, h.index_eq, Nat.add_assoc]

/-- The new index fits a word, because it is an offset into the text. -/
theorem accept_eq (h : c.Parts before run (taken ++ ahead)) :
    c.accept taken = .ok (c.acceptTo (c.index + Utf8.width taken)) := by
  have hlen := h.length_eq
  have hidx := h.index_eq
  have hlt := c.text.length_lt_wordCount
  simp only [Cursor.length, Utf8.width_append] at hlen hidx
  rw [accept, Offset.add_eq_ok (by omega)]
  rfl

end Parts

end Cursor

end TextCursor
