import TextCursor.Offset
import TextCursor.Utf8.Decode
import TextCursor.Utf8.Slice

/-!
# Texts

A `Text` is what a cursor moves over: a list of characters whose encoding fits in memory. The bound is part of the
type. Every offset into a text therefore fits a word (`Text.length_lt_wordCount`), which is why no theorem about cursors
has to assume anything about the size of the text.

A text comes from a string, or from bytes that have to be well-formed UTF-8. Only the size can keep a string from being
a text, only a fault in the encoding can keep bytes of admissible size from being one.
-/

set_option autoImplicit false

namespace TextCursor

/-- The largest number of bytes an object in memory can have. -/
def maxObjectSize : Nat := 0x7FFF_FFFF_FFFF_FFFF

/-- Characters whose encoding fits in memory. -/
structure Text where
  chars : List Char
  width_le : Utf8.width chars ≤ maxObjectSize
deriving DecidableEq, Repr

/-- Bytes that fit in memory. -/
structure Bytes where
  toList : List UInt8
  length_le : toList.length ≤ maxObjectSize
deriving DecidableEq, Repr

def Bytes.ofList? (bytes : List UInt8) : Option Bytes :=
  if h : bytes.length ≤ maxObjectSize then some ⟨bytes, h⟩ else none

namespace Text

def ofChars? (cs : List Char) : Option Text :=
  if h : Utf8.width cs ≤ maxObjectSize then some ⟨cs, h⟩ else none

def ofString? (s : String) : Option Text :=
  ofChars? s.toList

/-- The text that the bytes encode, or the first fault in them. -/
def ofBytes (bytes : Bytes) : Except Utf8.DecodeError Text :=
  match h : Utf8.decode bytes.toList with
  | .ok cs =>
    .ok ⟨cs, by
      rw [← Utf8.length_encode, Utf8.encode_eq_of_decode h]
      exact bytes.length_le⟩
  | .error e => .error e

def length (t : Text) : Nat :=
  Utf8.width t.chars

def content (t : Text) : String :=
  String.ofList t.chars

/-- The bytes from an offset to the end. Any offset within the text will do, also one inside a character. -/
def bytesFrom (t : Text) (first : Nat) : Except Breach (List UInt8) :=
  if first ≤ t.length then .ok ((Utf8.encode t.chars).drop first) else .error (.slice first t.length)

theorem length_lt_wordCount (t : Text) : t.length < Offset.wordCount := by
  have := t.width_le
  simp only [length, maxObjectSize, Offset.wordCount] at *
  omega

end Text

end TextCursor
