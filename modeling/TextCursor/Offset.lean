/-!
# Offsets in a machine word

A position in a text is a byte offset, and offsets are held in words of 64 bits. This module is the arithmetic on
them. `Offset.add` and `Offset.sub` answer with a `Breach` where the exact result does not fit the word;
`Offset.addSaturating` stays at the largest word instead and is meant for reports, not for positions.

Nothing is claimed here about characters: which offsets lie between two characters of a text is the business of
`TextCursor.Utf8.Slice`.
-/

set_option autoImplicit false

namespace TextCursor

/-- Why a step cannot be carried out at all. No operation on a well-formed cursor ends in a breach; the operations
keep the case because nothing in the type of a cursor rules it out. -/
inductive Breach where
  /-- A part of a text was asked for whose ends are out of order, beyond the end, or inside a character. -/
  | slice (first last : Nat)
  /-- The sum of two offsets does not fit a word. -/
  | sum (a b : Nat)
  /-- The first offset is smaller than the one taken from it. -/
  | difference (a b : Nat)
  /-- A span was made with its ends out of order or beyond the end of its text. -/
  | span (first last length : Nat)
deriving DecidableEq, Repr

namespace Offset

def wordCount : Nat := 0x1_0000_0000_0000_0000

/-- The exact sum, if it fits a word. -/
def add (a b : Nat) : Except Breach Nat :=
  if a + b < wordCount then .ok (a + b) else .error (.sum a b)

/-- The exact difference, if it is not negative. -/
def sub (a b : Nat) : Except Breach Nat :=
  if b ≤ a then .ok (a - b) else .error (.difference a b)

/-- The sum, or the largest word if the sum does not fit. -/
def addSaturating (a b : Nat) : Nat :=
  min (a + b) (wordCount - 1)

theorem add_eq_ok {a b : Nat} (h : a + b < wordCount) : add a b = .ok (a + b) :=
  if_pos h

theorem add_eq_ok_iff {a b n : Nat} : add a b = .ok n ↔ a + b < wordCount ∧ n = a + b := by
  by_cases h : a + b < wordCount <;> simp [add, h, eq_comm]

theorem sub_eq_ok {a b : Nat} (h : b ≤ a) : sub a b = .ok (a - b) :=
  if_pos h

end Offset

end TextCursor
