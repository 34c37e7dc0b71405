/-!
# Numerals

What reading a numeral can end in besides a number, and the word sizes a number can be read into. A numeral is read
digit by digit, so the fault that is reported is the first one met from the left: a value that has grown out of its
word is an overflow even if a character further on is no digit.
-/

set_option autoImplicit false

namespace TextCursor.Numeral

/-- Why a run of characters is not a number of the size asked for. -/
inductive Error where
  | empty
  /-- The character is no digit of the base. -/
  | invalidDigit (ch : Char)
  | overflow
deriving DecidableEq, Repr

inductive Size where
  | word32 | word64
deriving DecidableEq, Repr

def Size.bits : Size → Nat
  | .word32 => 32
  | .word64 => 64

end TextCursor.Numeral
