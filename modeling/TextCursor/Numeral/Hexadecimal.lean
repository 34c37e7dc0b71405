import TextCursor.Numeral.Basic

/-!
# Hexadecimal numerals

`parse` reads digits of either case into an unsigned word. Each digit shifts the word by four bits, and a digit that
would push a set bit out of the top four is refused.
-/

set_option autoImplicit false

namespace TextCursor.Numeral.Hexadecimal

/-- The value of every ASCII code as a digit, -1 if it is none. -/
def valueTable : Vector Int 128 := #v[
  -1, -1, -1, -1, -1, -1, -1, -1, -1, -1, -1, -1, -1, -1, -1, -1,
  -1, -1, -1, -1, -1, -1, -1, -1, -1, -1, -1, -1, -1, -1, -1, -1,
  -1, -1, -1, -1, -1, -1, -1, -1, -1, -1, -1, -1, -1, -1, -1, -1,
   0,  1,  2,  3,  4,  5,  6,  7,  8,  9, -1, -1, -1, -1, -1, -1,
  -1, 10, 11, 12, 13, 14, 15, -1, -1, -1, -1, -1, -1, -1, -1, -1,
  -1, -1, -1, -1, -1, -1, -1, -1, -1, -1, -1, -1, -1, -1, -1, -1,
  -1, 10, 11, 12, 13, 14, 15, -1, -1, -1, -1, -1, -1, -1, -1, -1,
  -1, -1, -1, -1, -1, -1, -1, -1, -1, -1, -1, -1, -1, -1, -1, -1]

def digitValue (ch : Char) : Except Error Nat :=
  if h : ch.toNat < 128 then
    let value := valueTable[ch.toNat]
    if 0 ≤ value then .ok value.toNat else .error (.invalidDigit ch)
  else .error (.invalidDigit ch)

/-- The word with one more digit behind it, unless its top four bits are in use. -/
def push? {w : Nat} (value : BitVec w) (digit : Nat) : Option (BitVec w) :=
  if value >>> (w - 4) = 0 then some (value <<< 4 ||| BitVec.ofNat w digit) else none

def pushAll {w : Nat} (value : BitVec w) : List Char → Except Error (BitVec w)
  | [] => .ok value
  | ch :: cs =>
    match digitValue ch with
    | .error e => .error e
    | .ok digit =>
      match push? value digit with
      | none => .error .overflow
      | some value => pushAll value cs

def parse (size : Size) (digits : String) : Except Error (BitVec size.bits) :=
  if digits.toList.isEmpty then .error .empty
  else pushAll (0 : BitVec size.bits) digits.toList

end TextCursor.Numeral.Hexadecimal
