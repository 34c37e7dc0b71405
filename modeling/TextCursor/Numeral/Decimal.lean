import TextCursor.Numeral.Basic

/-!
# Decimal numerals

`parse` reads ASCII digits into a signed word in two's complement. The value is built up towards the sign of the
result, by additions or by subtractions, and is checked after each multiplication and each addition; so the least
number of the word can be read although its absolute value does not fit. Zeros in front are passed over first.
-/

set_option autoImplicit false

namespace TextCursor.Numeral.Decimal

def digitValue (ch : Char) : Except Error Nat :=
  if '0' ≤ ch ∧ ch ≤ '9' then .ok (ch.toNat - '0'.toNat) else .error (.invalidDigit ch)

def least : Size → Int
  | .word32 => -0x8000_0000
  | .word64 => -0x8000_0000_0000_0000

def greatest : Size → Int
  | .word32 => 0x7FFF_FFFF
  | .word64 => 0x7FFF_FFFF_FFFF_FFFF

def fit? (size : Size) (n : Int) : Option Int :=
  if least size ≤ n ∧ n ≤ greatest size then some n else none

/-- The value with one more digit behind it, counted away from zero in the direction of the sign. -/
def push? (size : Size) (negative : Bool) (value : Int) (digit : Nat) : Option Int := do
  let scaled ← fit? size (value * 10)
  fit? size (if negative then scaled - digit else scaled + digit)

def pushAll (size : Size) (negative : Bool) (value : Int) : List Char → Except Error Int
  | [] => .ok value
  | ch :: cs =>
    match digitValue ch with
    | .error e => .error e
    | .ok digit =>
      match push? size negative value digit with
      | none => .error .overflow
      | some value => pushAll size negative value cs

def parse (size : Size) (negative : Bool) (digits : String) : Except Error Int :=
  if digits.toList.isEmpty then .error .empty
  else pushAll size negative 0 (digits.toList.dropWhile (· == '0'))

end TextCursor.Numeral.Decimal
