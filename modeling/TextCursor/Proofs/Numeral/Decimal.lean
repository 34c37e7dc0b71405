import TextCursor.Numeral.Decimal
import TextCursor.Proofs.CharClass
import TextCursor.Proofs.Numeral.Digitwise

/-!
# The value of decimal digits

`Nat.ofDigitChars 10` is the number that decimal digits denote. A signed word takes one more digit exactly if the number
with it fits (`push?_signed`): the check of the product refuses nothing that the check of the sum would let pass. So
reading goes digit by digit, and what a numeral is read as is a matter of the number that its leading digits denote, held
against the greatest absolute value of the word with that sign (`parse_by_bound`). `parse_eq` is the case in which there
are only digits.
-/

set_option autoImplicit false

namespace TextCursor.Numeral.Decimal

/-- The number with the given absolute value, below zero if asked for. -/
def signed (negative : Bool) (n : Nat) : Int :=
  if negative then -(n : Int) else n

def Fits (size : Size) (n : Int) : Prop :=
  least size ≤ n ∧ n ≤ greatest size

instance (size : Size) (n : Int) : Decidable (Fits size n) :=
  inferInstanceAs (Decidable (_ ∧ _))

/-- The greatest absolute value of a number of the word with the given sign. -/
def bound (size : Size) (negative : Bool) : Nat :=
  if negative then (least size).natAbs else (greatest size).natAbs

/-- How many decimal digits fit a signed word whatever they are. -/
def safeLength : Size → Nat
  | .word32 => 9
  | .word64 => 18

variable {size : Size} {negative : Bool} {n m : Nat} {ch : Char} {cs : List Char}

theorem fit?_of_fits {n : Int} (h : Fits size n) : fit? size n = some n :=
  if_pos h

theorem fit?_of_not_fits {n : Int} (h : ¬ Fits size n) : fit? size n = none :=
  if_neg h

theorem fits_signed_iff : Fits size (signed negative n) ↔ n ≤ bound size negative := by
  cases size <;> cases negative <;>
    simp only [Fits, signed, bound, least, greatest, if_true, if_false, Bool.false_eq_true] <;> omega

theorem fits_signed_zero (size : Size) (negative : Bool) : Fits size (signed negative 0) :=
  fits_signed_iff.2 (Nat.zero_le _)

/-- On the way from zero to a number that fits there are only numbers that fit. -/
theorem Fits.of_le (h : Fits size (signed negative m)) (hle : n ≤ m) : Fits size (signed negative n) :=
  fits_signed_iff.2 (Nat.le_trans hle (fits_signed_iff.1 h))

theorem digitValue_eq (ch : Char) :
    digitValue ch = if isDigit ch then .ok (ch.toNat - '0'.toNat) else .error (.invalidDigit ch) := by
  simp only [digitValue, isDigit, Bool.and_eq_true, decide_eq_true_eq]

/-- One more digit: the check of the product refuses nothing that the check of the sum would let pass. -/
theorem push?_signed (size : Size) (negative : Bool) (n digit : Nat) :
    push? size negative (signed negative n) digit = fit? size (signed negative (10 * n + digit)) := by
  have hscaled : signed negative n * 10 = signed negative (10 * n) := by
    cases negative <;> simp only [signed, if_true, if_false, Bool.false_eq_true] <;> omega
  have hsum : (if negative then signed negative (10 * n) - (digit : Int) else signed negative (10 * n) + digit) =
      signed negative (10 * n + digit) := by
    cases negative <;> simp only [signed, if_true, if_false, Bool.false_eq_true] <;> omega
  rw [push?, hscaled]
  by_cases hfits : Fits size (signed negative (10 * n))
  · rw [fit?_of_fits hfits, Option.bind_eq_bind, Option.bind_some, hsum]
  · have hnot : ¬ Fits size (signed negative (10 * n + digit)) := fun h => hfits (h.of_le (Nat.le_add_right _ _))
    rw [fit?_of_not_fits hfits, fit?_of_not_fits hnot]
    rfl

/-- Digits denote a number with no more digits than they are. -/
theorem ofDigitChars_lt (h : ∀ ch ∈ cs, isDigit ch = true) (n : Nat) :
    Nat.ofDigitChars 10 cs n < 10 ^ cs.length * (n + 1) := by
  refine foldl_lt ?_ n
  intro ch hmem n
  obtain ⟨hlow, hhigh⟩ := isDigit_iff_toNat.1 (h ch hmem)
  have hzero : '0'.toNat = 48 := rfl
  omega

/-- A signed word holds the number of the digits read so far, with the sign. -/
theorem readsDigitwise (size : Size) (negative : Bool) :
    ReadsDigitwise (pushAll size negative) isDigit (fun n ch => 10 * n + (ch.toNat - '0'.toNat)) (signed negative)
      (fun n => Fits size (signed negative n)) where
  nil _ := rfl
  other n ch cs hother := by
    have hnone : ¬ isDigit ch = true := by simp [hother]
    rw [pushAll, digitValue_eq, if_neg hnone]
  digit n ch cs _ hdigit := by
    rw [pushAll, digitValue_eq, if_pos hdigit]
    simp only [push?_signed]
    by_cases hnext : Fits size (signed negative (10 * n + (ch.toNat - '0'.toNat)))
    · rw [fit?_of_fits hnext, if_pos hnext]
    · rw [fit?_of_not_fits hnext, if_neg hnext]
  le_next n ch := by omega
  fits_of_le m n hle hfits := hfits.of_le hle
  fits_zero := fits_signed_zero size negative
  isDigit_zero := rfl
  next_zero := rfl

/-- Where there is anything to read, its leading digits decide. -/
theorem parse_of_ne_nil (size : Size) (negative : Bool) (hne : cs ≠ []) :
    parse size negative (String.ofList cs) =
      if Fits size (signed negative (Nat.ofDigitChars 10 (cs.takeWhile isDigit) 0)) then
        ifWhole (signed negative (Nat.ofDigitChars 10 (cs.takeWhile isDigit) 0)) (cs.dropWhile isDigit)
      else .error .overflow := by
  have hzero : (0 : Int) = signed negative 0 := by cases negative <;> rfl
  have hreads := readsDigitwise size negative
  rw [parse, String.toList_ofList, if_neg (by simpa using hne), hzero, hreads.readAll_dropWhile_zero,
    hreads.readAll_eq hreads.fits_zero]
  rfl

/-- Only nothing is read as empty. -/
theorem parse_ne_empty (size : Size) (negative : Bool) (hne : cs ≠ []) :
    parse size negative (String.ofList cs) ≠ .error .empty := by
  rw [parse_of_ne_nil size negative hne]
  split
  · exact ifWhole_ne_empty _ _
  · nofun

/-- Digits are read as the number that they denote, as far as it fits the word. -/
theorem parse_eq (size : Size) (negative : Bool) (hne : cs ≠ []) (h : ∀ ch ∈ cs, isDigit ch = true) :
    parse size negative (String.ofList cs) =
      if Fits size (signed negative (Nat.ofDigitChars 10 cs 0)) then .ok (signed negative (Nat.ofDigitChars 10 cs 0))
      else .error .overflow := by
  rw [parse_of_ne_nil size negative hne, List.takeWhile_eq_self_iff.2 h, List.dropWhile_eq_nil_iff.2 h, ifWhole]

/-- A few digits always fit. -/
theorem fits_of_length_le (negative : Bool) (h : ∀ ch ∈ cs, isDigit ch = true) (hlength : cs.length ≤ safeLength size) :
    Fits size (signed negative (Nat.ofDigitChars 10 cs 0)) := by
  have hlt := ofDigitChars_lt h 0
  have hpow : 10 ^ cs.length ≤ 10 ^ safeLength size := Nat.pow_le_pow_right (by decide) hlength
  have hlargest : Fits size (signed negative (10 ^ safeLength size)) := by
    cases size <;> cases negative <;> decide
  exact hlargest.of_le (by omega)

/-- Reading a numeral is a matter of exact arithmetic, on the number that its leading digits denote. If that number is
greater than any of the word with the sign asked for, it is an overflow, whatever stands behind the digits; if it is not,
a character behind the digits is at fault; if there is none, it is the number with its sign. Zeros in front do not count,
and the least number of the word is among those that are read. -/
theorem parse_by_bound (size : Size) (negative : Bool) :
    (∀ digits : String, parse size negative digits =
      if digits = "" then .error .empty
      else if bound size negative < Nat.ofDigitChars 10 (digits.toList.takeWhile isDigit) 0 then .error .overflow
      else ifWhole (signed negative (Nat.ofDigitChars 10 (digits.toList.takeWhile isDigit) 0))
        (digits.toList.dropWhile isDigit)) ∧
    (∀ zeros ch cs, parse size negative (String.ofList (List.replicate zeros '0' ++ ch :: cs)) =
      parse size negative (String.ofList (ch :: cs))) ∧
    ∃ digits, parse size true digits = .ok (least size) := by
  refine ⟨?_, ?_, ?_⟩
  · intro digits
    by_cases hempty : digits = ""
    · rw [if_pos hempty, hempty]
      rfl
    · have hne : digits.toList ≠ [] := mt String.toList_eq_nil_iff.1 hempty
      have hparse := parse_of_ne_nil size negative hne
      rw [String.ofList_toList] at hparse
      rw [hparse, if_neg hempty]
      by_cases hover : bound size negative < Nat.ofDigitChars 10 (digits.toList.takeWhile isDigit) 0
      · rw [if_pos hover, if_neg (mt fits_signed_iff.1 (Nat.not_le.2 hover))]
      · rw [if_neg hover, if_pos (fits_signed_iff.2 (Nat.not_lt.1 hover))]
  · intro zeros ch cs
    have hzeros : ∀ zero ∈ List.replicate zeros '0', (zero == '0') = true := by simp
    simp only [parse, String.toList_ofList, List.dropWhile_append_of_pos hzeros]
    simp
  · cases size with
    | word32 => exact ⟨"2147483648", rfl⟩
    | word64 => exact ⟨"9223372036854775808", rfl⟩

end TextCursor.Numeral.Decimal
