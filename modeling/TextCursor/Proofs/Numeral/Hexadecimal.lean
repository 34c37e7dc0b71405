import TextCursor.Numeral.Hexadecimal
import TextCursor.Proofs.CharClass
import TextCursor.Proofs.Numeral.Digitwise

/-!
# The value of hexadecimal digits

`number` is what hexadecimal digits denote, by the place of each digit in its alphabet. The characters that a match
takes for hexadecimal digits are those of the alphabets (`isHexDigit_eq_isInAlphabet`), and so are those that have a
value as digits (`digitValue_eq`), though the one looks into the table of classes and the other into the table of values.

Reading shifts the word by four bits for each digit and puts the digit into the bits that become free. This is exact:
the word holds the number of the digits read so far, and the check of its top four bits refuses a digit exactly if the
number would leave the word (`push?_eq`). So what a numeral is read as is a matter of the number that its leading digits
denote (`toNat_parse_by_range`). `parse_eq` is the case in which there are only digits.
-/

set_option autoImplicit false

namespace TextCursor.Numeral.Hexadecimal

/-- Whether the character stands in one of the alphabets of digits. -/
def isInAlphabet (ch : Char) : Bool :=
  ('0' ≤ ch && ch ≤ '9') || ('A' ≤ ch && ch ≤ 'F') || ('a' ≤ ch && ch ≤ 'f')

/-- The value of a hexadecimal digit of either case. Other characters count for nothing. -/
def nibble (ch : Char) : Nat :=
  if '0' ≤ ch ∧ ch ≤ '9' then ch.toNat - '0'.toNat
  else if 'A' ≤ ch ∧ ch ≤ 'F' then 10 + (ch.toNat - 'A'.toNat)
  else if 'a' ≤ ch ∧ ch ≤ 'f' then 10 + (ch.toNat - 'a'.toNat)
  else 0

/-- The number that hexadecimal digits denote, behind a number already read. -/
def number (n : Nat) (cs : List Char) : Nat :=
  cs.foldl (fun n ch => 16 * n + nibble ch) n

/-- How many hexadecimal digits fit a word whatever they are. -/
def safeLength (size : Size) : Nat :=
  size.bits / 4

variable {ch : Char} {cs : List Char} {w : Nat}

theorem nibble_eq (ch : Char) :
    nibble ch = if 48 ≤ ch.toNat ∧ ch.toNat ≤ 57 then ch.toNat - 48
      else if 65 ≤ ch.toNat ∧ ch.toNat ≤ 70 then 10 + (ch.toNat - 65)
      else if 97 ≤ ch.toNat ∧ ch.toNat ≤ 102 then 10 + (ch.toNat - 97)
      else 0 := by
  simp only [nibble, Char.le_def, UInt32.le_iff_toNat_le]
  rfl

theorem nibble_lt (ch : Char) : nibble ch < 16 := by
  rw [nibble_eq]
  split
  · omega
  · split
    · omega
    · split <;> omega

theorem isInAlphabet_iff_toNat :
    isInAlphabet ch = true ↔ (48 ≤ ch.toNat ∧ ch.toNat ≤ 57) ∨ (65 ≤ ch.toNat ∧ ch.toNat ≤ 70) ∨
      (97 ≤ ch.toNat ∧ ch.toNat ≤ 102) := by
  simp only [isInAlphabet, Bool.or_eq_true, Bool.and_eq_true, decide_eq_true_eq, Char.le_def, UInt32.le_iff_toNat_le,
    or_assoc]
  exact Iff.rfl

theorem isHexDigit_eq_isInAlphabet : isHexDigit = isInAlphabet := by
  funext ch
  rw [Bool.eq_iff_iff, isHexDigit_iff_toNat, isInAlphabet_iff_toNat]

/-- The table of values has the digits of the alphabets, each with its value. -/
theorem digitValue_ofNat : ∀ code : Fin 128,
    digitValue (Char.ofNat code) = if isInAlphabet (Char.ofNat code) then .ok (nibble (Char.ofNat code))
      else .error (.invalidDigit (Char.ofNat code)) := by
  decide +kernel

theorem digitValue_eq (ch : Char) :
    digitValue ch = if isInAlphabet ch then .ok (nibble ch) else .error (.invalidDigit ch) := by
  by_cases hascii : ch.toNat < 128
  · have hentry := digitValue_ofNat ⟨ch.toNat, hascii⟩
    rwa [Char.ofNat_toNat] at hentry
  · have hnot : ¬ isInAlphabet ch = true := by
      rw [isInAlphabet_iff_toNat]
      omega
    rw [digitValue, dif_neg hascii, if_neg hnot]

theorem digitValue_lt {digit : Nat} (h : digitValue ch = .ok digit) : digit < 16 := by
  rw [digitValue_eq] at h
  split at h
  next =>
    cases h
    exact nibble_lt ch
  next => cases h

/-- The top four bits of a word are free if the number in it is below a sixteenth of the range. -/
theorem shiftRight_eq_zero_iff (hw : 4 ≤ w) (value : BitVec w) : value >>> (w - 4) = 0 ↔ 16 * value.toNat < 2 ^ w := by
  have hpow : 2 ^ w = 16 * 2 ^ (w - 4) := by
    rw [show (16 : Nat) = 2 ^ 4 from rfl, ← Nat.pow_add, Nat.add_sub_cancel' hw]
  have hpos : 0 < 2 ^ (w - 4) := Nat.two_pow_pos _
  have hzero : (0 : BitVec w).toNat = 0 := BitVec.toNat_zero
  rw [← BitVec.toNat_inj, BitVec.toNat_ushiftRight, Nat.shiftRight_eq_div_pow, hzero, hpow,
    Nat.mul_lt_mul_left (by decide), Nat.div_eq_zero_iff]
  omega

/-- One more digit: a word takes it exactly if the number still fits. -/
theorem push?_eq (hw : 4 ≤ w) (value : BitVec w) {digit : Nat} (hdigit : digit < 16) :
    push? value digit =
      if 16 * value.toNat + digit < 2 ^ w then some (BitVec.ofNat w (16 * value.toNat + digit)) else none := by
  have hsixteen : 2 ^ w % 16 = 0 := by
    rw [show (16 : Nat) = 2 ^ 4 from rfl]
    exact Nat.mod_eq_zero_of_dvd (Nat.pow_dvd_pow 2 hw)
  by_cases hfree : 16 * value.toNat < 2 ^ w
  · -- the range is a multiple of sixteen, so the four bits that become free hold any digit
    have hfits : 16 * value.toNat + digit < 2 ^ w := by omega
    have hor : 16 * value.toNat + digit = value.toNat <<< 4 ||| digit := by
      rw [← Nat.shiftLeft_add_eq_or_of_lt (by simpa using hdigit), Nat.shiftLeft_eq]
      omega
    rw [push?, if_pos ((shiftRight_eq_zero_iff hw value).2 hfree), if_pos hfits, hor]
    congr 1
    apply BitVec.eq_of_toNat_eq
    simp
  · rw [push?, if_neg (mt (shiftRight_eq_zero_iff hw value).1 hfree), if_neg (by omega)]

/-- Digits denote a number with no more digits than they are. -/
theorem number_lt (n : Nat) (cs : List Char) : number n cs < 16 ^ cs.length * (n + 1) := by
  refine foldl_lt ?_ n
  intro ch _ n
  have hnibble := nibble_lt ch
  omega

/-- No bit is lost: when a digit has been taken, what the word was before can be had back from it. -/
theorem push?_ushiftRight (hw : 4 ≤ w) {value next : BitVec w} {digit : Nat} (hdigit : digit < 16)
    (h : push? value digit = some next) : next >>> 4 = value := by
  rw [push?_eq hw value hdigit] at h
  split at h
  next hfits =>
    cases h
    apply BitVec.eq_of_toNat_eq
    rw [BitVec.toNat_ushiftRight, BitVec.toNat_ofNat, Nat.mod_eq_of_lt hfits, Nat.shiftRight_eq_div_pow]
    omega
  next => cases h

/-- A word holds the number of the digits read so far. -/
theorem readsDigitwise (hw : 4 ≤ w) :
    ReadsDigitwise (pushAll (w := w)) isInAlphabet (fun n ch => 16 * n + nibble ch) (BitVec.ofNat w)
      (fun n => n < 2 ^ w) where
  nil _ := rfl
  other n ch cs hother := by
    have hnone : ¬ isInAlphabet ch = true := by simp [hother]
    rw [pushAll, digitValue_eq, if_neg hnone]
  digit n ch cs hfits hdigit := by
    rw [pushAll, digitValue_eq, if_pos hdigit]
    simp only [push?_eq hw _ (nibble_lt ch), BitVec.toNat_ofNat, Nat.mod_eq_of_lt hfits]
    by_cases hnext : 16 * n + nibble ch < 2 ^ w
    · rw [if_pos hnext, if_pos hnext]
    · rw [if_neg hnext, if_neg hnext]
  le_next n ch := by omega
  fits_of_le m n hle hfits := Nat.lt_of_le_of_lt hle hfits
  fits_zero := Nat.two_pow_pos w
  isDigit_zero := rfl
  next_zero := rfl

theorem four_le_bits (size : Size) : 4 ≤ size.bits := by
  cases size <;> decide

/-- Where there is anything to read, its leading digits decide. -/
theorem parse_of_ne_nil (size : Size) (hne : cs ≠ []) :
    parse size (String.ofList cs) =
      if number 0 (cs.takeWhile isInAlphabet) < 2 ^ size.bits then
        ifWhole (BitVec.ofNat size.bits (number 0 (cs.takeWhile isInAlphabet))) (cs.dropWhile isInAlphabet)
      else .error .overflow := by
  have hreads := readsDigitwise (four_le_bits size)
  have hread := hreads.readAll_eq hreads.fits_zero cs
  rw [parse, String.toList_ofList, if_neg (by simpa using hne)]
  exact hread

/-- Only nothing is read as empty. -/
theorem parse_ne_empty (size : Size) (hne : cs ≠ []) : parse size (String.ofList cs) ≠ .error .empty := by
  rw [parse_of_ne_nil size hne]
  split
  · exact ifWhole_ne_empty _ _
  · nofun

/-- Digits are read as the number that they denote, as far as it fits the word. -/
theorem parse_eq (size : Size) (hne : cs ≠ []) (h : ∀ ch ∈ cs, isHexDigit ch = true) :
    parse size (String.ofList cs) =
      if number 0 cs < 2 ^ size.bits then .ok (BitVec.ofNat size.bits (number 0 cs)) else .error .overflow := by
  rw [isHexDigit_eq_isInAlphabet] at h
  rw [parse_of_ne_nil size hne, List.takeWhile_eq_self_iff.2 h, List.dropWhile_eq_nil_iff.2 h, ifWhole]

/-- A few digits always fit. -/
theorem number_lt_of_length_le {size : Size} (h : cs.length ≤ safeLength size) : number 0 cs < 2 ^ size.bits := by
  have hlt := number_lt 0 cs
  have hpow : 16 ^ cs.length ≤ 16 ^ safeLength size := Nat.pow_le_pow_right (by decide) h
  have hrange : 16 ^ safeLength size = 2 ^ size.bits := by cases size <;> decide
  omega

/-- Reading a numeral is a matter of exact arithmetic, on the number that its leading digits denote. If that number is
not one of the word, it is an overflow, whatever stands behind the digits; if it is, a character behind the digits is at
fault; if there is none, the word has that number. Zeros in front do not count, and no digit shifts a set bit out. -/
theorem toNat_parse_by_range (size : Size) :
    (∀ digits : String, (parse size digits).map BitVec.toNat =
      if digits = "" then .error .empty
      else if 2 ^ size.bits ≤ number 0 (digits.toList.takeWhile isInAlphabet) then .error .overflow
      else ifWhole (number 0 (digits.toList.takeWhile isInAlphabet)) (digits.toList.dropWhile isInAlphabet)) ∧
    (∀ zeros ch cs, parse size (String.ofList (List.replicate zeros '0' ++ ch :: cs)) =
      parse size (String.ofList (ch :: cs))) ∧
    ∀ (value next : BitVec size.bits) ch digit, digitValue ch = .ok digit → push? value digit = some next →
      next >>> 4 = value := by
  refine ⟨?_, ?_, ?_⟩
  · intro digits
    by_cases hempty : digits = ""
    · rw [if_pos hempty, hempty]
      rfl
    · have hne : digits.toList ≠ [] := mt String.toList_eq_nil_iff.1 hempty
      have hparse := parse_of_ne_nil size hne
      rw [String.ofList_toList] at hparse
      rw [hparse, if_neg hempty]
      by_cases hover : 2 ^ size.bits ≤ number 0 (digits.toList.takeWhile isInAlphabet)
      · rw [if_pos hover, if_neg (Nat.not_lt.2 hover)]
        rfl
      · have hfits := Nat.not_le.1 hover
        rw [if_neg hover, if_pos hfits, map_ifWhole, BitVec.toNat_ofNat, Nat.mod_eq_of_lt hfits]
  · intro zeros ch cs
    have hzeros := (readsDigitwise (four_le_bits size)).readAll_replicate_zero zeros (ch :: cs)
    have hne : ¬ (List.replicate zeros '0' ++ ch :: cs).isEmpty = true := by simp
    rw [parse, parse, String.toList_ofList, String.toList_ofList, if_neg hne, if_neg (by simp)]
    exact hzeros
  · intro value next ch digit hdigit hpush
    exact push?_ushiftRight (four_le_bits size) (digitValue_lt hdigit) hpush

/-- The last digit that a word takes: then its top four bits are in use, and it takes no other. -/
theorem toNat_parse_by_range_full_word :
    digitValue 'f' = .ok 15 ∧ push? 0x0FFF_FFFF#32 15 = some 0xFFFF_FFFF#32 ∧ 0xFFFF_FFFF#32 >>> 4 = 0x0FFF_FFFF#32 ∧
      (parse .word32 "00fFffFFffg").map BitVec.toNat = .error (.invalidDigit 'g') ∧
      (parse .word32 "00fFffFFff0g").map BitVec.toNat = .error .overflow := by
  obtain ⟨hparse, -, hkept⟩ := toNat_parse_by_range .word32
  have hdigit : digitValue 'f' = .ok 15 := rfl
  have hpush : push? 0x0FFF_FFFF#32 15 = some 0xFFFF_FFFF#32 := rfl
  exact ⟨hdigit, hpush, hkept _ _ 'f' 15 hdigit hpush, hparse "00fFffFFffg", hparse "00fFffFFff0g"⟩

end TextCursor.Numeral.Hexadecimal
