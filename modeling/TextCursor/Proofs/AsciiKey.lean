import TextCursor.CharClass
import TextCursor.CharSet
import TextCursor.Numeral.Hexadecimal

/-!
# Tables and words keyed by a character

A character may be the key of a table with one entry for every ASCII code, and it may be the distance of a shift in a
word with one bit for every ASCII code. A key beyond the last entry, or a shift by the whole width, has no outcome.

The definitions with a question mark look up and shift in that way: their answer is `none` where a key does not fit.
`AsciiKeysFit` says of a character that none of them ever has this answer, and that what they answer is what the
definitions in use compute. It holds of every character (`asciiKeysFit`), because each of them asks first whether the
character is ASCII.
-/

set_option autoImplicit false

namespace TextCursor

/-- The word with one bit set, unless the bit would lie outside. -/
def shiftOne? (w distance : Nat) : Option (BitVec w) :=
  if distance < w then some (1#w <<< distance) else none

theorem shiftOne?_of_lt {w distance : Nat} (h : distance < w) :
    shiftOne? w distance = some (BitVec.twoPow w distance) := by
  rw [shiftOne?, if_pos h, BitVec.twoPow_eq]

def CharClass.of? (ch : Char) : Option CharClass :=
  if ch.toNat < 128 then asciiTable[ch.toNat]?.map mk else some empty

def Numeral.Hexadecimal.digitValue? (ch : Char) : Option (Except Error Nat) :=
  if ch.toNat < 128 then
    valueTable[ch.toNat]?.map fun value => if 0 ≤ value then .ok value.toNat else .error (.invalidDigit ch)
  else some (.error (.invalidDigit ch))

def CharSet.insert? (s : CharSet) (ch : Char) : Option CharSet :=
  if ch.toNat < 128 then (shiftOne? 128 ch.toNat).map fun bit => { s with ascii := s.ascii ||| bit }
  else some (if s.other.contains ch then s else { s with other := s.other ++ [ch] })

def CharSet.contains? (s : CharSet) (ch : Char) : Option Bool :=
  if ch.toNat < 128 then (shiftOne? 128 ch.toNat).map fun bit => s.ascii &&& bit != 0#128
  else some (s.other.contains ch)

/-- No lookup and no shift is out of range for the character. -/
structure AsciiKeysFit (ch : Char) : Prop where
  classes : CharClass.of? ch = some (CharClass.of ch)
  digit : Numeral.Hexadecimal.digitValue? ch = some (Numeral.Hexadecimal.digitValue ch)
  insert : ∀ s : CharSet, s.insert? ch = some (s.insert ch)
  contains : ∀ s : CharSet, s.contains? ch = some (s.contains ch)

theorem CharClass.of?_eq (ch : Char) : of? ch = some (of ch) := by
  unfold of? of
  by_cases h : ch.toNat < 128
  · have hentry : asciiTable[ch.toNat]? = some asciiTable[ch.toNat] := Vector.getElem?_eq_getElem h
    rw [if_pos h, dif_pos h, hentry]
    rfl
  · rw [if_neg h, dif_neg h]

theorem Numeral.Hexadecimal.digitValue?_eq (ch : Char) : digitValue? ch = some (digitValue ch) := by
  unfold digitValue? digitValue
  by_cases h : ch.toNat < 128
  · have hentry : valueTable[ch.toNat]? = some valueTable[ch.toNat] := Vector.getElem?_eq_getElem h
    rw [if_pos h, dif_pos h, hentry]
    rfl
  · rw [if_neg h, dif_neg h]

theorem CharSet.insert?_eq (s : CharSet) (ch : Char) : s.insert? ch = some (s.insert ch) := by
  unfold insert? insert
  by_cases h : ch.toNat < 128
  · rw [if_pos h, slot?_eq_some h, shiftOne?_of_lt h]
    rfl
  · rw [if_neg h, slot?_eq_none (Nat.not_lt.1 h)]

/-- Masking the word with one bit leaves something exactly if the bit is set. -/
theorem and_twoPow_bne_zero {w place : Nat} (word : BitVec w) (h : place < w) :
    (word &&& BitVec.twoPow w place != 0#w) = word.getLsbD place := by
  rw [BitVec.and_twoPow]
  cases word.getLsbD place with
  | false => simp
  | true =>
    have hbit : (BitVec.twoPow w place).getLsbD place ≠ (0#w).getLsbD place := by simp [h]
    have hne : BitVec.twoPow w place ≠ 0#w := fun heq => hbit (by rw [heq])
    rw [if_pos rfl]
    exact bne_iff_ne.2 hne

theorem CharSet.contains?_eq (s : CharSet) (ch : Char) : s.contains? ch = some (s.contains ch) := by
  unfold contains? contains
  by_cases h : ch.toNat < 128
  · rw [if_pos h, slot?_eq_some h, shiftOne?_of_lt h, Option.map_some, and_twoPow_bne_zero s.ascii h]
  · rw [if_neg h, slot?_eq_none (Nat.not_lt.1 h)]

theorem asciiKeysFit (ch : Char) : AsciiKeysFit ch where
  classes := CharClass.of?_eq ch
  digit := Numeral.Hexadecimal.digitValue?_eq ch
  insert s := s.insert?_eq ch
  contains s := s.contains?_eq ch

end TextCursor
