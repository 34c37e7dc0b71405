import Mathlib.Algebra.Group.Nat.Defs
import Mathlib.Data.List.TakeWhile
import TextCursor.Numeral.Basic

/-!
# Reading digit by digit

Numerals of different bases are read into words of different kinds, the one by multiplying and adding, the other by
shifting, but all in the same way: a word holds the number of the digits read so far, a character that is no digit puts
an end to the reading, and so does a digit with which the number would leave the word. `ReadsDigitwise` says that a
function reads in this way.

What it comes to is a matter of the number that the leading digits denote (`ReadsDigitwise.readAll_eq`). The word is
checked after each digit, but this asks no more than the whole: digits behind a number never make it smaller, so a
number that fits has grown through numbers that fit. For the same reason an overflow is found before any character
behind the digits is looked at.
-/

set_option autoImplicit false

namespace TextCursor.Numeral

/-- The value of the digits in front, if no character stands behind them. -/
def ifWhole {α : Type} (value : α) : List Char → Except Error α
  | [] => .ok value
  | ch :: _ => .error (.invalidDigit ch)

theorem map_ifWhole {α β : Type} (f : α → β) (value : α) (rest : List Char) :
    (ifWhole value rest).map f = ifWhole (f value) rest := by
  cases rest <;> rfl

theorem ifWhole_ne_empty {α : Type} (value : α) (rest : List Char) : ifWhole value rest ≠ .error .empty := by
  cases rest <;> nofun

/-- A function that reads digits one after the other. `next n ch` is the number with one more digit behind it, `word n`
the word that holds a number, and `fits` says which numbers a word holds. -/
structure ReadsDigitwise {α : Type} (readAll : α → List Char → Except Error α) (isDigit : Char → Bool)
    (next : Nat → Char → Nat) (word : Nat → α) (fits : Nat → Prop) [DecidablePred fits] : Prop where
  nil : ∀ n, readAll (word n) [] = .ok (word n)
  other : ∀ n ch cs, isDigit ch = false → readAll (word n) (ch :: cs) = .error (.invalidDigit ch)
  digit : ∀ n ch cs, fits n → isDigit ch = true →
    readAll (word n) (ch :: cs) = if fits (next n ch) then readAll (word (next n ch)) cs else .error .overflow
  le_next : ∀ n ch, n ≤ next n ch
  fits_of_le : ∀ m n, m ≤ n → fits n → fits m
  fits_zero : fits 0
  isDigit_zero : isDigit '0' = true
  next_zero : next 0 '0' = 0

/-- Digits behind a number never make it smaller. -/
theorem le_foldl {next : Nat → Char → Nat} (hnext : ∀ n ch, n ≤ next n ch) (n : Nat) (cs : List Char) :
    n ≤ cs.foldl next n := by
  induction cs generalizing n with
  | nil => exact Nat.le_refl n
  | cons ch cs ih => exact Nat.le_trans (hnext n ch) (ih (next n ch))

/-- Digits denote a number with no more digits than they are. -/
theorem foldl_lt {base : Nat} {next : Nat → Char → Nat} {cs : List Char}
    (hnext : ∀ ch ∈ cs, ∀ n, next n ch < base * (n + 1)) (n : Nat) :
    cs.foldl next n < base ^ cs.length * (n + 1) := by
  induction cs generalizing n with
  | nil => simp
  | cons ch cs ih =>
    have htail := ih (fun other hmem => hnext other (List.mem_cons_of_mem ch hmem)) (next n ch)
    have hhead := hnext ch List.mem_cons_self n
    calc (ch :: cs).foldl next n = cs.foldl next (next n ch) := rfl
      _ < base ^ cs.length * (next n ch + 1) := htail
      _ ≤ base ^ cs.length * (base * (n + 1)) := Nat.mul_le_mul_left _ hhead
      _ = base ^ (cs.length + 1) * (n + 1) := by rw [Nat.pow_succ, Nat.mul_assoc]

namespace ReadsDigitwise

variable {α : Type} {readAll : α → List Char → Except Error α} {isDigit : Char → Bool} {next : Nat → Char → Nat}
  {word : Nat → α} {fits : Nat → Prop} [DecidablePred fits]

/-- From a number that fits, reading comes to the number that the digits in front lead to, or to an overflow if that no
longer fits. -/
theorem readAll_eq (h : ReadsDigitwise readAll isDigit next word fits) {n : Nat} (hfits : fits n) (cs : List Char) :
    readAll (word n) cs =
      if fits ((cs.takeWhile isDigit).foldl next n) then
        ifWhole (word ((cs.takeWhile isDigit).foldl next n)) (cs.dropWhile isDigit)
      else .error .overflow := by
  induction cs generalizing n with
  | nil => rw [h.nil, List.takeWhile_nil, List.foldl_nil, if_pos hfits, List.dropWhile_nil, ifWhole]
  | cons ch cs ih =>
    cases hdigit : isDigit ch with
    | false =>
      have hnone : ¬ isDigit ch = true := by simp [hdigit]
      rw [h.other n ch cs hdigit, List.takeWhile_cons_of_neg hnone, List.dropWhile_cons_of_neg hnone, List.foldl_nil,
        if_pos hfits, ifWhole]
    | true =>
      rw [h.digit n ch cs hfits hdigit, List.takeWhile_cons_of_pos hdigit, List.dropWhile_cons_of_pos hdigit,
        List.foldl_cons]
      by_cases hnext : fits (next n ch)
      · rw [if_pos hnext]
        exact ih hnext
      · -- what is too large now stays too large whatever follows
        have hnot : ¬ fits ((cs.takeWhile isDigit).foldl next (next n ch)) :=
          mt (h.fits_of_le _ _ (le_foldl h.le_next _ _)) hnext
        rw [if_neg hnext, if_neg hnot]

/-- Zeros in front change nothing, whether they are passed over or read. -/
theorem readAll_dropWhile_zero (h : ReadsDigitwise readAll isDigit next word fits) (cs : List Char) :
    readAll (word 0) (cs.dropWhile (· == '0')) = readAll (word 0) cs := by
  induction cs with
  | nil => rfl
  | cons ch cs ih =>
    by_cases hzero : ch = '0'
    · subst hzero
      have hread := h.digit 0 '0' cs h.fits_zero h.isDigit_zero
      rw [h.next_zero, if_pos h.fits_zero] at hread
      rw [List.dropWhile_cons_of_pos (by simp), ih, hread]
    · rw [List.dropWhile_cons_of_neg (by simpa using hzero)]

theorem readAll_replicate_zero (h : ReadsDigitwise readAll isDigit next word fits) (zeros : Nat) (cs : List Char) :
    readAll (word 0) (List.replicate zeros '0' ++ cs) = readAll (word 0) cs := by
  have hzeros : ∀ zero ∈ List.replicate zeros '0', (zero == '0') = true := by simp
  rw [← h.readAll_dropWhile_zero, List.dropWhile_append_of_pos hzeros, h.readAll_dropWhile_zero]

end ReadsDigitwise

end TextCursor.Numeral
