import TextCursor.Proofs.Cursor.Reachability
import TextCursor.Proofs.Numeral.Decimal
import TextCursor.Proofs.Numeral.Hexadecimal
import TextCursor.Proofs.Observation

/-!
# Digits that are matched convert

A match of digits and a conversion have each their own notion of a digit: classes and comparisons in the one, values and
a table in the other. They agree. What a match of digits has taken is refused by no conversion for a character in it,
nor for its place in the text: it converts to the number that the digits denote, or is too large for the word, or is
empty where a match of nothing was asked for (`Cursor.matched_digits_convert`).

The result of such a match has as many bytes as characters, because digits of either kind are ASCII.
-/

set_option autoImplicit false

namespace TextCursor

namespace MatchOp

/-- The bounds of a match of decimal digits: how many it takes at most (0 is no bound), and at least. -/
def decimalBounds? : MatchOp → Option (Nat × Nat)
  | decimal => some (0, 1)
  | decimalMax max => some (max, 1)
  | decimalBounded max min => some (max, min)
  | _ => none

def hexBounds? : MatchOp → Option (Nat × Nat)
  | hex => some (0, 1)
  | hexMax max => some (max, 1)
  | hexBounded max min => some (max, min)
  | _ => none

theorem attempt_of_decimalBounds? {op : MatchOp} {max min : Nat} (h : op.decimalBounds? = some (max, min))
    (ahead : List Char) : op.attempt ahead = .bounded max min .digit ahead := by
  cases op <;> cases h <;> rfl

theorem attempt_of_hexBounds? {op : MatchOp} {max min : Nat} (h : op.hexBounds? = some (max, min))
    (ahead : List Char) : op.attempt ahead = .bounded max min .hexDigit ahead := by
  cases op <;> cases h <;> rfl

end MatchOp

/-- What comes of reading `count` digits as a number: nothing is wrong with them but that there may be none, or too
many. -/
structure ReadsDigits {α : Type} (reply : Except ScanError α) (value : α) (count safe : Nat) : Prop where
  empty_iff : reply = .error (.number .empty) ↔ count = 0
  ok_or_overflow : count ≠ 0 → reply = .ok value ∨ reply = .error (.number .overflow)
  ok_of_le_safe : 1 ≤ count → count ≤ safe → reply = .ok value

namespace ReadsDigits

variable {α : Type} {value : α} {count safe : Nat}

theorem of_empty : ReadsDigits (.error (.number .empty)) value 0 safe where
  empty_iff := iff_of_true rfl rfl
  ok_or_overflow hne := absurd rfl hne
  ok_of_le_safe hone := absurd hone (by decide)

theorem of_ok (hcount : count ≠ 0) : ReadsDigits (.ok value) value count safe where
  empty_iff := iff_of_false nofun hcount
  ok_or_overflow _ := .inl rfl
  ok_of_le_safe _ _ := rfl

theorem of_overflow (hcount : count ≠ 0) (hlong : safe < count) :
    ReadsDigits (.error (.number .overflow)) value count safe where
  empty_iff := iff_of_false nofun hcount
  ok_or_overflow _ := .inr rfl
  ok_of_le_safe _ hle := absurd hle (Nat.not_le.2 hlong)

/-- A number that is read if it fits, where few digits always fit. -/
theorem of_fits {fits : Prop} [Decidable fits] (hcount : count ≠ 0) (hsafe : count ≤ safe → fits) :
    ReadsDigits ((if fits then Except.ok value else .error .overflow).mapError .number) value count safe := by
  by_cases hfits : fits
  · rw [if_pos hfits]
    exact .of_ok hcount
  · rw [if_neg hfits]
    exact .of_overflow hcount (Nat.not_le.1 (mt hsafe hfits))

end ReadsDigits

namespace Cursor

/-- The result is `run`, of one byte a character, no fewer than `min` and no more than `max` (0 is no bound). -/
structure HasDigits (c : Cursor) (run : List Char) (max min : Nat) : Prop where
  chars_eq : c.resultChars = .ok run
  length_eq : c.resultLength = .ok run.length
  min_le : min ≤ run.length
  le_max : 0 < max → run.length ≤ max

namespace Parts

variable {c : Cursor} {before run ahead : List Char}

/-- The numeral at the result is its characters, of which there have to be some. -/
theorem numeral_result_eq (h : c.Parts before run ahead) :
    c.numeral c.start c.index =
      .ok (if run = [] then .error (.number .empty) else .ok (String.ofList run)) := by
  have hsubstring := substring_of_parts h.chars_eq
  rw [← h.start_eq, ← h.index_eq] at hsubstring
  by_cases hempty : run = []
  · have hle : c.index ≤ c.start := by simp [h.index_eq, h.start_eq, hempty]
    rw [numeral, if_pos hle, if_pos hempty]
  · have hpos : 0 < Utf8.width run := Nat.pos_of_ne_zero (mt Utf8.width_eq_zero_iff.1 hempty)
    have hlt : ¬ c.index ≤ c.start := by
      rw [h.index_eq, h.start_eq, Utf8.width_append]
      omega
    rw [numeral, if_neg hlt, if_neg hempty, hsubstring]

/-- Reading the result as a number is reading its characters, by whatever takes no characters for an empty numeral. The
cursor stays. -/
theorem exists_resultNumber {α : Type} (h : c.Parts before run ahead) (parse : String → Except Numeral.Error α)
    (refused : String → Numeral.Error → Record) (hempty : parse "" = .error .empty) :
    ∃ o, c.number parse refused c.start c.index = .ok o ∧ o.cursor = c ∧
      o.reply = (parse (String.ofList run)).mapError .number := by
  refine ⟨_, number_eq h.numeral_result_eq parse refused, rfl, ?_⟩
  cases run with
  | nil => exact (congrArg (Except.mapError ScanError.number) hempty).symm
  | cons => rfl

/-- The result of characters in ASCII is as long as they are many. -/
theorem hasDigits (h : c.Parts before run ahead) (hascii : ∀ ch ∈ run, ch.toNat < 128) {max min : Nat}
    (hmin : min ≤ run.length) (hmax : 0 < max → run.length ≤ max) : c.HasDigits run max min where
  chars_eq := h.resultChars_eq
  length_eq := by rw [h.resultLength_eq, Utf8.width_of_ascii hascii]
  min_le := hmin
  le_max := hmax

/-- A bounded match that succeeds has taken characters that pass the test, and as many as its bounds ask for. -/
theorem exists_matched (h : c.Parts before run ahead) {op : MatchOp} {max min : Nat} {t : CharTest}
    (hattempt : op.attempt ahead = .bounded max min t ahead) (hascii : ∀ ch, t.accepts ch = true → ch.toNat < 128) :
    ∃ o, op.run c = .ok o ∧ (o.reply = true → ∃ taken rest, o.cursor.Parts (before ++ run) taken rest ∧
      (∀ ch ∈ taken, t.accepts ch = true) ∧ o.cursor.HasDigits taken max min) := by
  have hrun := op.run_eq h
  rw [hattempt] at hrun
  rcases Nat.lt_or_ge (t.taken max ahead).length min with hfew | henough
  · rw [settle_bounded_of_few c hfew] at hrun
    exact ⟨_, hrun, fun h => by cases h⟩
  · rw [settle_bounded_of_enough c henough] at hrun
    refine ⟨_, hrun, fun _ => ?_⟩
    have haccepts : ∀ ch ∈ t.taken max ahead, t.accepts ch = true := fun _ hmem => CharTest.accepts_of_mem_taken hmem
    obtain ⟨rest, hrest⟩ := t.taken_isPrefix max ahead
    have hsplit : c.Parts before run (t.taken max ahead ++ rest) := by rwa [hrest]
    have hparts := hsplit.parts_acceptTo
    have hdigits := hparts.hasDigits (fun ch hmem => hascii ch (haccepts ch hmem)) henough CharTest.length_taken_le
    exact ⟨_, rest, hparts, haccepts, hdigits⟩

end Parts

end Cursor

/-- Decimal digits convert. -/
theorem readsDigits_decimal {run : List Char} (h : ∀ ch ∈ run, isDigit ch = true) (size : Numeral.Size)
    (negative : Bool) :
    ReadsDigits ((Numeral.Decimal.parse size negative (String.ofList run)).mapError .number)
      (Numeral.Decimal.signed negative (Nat.ofDigitChars 10 run 0)) run.length (Numeral.Decimal.safeLength size) := by
  by_cases hempty : run = []
  · subst hempty
    exact .of_empty
  · rw [Numeral.Decimal.parse_eq size negative hempty h]
    exact .of_fits (mt List.length_eq_zero_iff.1 hempty) (Numeral.Decimal.fits_of_length_le negative h)

/-- Hexadecimal digits convert. -/
theorem readsDigits_hex {run : List Char} (h : ∀ ch ∈ run, isHexDigit ch = true) (size : Numeral.Size) :
    ReadsDigits ((Numeral.Hexadecimal.parse size (String.ofList run)).mapError .number)
      (BitVec.ofNat size.bits (Numeral.Hexadecimal.number 0 run)) run.length (Numeral.Hexadecimal.safeLength size) := by
  by_cases hempty : run = []
  · subst hempty
    exact .of_empty
  · rw [Numeral.Hexadecimal.parse_eq size hempty h]
    exact .of_fits (mt List.length_eq_zero_iff.1 hempty) Numeral.Hexadecimal.number_lt_of_length_le

namespace Cursor

/-- From any place that can be reached, and for all bounds: what a match of decimal digits took converts to a signed
word of either size as digits do, and so does what a match of hexadecimal digits took to an unsigned one. -/
theorem matched_digits_convert {t : Text} {c : Cursor} (h : Reachable t c) (op : MatchOp) (max min : Nat) :
    (op.decimalBounds? = some (max, min) → ∃ o, op.run c = .ok o ∧ (o.reply = true →
      ∃ run, o.cursor.HasDigits run max min ∧ ∀ size negative, ∃ p, o.cursor.resultDecimal size negative = .ok p ∧
        ReadsDigits p.reply (Numeral.Decimal.signed negative (Nat.ofDigitChars 10 run 0)) run.length
          (Numeral.Decimal.safeLength size))) ∧
    (op.hexBounds? = some (max, min) → ∃ o, op.run c = .ok o ∧ (o.reply = true →
      ∃ run, o.cursor.HasDigits run max min ∧ ∀ size, ∃ p, o.cursor.resultHex size = .ok p ∧
        ReadsDigits p.reply (BitVec.ofNat size.bits (Numeral.Hexadecimal.number 0 run)) run.length
          (Numeral.Hexadecimal.safeLength size))) := by
  obtain ⟨-, hwell⟩ := reachable_iff.1 h
  obtain ⟨before, run, ahead, hparts⟩ := wellFormed_iff_exists_parts.1 hwell
  constructor
  · intro hbounds
    obtain ⟨o, hrun, hmatched⟩ := hparts.exists_matched (op.attempt_of_decimalBounds? hbounds ahead)
      fun _ => toNat_lt_of_isDigit
    refine ⟨o, hrun, ?_⟩
    intro hreply
    obtain ⟨taken, rest, htaken, hdigits, hresult⟩ := hmatched hreply
    refine ⟨taken, hresult, ?_⟩
    intro size negative
    obtain ⟨p, hp, -, hnumber⟩ := htaken.exists_resultNumber (Numeral.Decimal.parse size negative) .decimalRefused rfl
    exact ⟨p, hp, hnumber ▸ readsDigits_decimal hdigits size negative⟩
  · intro hbounds
    obtain ⟨o, hrun, hmatched⟩ := hparts.exists_matched (op.attempt_of_hexBounds? hbounds ahead)
      fun _ => toNat_lt_of_isHexDigit
    refine ⟨o, hrun, ?_⟩
    intro hreply
    obtain ⟨taken, rest, htaken, hdigits, hresult⟩ := hmatched hreply
    refine ⟨taken, hresult, ?_⟩
    intro size
    obtain ⟨p, hp, -, hnumber⟩ := htaken.exists_resultNumber (Numeral.Hexadecimal.parse size) .hexRefused rfl
    exact ⟨p, hp, hnumber ▸ readsDigits_hex hdigits size⟩

/-- Behind a letter of two bytes, two decimal digits, and the same two with a letter that is a hexadecimal digit. -/
theorem matched_digits_convert_behind_letter :
    let t : Text := ⟨['é', '4', '2', 'a'], by decide⟩
    Reachable t ⟨t, 0, 2⟩ ∧
    (MatchOp.decimal.run ⟨t, 0, 2⟩ = .ok ⟨true, ⟨t, 2, 4⟩, [], []⟩ ∧
      (⟨t, 2, 4⟩ : Cursor).HasDigits ['4', '2'] 0 1 ∧
      ∀ size negative, ∃ p, (⟨t, 2, 4⟩ : Cursor).resultDecimal size negative = .ok p ∧
        ReadsDigits p.reply (Numeral.Decimal.signed negative 42) 2 (Numeral.Decimal.safeLength size)) ∧
    ((MatchOp.hexBounded 3 2).run ⟨t, 0, 2⟩ = .ok ⟨true, ⟨t, 2, 5⟩, [], []⟩ ∧
      (⟨t, 2, 5⟩ : Cursor).HasDigits ['4', '2', 'a'] 3 2 ∧
      ∀ size, ∃ p, (⟨t, 2, 5⟩ : Cursor).resultHex size = .ok p ∧
        ReadsDigits p.reply (BitVec.ofNat size.bits 0x42A) 3 (Numeral.Hexadecimal.safeLength size)) := by
  intro t
  have hreached : Reachable t ⟨t, 0, 2⟩ := reachable_iff.2 ⟨rfl, by decide, by decide, by decide⟩
  have htwo : MatchOp.decimal.run ⟨t, 0, 2⟩ = .ok ⟨true, ⟨t, 2, 4⟩, [], []⟩ := rfl
  have hthree : (MatchOp.hexBounded 3 2).run ⟨t, 0, 2⟩ = .ok ⟨true, ⟨t, 2, 5⟩, [], []⟩ := rfl
  refine ⟨hreached, ⟨htwo, ?_⟩, hthree, ?_⟩
  · obtain ⟨o, hrun, hmatched⟩ := (matched_digits_convert hreached .decimal 0 1).1 rfl
    obtain rfl := Except.ok.inj (hrun.symm.trans htwo)
    obtain ⟨run, hresult, hnumbers⟩ := hmatched rfl
    have hchars : (⟨t, 2, 4⟩ : Cursor).resultChars = .ok ['4', '2'] := rfl
    obtain rfl := Except.ok.inj (hresult.chars_eq.symm.trans hchars)
    exact ⟨hresult, hnumbers⟩
  · obtain ⟨o, hrun, hmatched⟩ := (matched_digits_convert hreached (.hexBounded 3 2) 3 2).2 rfl
    obtain rfl := Except.ok.inj (hrun.symm.trans hthree)
    obtain ⟨run, hresult, hnumbers⟩ := hmatched rfl
    have hchars : (⟨t, 2, 5⟩ : Cursor).resultChars = .ok ['4', '2', 'a'] := rfl
    obtain rfl := Except.ok.inj (hresult.chars_eq.symm.trans hchars)
    exact ⟨hresult, hnumbers⟩

end Cursor

end TextCursor
