import TextCursor.Proofs.Cursor.Digits
import TextCursor.Proofs.Cursor.Repetition

/-!
# Lists of signed numbers

A list of numbers is written with commas between them. A number that is negative has a minus sign in front, another may
have any number of plus signs, and the digits may have any number of zeros in front (`Entry.written`). `readEntry` is
one turn of a reader of such lists, put together from five operations of a cursor.

What is written is read back (`readEntry_reads_written`): the reader finds digits in every turn, every conversion
succeeds, the numbers are those that were written, and it ends at the end of the text. This includes the least number of
the word, which has no positive counterpart in it.
-/

set_option autoImplicit false

namespace TextCursor

open Numeral

/-- A number of a signed word, with what is written in front of its digits. -/
structure Entry (size : Size) where
  value : Int
  /-- How many plus signs are written, if the number is not negative. -/
  pluses : Nat
  /-- How many zeros are written that do not count. -/
  zeros : Nat
  fits : Decimal.Fits size value

namespace Entry

variable {size : Size}

def isNegative (e : Entry size) : Bool :=
  decide (e.value < 0)

def sign (e : Entry size) : List Char :=
  if e.isNegative then ['-'] else List.replicate e.pluses '+'

def digits (e : Entry size) : List Char :=
  List.replicate e.zeros '0' ++ Nat.toDigits 10 e.value.natAbs

def written (e : Entry size) : List Char :=
  e.sign ++ e.digits

theorem digits_ne_nil (e : Entry size) : e.digits ≠ [] :=
  List.append_ne_nil_of_right_ne_nil _ Nat.toDigits_ne_nil

theorem isDigit_of_mem_digits (e : Entry size) {ch : Char} (h : ch ∈ e.digits) : isDigit ch = true := by
  rcases List.mem_append.1 h with hzero | hdigit
  · rw [List.eq_of_mem_replicate hzero]
    rfl
  · have hcore := Nat.isDigit_of_mem_toDigits (by decide) (by decide) hdigit
    exact isDigit_iff_toNat.2 (Char.isDigit_iff_toNat.1 hcore)

theorem ofDigitChars_digits (e : Entry size) : Nat.ofDigitChars 10 e.digits 0 = e.value.natAbs := by
  rw [digits, Nat.ofDigitChars_append, Nat.ofDigitChars_replicate_zero, Nat.mul_zero, Nat.ofDigitChars_ten_toDigits]

theorem signed_natAbs (e : Entry size) : Decimal.signed e.isNegative e.value.natAbs = e.value := by
  by_cases hneg : e.value < 0
  · simp only [Decimal.signed, isNegative, hneg, decide_true, if_true]
    omega
  · simp only [Decimal.signed, isNegative, hneg, decide_false, Bool.false_eq_true, if_false]
    omega

/-- The digits of a number that fits, read towards its sign, are the number. -/
theorem parse_digits (e : Entry size) :
    Decimal.parse size e.isNegative (String.ofList e.digits) = .ok e.value := by
  have hparse := Decimal.parse_eq size e.isNegative e.digits_ne_nil fun _ hmem => e.isDigit_of_mem_digits hmem
  rw [e.ofDigitChars_digits, e.signed_natAbs, if_pos e.fits] at hparse
  exact hparse

end Entry

/-- The entries with a comma between each and the next. -/
def writtenList {size : Size} (entries : List (Entry size)) : List Char :=
  [','].intercalate (entries.map Entry.written)

/-- What a turn of the reader has found: whether there were digits, and the number that they denote. -/
structure Found where
  hasDigits : Bool
  number : Except ScanError Int

namespace Cursor

/-- Reads a sign: whether it is a minus, and the cursor behind it. Plus signs are passed over. -/
def readSign (c : Cursor) : Except Breach (Bool × Cursor) := do
  let minus ← c.matchChar '-'
  if minus.reply then return (true, minus.cursor)
  let pluses ← minus.cursor.skipChar '+'
  return (false, pluses.cursor)

/-- Reads a number with its sign, and a comma if one follows. -/
def readEntry (size : Size) (c : Cursor) : Except Breach (Turn Found) := do
  let (negative, unsigned) ← c.readSign
  let digits ← unsigned.matchDecimal
  let number ← digits.cursor.resultDecimal size negative
  let comma ← number.cursor.matchChar ','
  return ⟨⟨digits.reply, number.reply⟩, comma.reply, comma.cursor⟩

end Cursor

namespace Cursor.Parts

variable {c : Cursor} {before run ahead rest : List Char} {size : Size}

/-- Reading a sign: the minus of a negative number, or the pluses of another. No sign is a digit, so it ends where the
digits begin. -/
theorem exists_readSign (h : c.Parts before run ahead) (e : Entry size) (hahead : ahead = e.sign ++ rest)
    (hrest : ∃ first more, rest = first :: more ∧ isDigit first = true) :
    ∃ unsigned before' run', c.readSign = .ok (e.isNegative, unsigned) ∧ unsigned.Parts before' run' rest := by
  obtain ⟨first, more, rfl, hdigit⟩ := hrest
  have hcode := isDigit_iff_toNat.1 hdigit
  have hplus : first ≠ '+' := by
    rintro rfl
    exact absurd hcode (by decide)
  have hminus : first ≠ '-' := by
    rintro rfl
    exact absurd hcode (by decide)
  cases hneg : e.isNegative with
  | true =>
    have hsign : ahead = '-' :: first :: more := by rw [hahead, Entry.sign, hneg]; rfl
    rw [hsign] at h
    obtain ⟨o, hmatch, hreply, hparts⟩ := h.exists_matchChar
    refine ⟨o.cursor, _, _, ?_, hparts⟩
    simp [readSign, hmatch, hreply, bind, Except.bind, pure, Except.pure]
  | false =>
    have hsign : ahead = List.replicate e.pluses '+' ++ first :: more := by rw [hahead, Entry.sign, hneg]; rfl
    have hhead : ahead.head? ≠ some '-' := by
      rw [hsign]
      cases e.pluses with
      | zero => simpa using hminus
      | succ n => simp [List.replicate_succ]
    obtain ⟨o, hmatch, hreply, hcursor⟩ := h.matchChar_of_head?_ne hhead
    have htaken : (CharTest.equals '+').taken 0 ahead = List.replicate e.pluses '+' := by
      rw [hsign]
      refine CharTest.taken_append (fun ch hmem => ?_) fun ch hmem => ?_
      · simp [CharTest.equals, CharTest.accepts, List.eq_of_mem_replicate hmem]
      · obtain rfl : first = ch := by simpa using hmem
        simp [CharTest.equals, CharTest.accepts, hplus]
    have hskip := h.skipWhile_eq (.equals '+')
    rw [htaken] at hskip
    have hsplit : c.Parts before run (List.replicate e.pluses '+' ++ first :: more) := by rwa [← hsign]
    refine ⟨_, _, _, ?_, hsplit.parts_acceptTo⟩
    simp [readSign, hmatch, hreply, hcursor, skipChar, hskip, skipped, bind, Except.bind, pure, Except.pure]

/-- A match of decimal digits takes all digits that stand ahead. -/
theorem exists_matchDecimal (h : c.Parts before run ahead) {digits : List Char} (hahead : ahead = digits ++ rest)
    (hne : digits ≠ []) (hdigits : ∀ ch ∈ digits, isDigit ch = true)
    (hrest : ∀ ch ∈ rest.head?, isDigit ch = false) :
    ∃ o, c.matchDecimal = .ok o ∧ o.reply = true ∧ o.cursor.Parts (before ++ run) digits rest := by
  have htaken : CharTest.digit.taken 0 ahead = digits := by
    rw [hahead]
    exact CharTest.taken_append hdigits hrest
  have henough : 1 ≤ (CharTest.digit.taken 0 ahead).length := by
    rw [htaken]
    exact List.length_pos_iff.2 hne
  have hmatch : c.matchDecimal = _ := h.matchWhileBounded_eq 0 1 .digit
  refine ⟨_, hmatch, ?_⟩
  have hsplit : c.Parts before run (digits ++ rest) := by rwa [← hahead]
  rw [settle_bounded_of_enough c henough, htaken]
  exact ⟨rfl, hsplit.parts_acceptTo⟩

/-- One turn: an entry is read, and the comma behind it if another entry follows. -/
theorem exists_readEntry (h : c.Parts before run ahead) (e : Entry size) {tail : List Char}
    (hahead : ahead = e.written ++ tail) (htail : tail = [] ∨ ∃ more, tail = ',' :: more) :
    ∃ turn before' run', c.readEntry size = .ok turn ∧ turn.item = ⟨true, .ok e.value⟩ ∧
      turn.goesOn = !tail.isEmpty ∧ turn.cursor.Parts before' run' tail.tail := by
  have hsign : ahead = e.sign ++ (e.digits ++ tail) := by rw [hahead, Entry.written, List.append_assoc]
  have hfirst : ∃ first more, e.digits ++ tail = first :: more ∧ isDigit first = true := by
    obtain ⟨first, more, hcons⟩ := List.exists_cons_of_ne_nil e.digits_ne_nil
    exact ⟨first, more ++ tail, by rw [hcons]; rfl, e.isDigit_of_mem_digits (by rw [hcons]; exact List.mem_cons_self)⟩
  have hbehind : ∀ ch ∈ tail.head?, isDigit ch = false := by
    rcases htail with rfl | ⟨more, rfl⟩
    · exact nofun
    · intro ch hmem
      obtain rfl : ',' = ch := by simpa using hmem
      decide
  obtain ⟨unsigned, before₁, run₁, hreadSign, hunsigned⟩ := h.exists_readSign e hsign hfirst
  obtain ⟨digits, hmatch, hdigits, hparts⟩ := hunsigned.exists_matchDecimal rfl e.digits_ne_nil
    (fun _ hmem => e.isDigit_of_mem_digits hmem) hbehind
  obtain ⟨number, hconvert, hcursor, hnumber⟩ :=
    hparts.exists_resultNumber (Decimal.parse size e.isNegative) .decimalRefused rfl
  rw [e.parse_digits] at hnumber
  rw [← hcursor] at hparts
  rcases htail with rfl | ⟨more, rfl⟩
  · have hnone : ([] : List Char).head? ≠ some ',' := nofun
    obtain ⟨comma, hcomma, hreply, hstays⟩ := hparts.matchChar_of_head?_ne hnone
    refine ⟨⟨⟨digits.reply, number.reply⟩, comma.reply, comma.cursor⟩, _, _, ?_, ?_, hreply, hstays ▸ hparts⟩
    · simp [readEntry, hreadSign, hmatch, resultDecimal, decimal, hconvert, hcomma, bind, Except.bind, pure, Except.pure]
    · rw [hdigits, hnumber]
      rfl
  · obtain ⟨comma, hcomma, hreply, hnext⟩ := hparts.exists_matchChar
    refine ⟨⟨⟨digits.reply, number.reply⟩, comma.reply, comma.cursor⟩, _, _, ?_, ?_, hreply, hnext⟩
    · simp [readEntry, hreadSign, hmatch, resultDecimal, decimal, hconvert, hcomma, bind, Except.bind, pure, Except.pure]
    · rw [hdigits, hnumber]
      rfl

/-- The turns read the entries one by one and end behind the last of them. -/
theorem exists_repeats_readEntry (h : c.Parts before run ahead) {entries : List (Entry size)} (hne : entries ≠ [])
    (hahead : ahead = writtenList entries) :
    ∃ last before' run', Repeats (readEntry size) c (entries.map fun e => ⟨true, .ok e.value⟩) last ∧
      last.Parts before' run' [] := by
  -- by induction on the entries, wherever they stand
  induction entries generalizing c before run ahead with
  | nil => exact absurd rfl hne
  | cons e entries ih =>
    by_cases hlast : entries = []
    · subst hlast
      have hone : ahead = e.written ++ [] := by
        rw [hahead, writtenList, List.map_singleton, List.intercalate_singleton, List.append_nil]
      obtain ⟨turn, before', run', hturn, hitem, hstop, hparts⟩ := h.exists_readEntry e hone (.inl rfl)
      refine ⟨turn.cursor, before', run', ?_, hparts⟩
      rw [List.map_singleton, ← hitem]
      exact .stop hturn hstop
    · have hmore : ahead = e.written ++ ',' :: writtenList entries := by
        rw [hahead, writtenList, List.map_cons, List.intercalate_cons_of_ne_nil (by simpa using hlast),
          List.append_assoc]
        rfl
      obtain ⟨turn, before₁, run₁, hturn, hitem, hagain, hparts⟩ := h.exists_readEntry e hmore (.inr ⟨_, rfl⟩)
      obtain ⟨last, before', run', hrest, hend⟩ := ih hparts hlast rfl
      refine ⟨last, before', run', ?_, hend⟩
      rw [List.map_cons, ← hitem]
      exact .again hturn hagain hrest

end Cursor.Parts

namespace Cursor

/-- The reader of a written list ends, and only in one way: with every number as it was written, found as digits and
converted, and with nothing left of the text. -/
theorem readEntry_reads_written {size : Size} {entries : List (Entry size)} (hne : entries ≠ []) {t : Text}
    (ht : t.chars = writtenList entries) :
    ∃ last : Cursor, last.isAtEnd = true ∧ ∀ items stop, Repeats (readEntry size) (ofText t) items stop ↔
      items = entries.map (fun e => ⟨true, .ok e.value⟩) ∧ stop = last := by
  obtain ⟨last, before, run, hreads, hparts⟩ := (Parts.ofText t).exists_repeats_readEntry hne ht
  refine ⟨last, hparts.isAtEnd_eq, ?_⟩
  intro items stop
  constructor
  · exact hreads.unique
  · rintro ⟨rfl, rfl⟩
    exact hreads

/-- The least number of the word with zeros in front, the greatest with signs, and zero. -/
def extremes : List (Entry .word32) :=
  [⟨-2147483648, 0, 2, by decide⟩, ⟨2147483647, 2, 1, by decide⟩, ⟨0, 0, 0, by decide⟩]

theorem readEntry_reads_written_extremes :
    ∃ t : Text, t.chars = "-002147483648,++02147483647,0".toList ∧ extremes ≠ [] ∧ t.chars = writtenList extremes ∧
      ∃ last : Cursor, last.isAtEnd = true ∧ ∀ items stop, Repeats (readEntry .word32) (ofText t) items stop ↔
        items = [⟨true, .ok (-2147483648)⟩, ⟨true, .ok 2147483647⟩, ⟨true, .ok 0⟩] ∧ stop = last := by
  have hne : extremes ≠ [] := List.cons_ne_nil _ _
  have hchars : "-002147483648,++02147483647,0".toList = writtenList extremes := by decide
  have hfits : Utf8.width "-002147483648,++02147483647,0".toList ≤ maxObjectSize := by decide
  exact ⟨⟨_, hfits⟩, rfl, hne, hchars, readEntry_reads_written hne (t := ⟨_, hfits⟩) hchars⟩

end Cursor

end TextCursor
