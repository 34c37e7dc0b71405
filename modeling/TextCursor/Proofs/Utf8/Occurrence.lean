import TextCursor.Utf8.Decode
import TextCursor.Utf8.Search

/-!
# Occurrences of encoded characters

The encoding of characters is prefix-free: when one run of bytes begins with the encoding of a list of characters and
is itself an encoding, the characters stand at the front too (`encode_isPrefix_iff`). Only the first byte of an encoded
character can begin a character, so a search over bytes never stops inside one. Together they turn the byte search
into a search over characters: `findBytes?_encode` says that the offset found is the width of the characters before the
first place where the literal stands, and `charsBefore?_isPrefix_of_stands` that it is the first.

The literal of `findBytes?_encode` is not empty. Bytes that are not the encoding of characters are not considered.
-/

set_option autoImplicit false

namespace TextCursor.Utf8

/-- Bytes that begin with two encoded characters begin with the same one twice. -/
theorem encodeChar_append_inj {a b : Char} {as bs : List UInt8}
    (h : String.utf8EncodeChar a ++ as = String.utf8EncodeChar b ++ bs) : a = b ∧ as = bs := by
  have hdecode : some a = some b := by
    rw [← ByteArray.utf8DecodeChar?_utf8EncodeChar_append (b := as.toByteArray),
      ← ByteArray.utf8DecodeChar?_utf8EncodeChar_append (b := bs.toByteArray),
      ← List.toByteArray_append, ← List.toByteArray_append, h]
  obtain rfl := Option.some.inj hdecode
  exact ⟨rfl, List.append_cancel_left h⟩

/-- Bytes of one literal are at the front of the bytes of a text exactly where its characters are. -/
theorem encode_isPrefix_iff {as bs : List Char} : encode as <+: encode bs ↔ as <+: bs := by
  constructor
  · induction as generalizing bs with
    | nil => exact fun _ => List.nil_prefix
    | cons a as ih =>
      intro h
      obtain ⟨rest, hrest⟩ := h
      cases bs with
      | nil =>
        -- no character is encoded by nothing
        have hpos := a.utf8Size_pos
        have hlength := congrArg List.length hrest
        simp only [List.length_append, length_encode, width_cons, width_nil] at hlength
        omega
      | cons b bs =>
        rw [encode_cons, encode_cons, List.append_assoc] at hrest
        obtain ⟨rfl, htail⟩ := encodeChar_append_inj hrest
        exact List.cons_prefix_cons.2 ⟨rfl, ih ⟨rest, htail⟩⟩
  · intro h
    obtain ⟨rest, rfl⟩ := h
    exact ⟨encode rest, (encode_append as rest).symm⟩

theorem encode_inj {as bs : List Char} (h : encode as = encode bs) : as = bs := by
  have hprefix : as <+: bs := encode_isPrefix_iff.1 (h ▸ List.prefix_rfl)
  obtain ⟨rest, rfl⟩ := hprefix
  have hwidth := congrArg List.length h
  simp only [length_encode, width_append] at hwidth
  obtain rfl : rest = [] := width_eq_zero_iff.1 (by omega)
  simp

/-- An encoded character is a byte that can begin a character and then bytes that cannot. -/
theorem encodeChar_eq_cons (ch : Char) :
    ∃ first tail, String.utf8EncodeChar ch = first :: tail ∧ first.IsUTF8FirstByte ∧
      ∀ byte ∈ tail, ¬ byte.IsUTF8FirstByte := by
  have hpos := ch.utf8Size_pos
  rw [← String.length_utf8EncodeChar] at hpos
  obtain ⟨first, tail, heq⟩ := List.exists_cons_of_length_pos hpos
  have hfirst : ∀ (i : Nat) (hi : i < (first :: tail).length), ((first :: tail)[i]).IsUTF8FirstByte ↔ i = 0 := by
    rw [← heq]
    intro i hi
    exact UInt8.isUTF8FirstByte_getElem_utf8EncodeChar
  refine ⟨first, tail, heq, (hfirst 0 (by simp)).2 rfl, ?_⟩
  intro byte hmem
  obtain ⟨i, hi, rfl⟩ := List.getElem_of_mem hmem
  have hnot := hfirst (i + 1) (by simpa using hi)
  simpa using hnot

theorem utf8EncodeChar_of_ascii {ch : Char} (h : ch.toNat < 128) :
    String.utf8EncodeChar ch = [UInt8.ofNat ch.toNat] := by
  have hvalid : ch.toNat.isValidChar := Or.inl (by omega)
  have hencode := utf8EncodeChar_ofNat hvalid
  rwa [Char.ofNat_toNat, if_pos (by omega)] at hencode

theorem utf8Size_of_ascii {ch : Char} (h : ch.toNat < 128) : ch.utf8Size = 1 := by
  rw [← String.length_utf8EncodeChar, utf8EncodeChar_of_ascii h]
  rfl

/-- Characters of ASCII are as many as their bytes. -/
theorem width_of_ascii {cs : List Char} (h : ∀ ch ∈ cs, ch.toNat < 128) : width cs = cs.length := by
  induction cs with
  | nil => rfl
  | cons ch cs ih =>
    have hhead := utf8Size_of_ascii (h ch List.mem_cons_self)
    have htail := ih fun other hmem => h other (List.mem_cons_of_mem ch hmem)
    rw [width_cons, hhead, htail, List.length_cons, Nat.add_comm]

/-- A search passes over bytes that differ from the first byte of what it looks for. -/
theorem findBytes?_append_of_ne {first : UInt8} {needle passed bytes : List UInt8}
    (h : ∀ byte ∈ passed, byte ≠ first) :
    findBytes? (first :: needle) (passed ++ bytes) =
      (findBytes? (first :: needle) bytes).map (· + passed.length) := by
  induction passed with
  | nil => simp
  | cons byte passed ih =>
    -- a place that does not even begin right is passed over, and the search goes on one byte further
    have hne : (first == byte) = false := beq_false_of_ne (h byte (by simp)).symm
    rw [List.cons_append, findBytes?, List.isPrefixOf_cons_cons, hne, ih fun other hmem => h other (by simp [hmem])]
    simp only [Bool.false_and, Bool.false_eq_true, if_false, Option.map_map, List.length_cons]
    congr 1

/-- The characters before the first place where the literal stands, if there is one. -/
def charsBefore? (literal : List Char) : List Char → Option (List Char)
  | [] => if literal.isEmpty then some [] else none
  | ch :: cs =>
    if literal.isPrefixOf (ch :: cs) then some []
    else (charsBefore? literal cs).map (ch :: ·)

/-- The literal stands behind the characters before it. -/
theorem exists_of_charsBefore?_eq_some {literal cs before : List Char} (h : charsBefore? literal cs = some before) :
    ∃ rest, cs = before ++ (literal ++ rest) := by
  fun_induction charsBefore? literal cs generalizing before with
  | case1 hempty =>
    cases h
    exact ⟨[], by rw [List.isEmpty_iff.1 hempty]; rfl⟩
  | case2 => cases h
  | case3 ch cs hprefix =>
    cases h
    obtain ⟨rest, hrest⟩ := List.isPrefixOf_iff_prefix.1 hprefix
    exact ⟨rest, hrest.symm⟩
  | case4 ch cs hprefix ih =>
    obtain ⟨passed, hpassed, rfl⟩ := Option.map_eq_some_iff.1 h
    obtain ⟨rest, rfl⟩ := ih hpassed
    exact ⟨rest, rfl⟩

theorem charsBefore?_isPrefix {literal cs before : List Char} (h : charsBefore? literal cs = some before) :
    before <+: cs := by
  obtain ⟨rest, rfl⟩ := exists_of_charsBefore?_eq_some h
  exact List.prefix_append _ _

/-- The place that is found is the first one: the literal stands nowhere in the characters before it. -/
theorem not_isInfix_of_charsBefore?_eq_some {literal cs before : List Char} (hne : literal ≠ [])
    (h : charsBefore? literal cs = some before) : ¬ literal <:+: before := by
  fun_induction charsBefore? literal cs generalizing before with
  | case1 hempty => exact absurd (List.isEmpty_iff.1 hempty) hne
  | case2 => cases h
  | case3 ch cs hprefix =>
    cases h
    exact mt List.eq_nil_of_infix_nil hne
  | case4 ch cs hprefix ih =>
    obtain ⟨passed, hpassed, rfl⟩ := Option.map_eq_some_iff.1 h
    intro hinfix
    rcases List.infix_cons_iff.1 hinfix with hfront | hbehind
    · -- at the front of these characters it would stand at the front of all of them
      have hpassed_le : ch :: passed <+: ch :: cs := List.cons_prefix_cons.2 ⟨rfl, charsBefore?_isPrefix hpassed⟩
      exact hprefix (List.isPrefixOf_iff_prefix.2 (hfront.trans hpassed_le))
    · exact ih hpassed hbehind

/-- Where no place is found there is none. -/
theorem not_isInfix_of_charsBefore?_eq_none {literal cs : List Char} (h : charsBefore? literal cs = none) :
    ¬ literal <:+: cs := by
  fun_induction charsBefore? literal cs with
  | case1 => cases h
  | case2 hempty => exact mt List.eq_nil_of_infix_nil (mt List.isEmpty_iff.2 hempty)
  | case3 => cases h
  | case4 ch cs hprefix ih =>
    intro hinfix
    rcases List.infix_cons_iff.1 hinfix with hfront | hbehind
    · exact hprefix (List.isPrefixOf_iff_prefix.2 hfront)
    · exact ih (Option.map_eq_none_iff.1 h) hbehind

theorem charsBefore?_of_isPrefix {literal cs : List Char} (h : literal <+: cs) : charsBefore? literal cs = some [] := by
  cases cs with
  | nil => rw [charsBefore?, if_pos (List.isEmpty_iff.2 (List.prefix_nil.1 h))]
  | cons ch cs => rw [charsBefore?, if_pos (List.isPrefixOf_iff_prefix.2 h)]

/-- The place that is found is the first one: whatever else the literal stands behind is at least as long. -/
theorem charsBefore?_isPrefix_of_stands {literal before passed rest : List Char}
    (h : charsBefore? literal (passed ++ (literal ++ rest)) = some before) : before <+: passed := by
  induction passed generalizing before with
  | nil =>
    rw [List.nil_append, charsBefore?_of_isPrefix (List.prefix_append literal rest)] at h
    cases h
    exact List.prefix_rfl
  | cons ch passed ih =>
    rw [List.cons_append, charsBefore?] at h
    split at h
    · cases h
      exact List.nil_prefix
    · obtain ⟨shorter, hshorter, rfl⟩ := Option.map_eq_some_iff.1 h
      exact List.cons_prefix_cons.2 ⟨rfl, ih hshorter⟩

/-- The characters before the first place of one character are those up to it that differ from it. -/
theorem charsBefore?_singleton_getD (ch : Char) (cs : List Char) :
    (charsBefore? [ch] cs).getD cs = cs.takeWhile (· != ch) := by
  induction cs with
  | nil => rfl
  | cons first cs ih =>
    rw [charsBefore?]
    by_cases heq : ch = first
    · subst heq
      simp
    · have hfront : ¬ [ch].isPrefixOf (first :: cs) = true := by simp [heq]
      have hpass : (first :: cs).takeWhile (· != ch) = first :: cs.takeWhile (· != ch) :=
        List.takeWhile_cons_of_pos (by simpa using Ne.symm heq)
      rw [if_neg hfront, hpass, ← ih]
      cases charsBefore? [ch] cs <;> rfl

/-- The byte search for an encoded literal stops in front of the characters that the literal consists of, at the first
place where they stand. -/
theorem findBytes?_encode {literal : List Char} (hne : literal ≠ []) (cs : List Char) :
    findBytes? (encode literal) (encode cs) = (charsBefore? literal cs).map width := by
  obtain ⟨a, as, rfl⟩ := List.exists_cons_of_ne_nil hne
  obtain ⟨first, needle, hfirst, hbegins, -⟩ := encodeChar_eq_cons a
  have hliteral : encode (a :: as) = first :: (needle ++ encode as) := by rw [encode_cons, hfirst]; rfl
  induction cs with
  | nil => simp [charsBefore?, hliteral, findBytes?]
  | cons ch cs ih =>
    obtain ⟨lead, tail, hlead, -, htail⟩ := encodeChar_eq_cons ch
    have htext : encode (ch :: cs) = lead :: (tail ++ encode cs) := by rw [encode_cons, hlead]; rfl
    have hstart : encode (a :: as) <+: lead :: (tail ++ encode cs) ↔ a :: as <+: ch :: cs := by
      rw [← htext]
      exact encode_isPrefix_iff
    rw [htext, findBytes?, charsBefore?]
    by_cases hprefix : a :: as <+: ch :: cs
    · -- both searches stop at once
      rw [if_pos (List.isPrefixOf_iff_prefix.2 (hstart.2 hprefix)), if_pos (List.isPrefixOf_iff_prefix.2 hprefix)]
      rfl
    · -- neither stops at this character, and the byte search does not stop inside it
      have hpass : ∀ byte ∈ tail, byte ≠ first := fun byte hmem heq => htail byte hmem (heq ▸ hbegins)
      have hsize : ch.utf8Size = tail.length + 1 := by rw [← String.length_utf8EncodeChar, hlead]; rfl
      rw [if_neg (mt (hstart.1 ∘ List.isPrefixOf_iff_prefix.1) hprefix),
        if_neg (mt List.isPrefixOf_iff_prefix.1 hprefix), hliteral, findBytes?_append_of_ne hpass, ← hliteral, ih]
      simp only [Option.map_map]
      congr 1
      funext before
      simp only [Function.comp_apply, width_cons]
      omega

end TextCursor.Utf8
