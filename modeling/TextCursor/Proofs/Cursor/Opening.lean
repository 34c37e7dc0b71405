import TextCursor.Proofs.Cursor.Reachability
import TextCursor.Proofs.Utf8.Validity

/-!
# Cursors made from bytes

A cursor is made from the encodings of strings and from no other bytes, and it is the one that is made from the string
(`ofBytes_opens_encodings`). Other bytes yield an error and one record for debugging, which give the same report: where
the bytes stop being an encoding, and what stands there (`Reports`).

That the longest encoding is named, and not only some place where the bytes are wrong, is a theorem about the decoder
(`Utf8.refusal_of_decode`); here are the wordings and what is made of them.
-/

set_option autoImplicit false

namespace TextCursor

/-- What a report says of refused bytes: the first `i` of them are the longest prefix that is an encoding. If the bytes
after it are cut short inside a character it says so, and else it counts those that begin a character, or one stray
byte. -/
structure Reports (bytes : List UInt8) (i : Nat) (report : String) : Prop where
  longest : Utf8.LongestPrefix Utf8.IsEncoding bytes i
  incomplete_iff :
    report = s!"incomplete utf-8 byte sequence from index {i}" ↔ Utf8.TruncatesChar (bytes.drop i)
  invalid : ¬ Utf8.TruncatesChar (bytes.drop i) →
    ∃ k m, Utf8.LongestPrefix Utf8.BeginsChar (bytes.drop i) m ∧ k = max 1 m ∧ 1 ≤ k ∧ k ≤ 3 ∧
      report = s!"invalid utf-8 sequence of {k} bytes from index {i}"

/-- The two wordings differ whatever the numbers in them are, so the wording tells the fault. -/
theorem Utf8.DecodeError.message_eq_iff (e : Utf8.DecodeError) :
    e.message = s!"incomplete utf-8 byte sequence from index {e.offset}" ↔ e.fault = .incomplete := by
  cases hfault : e.fault with
  | incomplete => simp [message, hfault]
  | invalid count =>
    simp only [message, hfault, reduceCtorEq, iff_false]
    intro h
    have hletters := congrArg (fun s => s.toList.take 3) h
    simp only [toString, String.toList_append] at hletters
    simp at hletters

/-- A refusal of the decoder, put into words, is a report. -/
theorem reports_of_decode {bytes : List UInt8} {e : Utf8.DecodeError} (h : Utf8.decode bytes = .error e) :
    Reports bytes e.offset e.message := by
  obtain ⟨hlongest, hexplains⟩ := Utf8.refusal_of_decode h
  refine ⟨hlongest, e.message_eq_iff.trans hexplains.incomplete_iff, ?_⟩
  intro hwhole
  cases hfault : e.fault with
  | incomplete => exact absurd (hexplains.incomplete_iff.1 hfault) hwhole
  | invalid k =>
    obtain ⟨m, hbegins, hk, hthree⟩ := hexplains.count_of_invalid k hfault
    exact ⟨k, m, hbegins, hk, by omega, hthree, by rw [Utf8.DecodeError.message, hfault]⟩

namespace Text

variable {bytes : Bytes}

/-- The bytes of a text give the text. -/
theorem ofBytes_of_encode {t : Text} (h : Utf8.encode t.chars = bytes.toList) : ofBytes bytes = .ok t := by
  have hdecode : Utf8.decode bytes.toList = .ok t.chars := h ▸ Utf8.decode_encode t.chars
  unfold ofBytes
  split
  next cs hcs =>
    rw [hdecode] at hcs
    exact congrArg Except.ok (eq_of_chars_eq (Except.ok.inj hcs).symm)
  next e he =>
    rw [hdecode] at he
    cases he

/-- A string whose bytes are given is a text, because they are not too many. -/
theorem exists_ofString? {s : String} (h : Utf8.encode s.toList = bytes.toList) :
    ∃ t, ofString? s = some t ∧ t.chars = s.toList ∧ t.length = bytes.toList.length := by
  have hlength : Utf8.width s.toList = bytes.toList.length := by rw [← Utf8.length_encode, h]
  have hfits : Utf8.width s.toList ≤ maxObjectSize := hlength ▸ bytes.length_le
  exact ⟨⟨s.toList, hfits⟩, dif_pos hfits, rfl, hlength⟩

/-- Bytes that are no encoding are refused with the decoder's refusal. -/
theorem exists_ofBytes_error (h : ¬ Utf8.IsEncoding bytes.toList) :
    ∃ e, ofBytes bytes = .error e ∧ Utf8.decode bytes.toList = .error e := by
  unfold ofBytes
  split
  next cs hcs => exact absurd ⟨cs, Utf8.encode_eq_of_decode hcs⟩ h
  next e he => exact ⟨e, rfl, he⟩

end Text

namespace Cursor

variable {bytes : Bytes}

/-- The bytes of a string open as the string does. -/
theorem ofBytes_of_encode {s : String} (h : Utf8.encode s.toList = bytes.toList) :
    ∃ t, Text.ofString? s = some t ∧ ofBytes bytes = ⟨.ok (ofText t), []⟩ ∧
      (ofText t).start = 0 ∧ (ofText t).index = 0 ∧ (ofText t).length = bytes.toList.length := by
  obtain ⟨t, hstring, hchars, hlength⟩ := Text.exists_ofString? h
  have htext : Text.ofBytes bytes = .ok t := Text.ofBytes_of_encode (hchars ▸ h)
  exact ⟨t, hstring, by rw [ofBytes, htext], rfl, rfl, hlength⟩

/-- Other bytes do not open, and the error and the record give the same report. -/
theorem ofBytes_of_not_isEncoding (h : ¬ Utf8.IsEncoding bytes.toList) :
    ∃ i report record, Reports bytes.toList i report ∧
      ofBytes bytes = ⟨.error (.invalidArgument ("text is not valid UTF-8: " ++ report)), [record]⟩ ∧
      record.level = .debug ∧ record.message = "rejecting matcher text: " ++ report := by
  obtain ⟨e, htext, hdecode⟩ := Text.exists_ofBytes_error h
  exact ⟨e.offset, e.message, .bytesRefused e, reports_of_decode hdecode, by rw [ofBytes, htext]; rfl, rfl, rfl⟩

theorem exists_ofBytes_iff : (∃ c, (ofBytes bytes).result = .ok c) ↔ Utf8.IsEncoding bytes.toList := by
  constructor
  · intro hopens
    obtain ⟨c, hc⟩ := hopens
    by_cases hencoding : Utf8.IsEncoding bytes.toList
    · exact hencoding
    · obtain ⟨i, report, record, -, hrefused, -⟩ := ofBytes_of_not_isEncoding hencoding
      rw [hrefused] at hc
      cases hc
  · intro hencoding
    obtain ⟨cs, hcs⟩ := hencoding
    have hstring : Utf8.encode (String.ofList cs).toList = bytes.toList := by rwa [String.toList_ofList]
    obtain ⟨t, -, hopens, -⟩ := ofBytes_of_encode hstring
    exact ⟨ofText t, by rw [hopens]⟩

/-- Exactly the encodings open, each as its string does. Of other bytes it is reported how far they are one and what is
wrong behind that, in the error and in one record. -/
theorem ofBytes_opens_encodings (bytes : Bytes) :
    ((∃ c, (ofBytes bytes).result = .ok c) ↔ Utf8.IsEncoding bytes.toList) ∧
    (∀ s : String, Utf8.encode s.toList = bytes.toList →
      ∃ t, Text.ofString? s = some t ∧ ofBytes bytes = ⟨.ok (ofText t), []⟩ ∧
        (ofText t).start = 0 ∧ (ofText t).index = 0 ∧ (ofText t).length = bytes.toList.length) ∧
    (¬ Utf8.IsEncoding bytes.toList →
      ∃ i report record, Reports bytes.toList i report ∧
        ofBytes bytes = ⟨.error (.invalidArgument ("text is not valid UTF-8: " ++ report)), [record]⟩ ∧
        record.level = .debug ∧ record.message = "rejecting matcher text: " ++ report) :=
  ⟨exists_ofBytes_iff, fun _ => ofBytes_of_encode, ofBytes_of_not_isEncoding⟩

end Cursor

end TextCursor
