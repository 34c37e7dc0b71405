import TextCursor.Utf8.Basic

/-!
# Decoding bytes

`decode` reads bytes as characters and refuses everything that is not the shortest encoding of Unicode scalar values:
overlong forms, surrogates, values above U+10FFFF, stray continuation bytes and input that ends inside a character.
A refusal says how many leading bytes are good, and whether more bytes could have completed the character after them.

What a byte may be followed by depends on the lead byte only, and on the first byte after it more than on the others;
`lead?` is that table, and `follow` walks along it. Whatever is decoded encodes back to the bytes read
(`encode_eq_of_decode`).
-/

set_option autoImplicit false

namespace TextCursor.Utf8

structure ByteRange where
  low : UInt8
  high : UInt8
deriving DecidableEq, Repr

def ByteRange.covers (range : ByteRange) (byte : UInt8) : Bool :=
  range.low ≤ byte && byte ≤ range.high

/-- The bytes that may stand anywhere but at the front of a character. -/
def continuation : ByteRange := ⟨0x80, 0xBF⟩

/-- What a lead byte announces: its share of the code point, and the range of each byte that has to follow. -/
structure Lead where
  bits : Nat
  tail : List ByteRange
deriving DecidableEq, Repr

/-- The announcement of a lead byte, or `none` for a byte that starts no character. The narrower second ranges shut
out overlong forms after E0 and F0, surrogates after ED, and values above U+10FFFF after F4. -/
def lead? (byte : UInt8) : Option Lead :=
  if byte ≤ 0x7F then some ⟨byte.toNat, []⟩
  else if byte ≤ 0xC1 then none
  else if byte ≤ 0xDF then some ⟨byte.toNat % 32, [continuation]⟩
  else if byte = 0xE0 then some ⟨0, [⟨0xA0, 0xBF⟩, continuation]⟩
  else if byte = 0xED then some ⟨13, [⟨0x80, 0x9F⟩, continuation]⟩
  else if byte ≤ 0xEF then some ⟨byte.toNat % 16, [continuation, continuation]⟩
  else if byte = 0xF0 then some ⟨0, [⟨0x90, 0xBF⟩, continuation, continuation]⟩
  else if byte ≤ 0xF3 then some ⟨byte.toNat % 8, [continuation, continuation, continuation]⟩
  else if byte = 0xF4 then some ⟨4, [⟨0x80, 0x8F⟩, continuation, continuation]⟩
  else none

/-- Why the bytes at some place are not a character. -/
inductive Fault where
  /-- The input ends where more bytes could complete the character. -/
  | incomplete
  /-- The first `count` bytes begin a character, or are one stray byte, and the next byte cannot continue it. -/
  | invalid (count : Nat)
deriving DecidableEq, Repr

/-- A refusal: the bytes before `offset` are good, and those from it on are not a character. -/
structure DecodeError where
  offset : Nat
  fault : Fault
deriving DecidableEq, Repr

def DecodeError.message (e : DecodeError) : String :=
  match e.fault with
  | .incomplete => s!"incomplete utf-8 byte sequence from index {e.offset}"
  | .invalid count => s!"invalid utf-8 sequence of {count} bytes from index {e.offset}"

/-- Adds the announced bytes to the bits collected from `seen` bytes; answers the code point and the bytes after it. -/
def follow (bits seen : Nat) : List ByteRange → List UInt8 → Except Fault (Nat × List UInt8)
  | [], rest => .ok (bits, rest)
  | _ :: _, [] => .error .incomplete
  | range :: tail, byte :: rest =>
    if range.covers byte then follow (bits * 64 + byte.toNat % 64) (seen + 1) tail rest
    else .error (.invalid seen)

/-- The character at the front of a nonempty input, and the bytes after it. -/
def decodeChar (byte : UInt8) (rest : List UInt8) : Except Fault (Char × List UInt8) :=
  match lead? byte with
  | none => .error (.invalid 1)
  | some lead =>
    match follow lead.bits 1 lead.tail rest with
    | .ok (code, rest) => .ok (Char.ofNat code, rest)
    | .error fault => .error fault

/-- The encoding of a code point, by the number of bytes it needs. -/
theorem utf8EncodeChar_ofNat {n : Nat} (h : n.isValidChar) :
    String.utf8EncodeChar (Char.ofNat n) =
      if n ≤ 127 then [UInt8.ofNat n]
      else if n ≤ 2047 then [UInt8.ofNat (n / 64 % 32 + 192), UInt8.ofNat (n % 64 + 128)]
      else if n ≤ 65535 then
        [UInt8.ofNat (n / 4096 % 16 + 224), UInt8.ofNat (n / 64 % 64 + 128), UInt8.ofNat (n % 64 + 128)]
      else
        [UInt8.ofNat (n / 262144 % 8 + 240), UInt8.ofNat (n / 4096 % 64 + 128), UInt8.ofNat (n / 64 % 64 + 128),
          UInt8.ofNat (n % 64 + 128)] := by
  have hval : (Char.ofNat n).val.toNat = n := by
    rw [Char.ofNat, dif_pos h]
    rfl
  simp only [String.utf8EncodeChar, hval]

theorem ByteRange.covers_iff {range : ByteRange} {byte : UInt8} :
    range.covers byte = true ↔ range.low.toNat ≤ byte.toNat ∧ byte.toNat ≤ range.high.toNat := by
  simp [ByteRange.covers, UInt8.le_iff_toNat_le]

theorem ByteRange.covers_continuation {byte : UInt8} :
    continuation.covers byte = true ↔ 128 ≤ byte.toNat ∧ byte.toNat ≤ 191 :=
  ByteRange.covers_iff

/-- A walk that succeeds has read one byte of each announced range, and its code point collects six bits of each. -/
theorem follow_cons_eq_ok {bits seen code : Nat} {range : ByteRange} {tail : List ByteRange}
    {bytes rest : List UInt8} (h : follow bits seen (range :: tail) bytes = .ok (code, rest)) :
    ∃ byte more, bytes = byte :: more ∧ range.covers byte = true ∧
      follow (bits * 64 + byte.toNat % 64) (seen + 1) tail more = .ok (code, rest) := by
  cases bytes with
  | nil => cases h
  | cons byte more =>
    simp only [follow] at h
    split at h
    next hc => exact ⟨byte, more, rfl, hc, h⟩
    next => cases h

theorem follow_nil_eq_ok {bits seen code : Nat} {bytes rest : List UInt8}
    (h : follow bits seen [] bytes = .ok (code, rest)) : code = bits ∧ rest = bytes := by
  simp only [follow, Except.ok.injEq, Prod.mk.injEq] at h
  exact ⟨h.1.symm, h.2.symm⟩

theorem eq_ofNat_of_toNat {byte : UInt8} {n : Nat} (h : byte.toNat = n) : byte = UInt8.ofNat n := by
  rw [← h, UInt8.ofNat_toNat]

/-- One byte: the code point is the byte. -/
theorem utf8EncodeChar_of_one {lead : UInt8} (h : lead.toNat ≤ 127) :
    String.utf8EncodeChar (Char.ofNat lead.toNat) = [lead] := by
  rw [utf8EncodeChar_ofNat (Or.inl (by omega)), if_pos h, UInt8.ofNat_toNat]

/-- Two bytes: five bits and six. -/
theorem utf8EncodeChar_of_two {a b : UInt8} (ha : 194 ≤ a.toNat) (ha' : a.toNat ≤ 223)
    (hb : 128 ≤ b.toNat) (hb' : b.toNat ≤ 191) :
    String.utf8EncodeChar (Char.ofNat (a.toNat % 32 * 64 + b.toNat % 64)) = [a, b] := by
  rw [utf8EncodeChar_ofNat (Or.inl (by omega)), if_neg (by omega), if_pos (by omega),
    ← eq_ofNat_of_toNat (show a.toNat = _ by omega), ← eq_ofNat_of_toNat (show b.toNat = _ by omega)]

/-- Three bytes: four bits, six and six. The conditions on the second byte keep the value from 2048 on and out of the
surrogates. -/
theorem utf8EncodeChar_of_three {a b c : UInt8} (ha : 224 ≤ a.toNat) (ha' : a.toNat ≤ 239)
    (hb : 128 ≤ b.toNat) (hb' : b.toNat ≤ 191) (hc : 128 ≤ c.toNat) (hc' : c.toNat ≤ 191)
    (hlow : a.toNat = 224 → 160 ≤ b.toNat) (hhigh : a.toNat = 237 → b.toNat ≤ 159) :
    String.utf8EncodeChar (Char.ofNat ((a.toNat % 16 * 64 + b.toNat % 64) * 64 + c.toNat % 64)) = [a, b, c] := by
  have hvalid : ((a.toNat % 16 * 64 + b.toNat % 64) * 64 + c.toNat % 64).isValidChar := by
    simp only [Nat.isValidChar]
    omega
  rw [utf8EncodeChar_ofNat hvalid, if_neg (by omega), if_neg (by omega), if_pos (by omega),
    ← eq_ofNat_of_toNat (show a.toNat = _ by omega), ← eq_ofNat_of_toNat (show b.toNat = _ by omega),
    ← eq_ofNat_of_toNat (show c.toNat = _ by omega)]

/-- Four bytes: three bits, six, six and six. The conditions on the second byte keep the value from 65536 on and at
most 1114111. -/
theorem utf8EncodeChar_of_four {a b c d : UInt8} (ha : 240 ≤ a.toNat) (ha' : a.toNat ≤ 244)
    (hb : 128 ≤ b.toNat) (hb' : b.toNat ≤ 191) (hc : 128 ≤ c.toNat) (hc' : c.toNat ≤ 191)
    (hd : 128 ≤ d.toNat) (hd' : d.toNat ≤ 191)
    (hlow : a.toNat = 240 → 144 ≤ b.toNat) (hhigh : a.toNat = 244 → b.toNat ≤ 143) :
    String.utf8EncodeChar
        (Char.ofNat (((a.toNat % 8 * 64 + b.toNat % 64) * 64 + c.toNat % 64) * 64 + d.toNat % 64)) = [a, b, c, d] := by
  have hvalid : (((a.toNat % 8 * 64 + b.toNat % 64) * 64 + c.toNat % 64) * 64 + d.toNat % 64).isValidChar := by
    simp only [Nat.isValidChar]
    omega
  rw [utf8EncodeChar_ofNat hvalid, if_neg (by omega), if_neg (by omega), if_neg (by omega),
    ← eq_ofNat_of_toNat (show a.toNat = _ by omega), ← eq_ofNat_of_toNat (show b.toNat = _ by omega),
    ← eq_ofNat_of_toNat (show c.toNat = _ by omega), ← eq_ofNat_of_toNat (show d.toNat = _ by omega)]

/-- The lead bytes by class: what each announces, and where the byte lies. -/
theorem lead?_eq_some {byte : UInt8} {lead : Lead} (h : lead? byte = some lead) :
    (byte.toNat ≤ 127 ∧ lead = ⟨byte.toNat, []⟩) ∨
    (194 ≤ byte.toNat ∧ byte.toNat ≤ 223 ∧ lead = ⟨byte.toNat % 32, [continuation]⟩) ∨
    (∃ low high, 224 ≤ byte.toNat ∧ byte.toNat ≤ 239 ∧ lead = ⟨byte.toNat % 16, [⟨low, high⟩, continuation]⟩ ∧
      128 ≤ low.toNat ∧ high.toNat ≤ 191 ∧ (byte.toNat = 224 → 160 ≤ low.toNat) ∧
      (byte.toNat = 237 → high.toNat ≤ 159)) ∨
    (∃ low high, 240 ≤ byte.toNat ∧ byte.toNat ≤ 244 ∧
      lead = ⟨byte.toNat % 8, [⟨low, high⟩, continuation, continuation]⟩ ∧
      128 ≤ low.toNat ∧ high.toNat ≤ 191 ∧ (byte.toNat = 240 → 144 ≤ low.toNat) ∧
      (byte.toNat = 244 → high.toNat ≤ 143)) := by
  simp only [lead?, UInt8.le_iff_toNat_le, ← UInt8.toNat_inj] at h
  simp only [UInt8.reduceToNat] at h
  split at h
  next h1 => cases h; exact .inl ⟨h1, rfl⟩
  split at h
  next => cases h
  split at h
  next h2 h3 => cases h; exact .inr (.inl ⟨by omega, h3, rfl⟩)
  split at h
  next h4 =>
    cases h
    exact .inr (.inr (.inl ⟨0xA0, 0xBF, by omega, by omega, by rw [h4],
      by decide, by decide, fun _ => by decide, by omega⟩))
  split at h
  next h5 =>
    cases h
    exact .inr (.inr (.inl ⟨0x80, 0x9F, by omega, by omega, by rw [h5],
      by decide, by decide, by omega, fun _ => by decide⟩))
  split at h
  next h6 =>
    cases h
    exact .inr (.inr (.inl ⟨0x80, 0xBF, by omega, by omega, rfl, by decide, by decide, by omega, by omega⟩))
  split at h
  next h7 =>
    cases h
    exact .inr (.inr (.inr ⟨0x90, 0xBF, by omega, by omega, by rw [h7],
      by decide, by decide, fun _ => by decide, by omega⟩))
  split at h
  next h8 =>
    cases h
    exact .inr (.inr (.inr ⟨0x80, 0xBF, by omega, by omega, rfl, by decide, by decide, by omega, by omega⟩))
  split at h
  next h9 =>
    cases h
    exact .inr (.inr (.inr ⟨0x80, 0x8F, by omega, by omega, by rw [h9],
      by decide, by decide, by omega, fun _ => by decide⟩))
  next => cases h

/-- What is decoded from the front of the input encodes to the bytes that were read. -/
theorem encode_of_decodeChar {byte : UInt8} {bytes rest : List UInt8} {ch : Char}
    (h : decodeChar byte bytes = .ok (ch, rest)) : byte :: bytes = String.utf8EncodeChar ch ++ rest := by
  simp only [decodeChar] at h
  split at h
  next => cases h
  next lead hlead =>
    split at h
    next code rest' hfollow =>
      simp only [Except.ok.injEq, Prod.mk.injEq] at h
      obtain ⟨rfl, rfl⟩ := h
      rcases lead?_eq_some hlead with ⟨h1, rfl⟩ | ⟨h1, h2, rfl⟩ | ⟨low, high, h1, h2, rfl, h3, h4, h5, h6⟩ |
        ⟨low, high, h1, h2, rfl, h3, h4, h5, h6⟩
      · obtain ⟨rfl, rfl⟩ := follow_nil_eq_ok hfollow
        rw [utf8EncodeChar_of_one h1]
        rfl
      · obtain ⟨b, more, rfl, hb, hfollow⟩ := follow_cons_eq_ok hfollow
        obtain ⟨rfl, rfl⟩ := follow_nil_eq_ok hfollow
        rw [ByteRange.covers_continuation] at hb
        rw [utf8EncodeChar_of_two h1 h2 hb.1 hb.2]
        rfl
      · obtain ⟨b, more, rfl, hb, hfollow⟩ := follow_cons_eq_ok hfollow
        obtain ⟨c, more, rfl, hc, hfollow⟩ := follow_cons_eq_ok hfollow
        obtain ⟨rfl, rfl⟩ := follow_nil_eq_ok hfollow
        rw [ByteRange.covers_continuation] at hc
        simp only [ByteRange.covers_iff] at hb
        rw [utf8EncodeChar_of_three h1 h2 (by omega) (by omega) hc.1 hc.2 (by omega) (by omega)]
        rfl
      · obtain ⟨b, more, rfl, hb, hfollow⟩ := follow_cons_eq_ok hfollow
        obtain ⟨c, more, rfl, hc, hfollow⟩ := follow_cons_eq_ok hfollow
        obtain ⟨d, more, rfl, hd, hfollow⟩ := follow_cons_eq_ok hfollow
        obtain ⟨rfl, rfl⟩ := follow_nil_eq_ok hfollow
        rw [ByteRange.covers_continuation] at hc hd
        simp only [ByteRange.covers_iff] at hb
        rw [utf8EncodeChar_of_four h1 h2 (by omega) (by omega) hc.1 hc.2 hd.1 hd.2 (by omega) (by omega)]
        rfl
    next => cases h

theorem length_lt_of_decodeChar {byte : UInt8} {bytes rest : List UInt8} {ch : Char}
    (h : decodeChar byte bytes = .ok (ch, rest)) : rest.length < (byte :: bytes).length := by
  have := ch.utf8Size_pos
  rw [encode_of_decodeChar h, List.length_append, String.length_utf8EncodeChar]
  omega

/-- Decodes the bytes that follow `valid` good ones. -/
def decodeFrom (valid : Nat) (bytes : List UInt8) : Except DecodeError (List Char) :=
  match bytes with
  | [] => .ok []
  | byte :: rest =>
    match _h : decodeChar byte rest with
    | .ok (ch, rest') => (decodeFrom (valid + ch.utf8Size) rest').map (ch :: ·)
    | .error fault => .error ⟨valid, fault⟩
termination_by bytes.length
decreasing_by exact length_lt_of_decodeChar _h

/-- The characters that the bytes encode, or the place and the kind of the first fault. -/
def decode (bytes : List UInt8) : Except DecodeError (List Char) :=
  decodeFrom 0 bytes

theorem encode_eq_of_decodeFrom {valid : Nat} {bytes : List UInt8} {cs : List Char}
    (h : decodeFrom valid bytes = .ok cs) : encode cs = bytes := by
  fun_induction decodeFrom valid bytes generalizing cs with
  | case1 =>
    cases h
    rfl
  | case2 valid byte rest ch rest' hchar ih =>
    cases htail : decodeFrom (valid + ch.utf8Size) rest' with
    | error e =>
      rw [htail] at h
      cases h
    | ok tail =>
      rw [htail] at h
      cases h
      rw [encode_cons, ih htail, encode_of_decodeChar hchar]
  | case3 => cases h

/-- Decoding loses nothing: the characters encode to the bytes they came from. -/
theorem encode_eq_of_decode {bytes : List UInt8} {cs : List Char} (h : decode bytes = .ok cs) : encode cs = bytes :=
  encode_eq_of_decodeFrom h

end TextCursor.Utf8
