import TextCursor.Proofs.Utf8.Occurrence

/-!
# Valid bytes

Which bytes decode, and what a refusal says of those that do not.

The table of lead bytes is exact. The encoding of every character agrees with it (`announced_encodeChar`), and what
begins as the table allows can be completed to the encoding of a character (`beginsChar_cons_iff`). So `decode` reads
every encoding (`decode_encode`). If it refuses the bytes, the offset in the refusal is the length of the longest prefix
that is an encoding, and the fault tells whether the bytes after it are cut short, and otherwise how many of them begin
a character (`refusal_of_decode`).
-/

set_option autoImplicit false

namespace TextCursor.Utf8

/-- The bytes are the encoding of some characters. -/
def IsEncoding (bytes : List UInt8) : Prop :=
  ∃ cs, encode cs = bytes

/-- The bytes are a prefix of the encoding of some character, or all of it. -/
def BeginsChar (bytes : List UInt8) : Prop :=
  ∃ ch, bytes <+: String.utf8EncodeChar ch

/-- The bytes are a prefix of the encoding of some character, and not all of it. -/
def TruncatesChar (bytes : List UInt8) : Prop :=
  ∃ ch, bytes <+: String.utf8EncodeChar ch ∧ bytes ≠ String.utf8EncodeChar ch

/-- The prefix of `n` bytes has the property, and no longer one has. -/
structure LongestPrefix (P : List UInt8 → Prop) (bytes : List UInt8) (n : Nat) : Prop where
  le_length : n ≤ bytes.length
  holds : P (bytes.take n)
  longest : ∀ m, m ≤ bytes.length → P (bytes.take m) → m ≤ n

theorem BeginsChar.nil : BeginsChar [] :=
  ⟨'a', List.nil_prefix⟩

/-! ### Walking along the ranges -/

/-- How many bytes are admitted, each by its own range, before the first that is not. -/
def admitted : List ByteRange → List UInt8 → Nat
  | range :: tail, byte :: rest => if range.covers byte then admitted tail rest + 1 else 0
  | _, _ => 0

@[simp] theorem admitted_nil_left (bytes : List UInt8) : admitted [] bytes = 0 := rfl

@[simp] theorem admitted_nil_right (ranges : List ByteRange) : admitted ranges [] = 0 := by
  cases ranges <;> rfl

theorem admitted_le_left (ranges : List ByteRange) (bytes : List UInt8) :
    admitted ranges bytes ≤ ranges.length := by
  fun_induction admitted ranges bytes with
  | case1 range tail byte rest hcovers ih => simpa using ih
  | case2 => exact Nat.zero_le _
  | case3 => exact Nat.zero_le _

theorem admitted_take (ranges : List ByteRange) (bytes : List UInt8) (m : Nat) :
    admitted ranges (bytes.take m) = min m (admitted ranges bytes) := by
  fun_induction admitted ranges bytes generalizing m with
  | case1 range tail byte rest hcovers ih =>
    cases m with
    | zero => simp
    | succ m => simp [admitted, hcovers, ih]
  | case2 range tail byte rest hcovers => cases m <;> simp [admitted, hcovers]
  | case3 ranges bytes hshort =>
    cases ranges with
    | nil => simp
    | cons range tail =>
      cases bytes with
      | nil => simp
      | cons byte rest => exact absurd rfl (hshort range tail byte rest rfl)

theorem admitted_le_right (ranges : List ByteRange) (bytes : List UInt8) :
    admitted ranges bytes ≤ bytes.length := by
  have htake := admitted_take ranges bytes bytes.length
  rw [List.take_length] at htake
  omega

theorem admitted_append_of_full {ranges : List ByteRange} {bytes : List UInt8} (rest : List UInt8)
    (h : admitted ranges bytes = ranges.length) : admitted ranges (bytes ++ rest) = ranges.length := by
  have hle := admitted_le_left ranges (bytes ++ rest)
  have htake := admitted_take ranges (bytes ++ rest) bytes.length
  rw [List.take_left, h] at htake
  omega

/-- If every range has a byte, what the ranges admit so far can be completed. -/
theorem exists_completion {ranges : List ByteRange} {bytes : List UInt8}
    (hranges : ∀ range ∈ ranges, range.covers range.low = true) (h : admitted ranges bytes = bytes.length) :
    ∃ more, (bytes ++ more).length = ranges.length ∧ admitted ranges (bytes ++ more) = ranges.length := by
  induction ranges generalizing bytes with
  | nil =>
    obtain rfl : bytes = [] := List.eq_nil_of_length_eq_zero h.symm
    exact ⟨[], rfl, rfl⟩
  | cons range tail ih =>
    have htail : ∀ other ∈ tail, other.covers other.low = true := fun other hmem => hranges other (.tail _ hmem)
    cases bytes with
    | nil =>
      have hnil : admitted tail [] = ([] : List UInt8).length := admitted_nil_right tail
      obtain ⟨more, hlength, hfull⟩ := ih htail hnil
      refine ⟨range.low :: more, ?_, ?_⟩
      · simpa using hlength
      · simpa [admitted, hranges range List.mem_cons_self] using hfull
    | cons byte rest =>
      by_cases hcovers : range.covers byte = true
      · have hrest : admitted tail rest = rest.length := by simpa [admitted, hcovers] using h
        obtain ⟨more, hlength, hfull⟩ := ih htail hrest
        refine ⟨more, ?_, ?_⟩
        · simpa using hlength
        · simpa [admitted, hcovers] using hfull
      · simp [admitted, hcovers] at h

/-- A walk that finds a byte for every range ends well. -/
theorem exists_follow_of_full {ranges : List ByteRange} {bytes : List UInt8} (bits seen : Nat)
    (h : admitted ranges bytes = ranges.length) :
    ∃ code, follow bits seen ranges bytes = .ok (code, bytes.drop ranges.length) := by
  induction ranges generalizing bits seen bytes with
  | nil => exact ⟨bits, rfl⟩
  | cons range tail ih =>
    cases bytes with
    | nil => simp at h
    | cons byte rest =>
      by_cases hcovers : range.covers byte = true
      · have hrest : admitted tail rest = tail.length := by simpa [admitted, hcovers] using h
        simpa [follow, hcovers] using ih (bits * 64 + byte.toNat % 64) (seen + 1) hrest
      · simp [admitted, hcovers] at h

/-- A walk that does not is a fault, at the end of the bytes or at the first that is not admitted. -/
theorem follow_of_short {ranges : List ByteRange} {bytes : List UInt8} (bits seen : Nat)
    (h : admitted ranges bytes < ranges.length) :
    follow bits seen ranges bytes =
      .error (if admitted ranges bytes = bytes.length then .incomplete else .invalid (seen + admitted ranges bytes)) := by
  induction ranges generalizing bits seen bytes with
  | nil => simp at h
  | cons range tail ih =>
    cases bytes with
    | nil => simp [follow]
    | cons byte rest =>
      by_cases hcovers : range.covers byte = true
      · have hrest : admitted tail rest < tail.length := by simpa [admitted, hcovers] using h
        have hseen : seen + 1 + admitted tail rest = seen + (admitted tail rest + 1) := by omega
        simp [follow, admitted, hcovers, ih _ _ hrest, hseen]
      · simp [follow, admitted, hcovers]

/-! ### The table of lead bytes -/

/-- At most three ranges are announced, and none of them is empty. -/
theorem tail_of_lead? {byte : UInt8} {lead : Lead} (h : lead? byte = some lead) :
    lead.tail.length ≤ 3 ∧ ∀ range ∈ lead.tail, range.covers range.low = true := by
  unfold lead? at h
  repeat' split at h
  all_goals cases h <;> simp [continuation, ByteRange.covers]

/-- The table read with numbers for bytes. -/
theorem lead?_eq (byte : UInt8) :
    lead? byte =
      if byte.toNat ≤ 127 then some ⟨byte.toNat, []⟩
      else if byte.toNat ≤ 193 then none
      else if byte.toNat ≤ 223 then some ⟨byte.toNat % 32, [continuation]⟩
      else if byte.toNat = 224 then some ⟨0, [⟨0xA0, 0xBF⟩, continuation]⟩
      else if byte.toNat = 237 then some ⟨13, [⟨0x80, 0x9F⟩, continuation]⟩
      else if byte.toNat ≤ 239 then some ⟨byte.toNat % 16, [continuation, continuation]⟩
      else if byte.toNat = 240 then some ⟨0, [⟨0x90, 0xBF⟩, continuation, continuation]⟩
      else if byte.toNat ≤ 243 then some ⟨byte.toNat % 8, [continuation, continuation, continuation]⟩
      else if byte.toNat = 244 then some ⟨4, [⟨0x80, 0x8F⟩, continuation, continuation]⟩
      else none := by
  simp only [lead?, UInt8.le_iff_toNat_le, ← UInt8.toNat_inj]
  rfl

/-- The bytes are a lead byte and all that it announces. -/
def Announced (bytes : List UInt8) : Prop :=
  ∃ byte lead tail, bytes = byte :: tail ∧ lead? byte = some lead ∧ tail.length = lead.tail.length ∧
    admitted lead.tail tail = lead.tail.length

theorem admitted_of_covers (range : ByteRange) (tail : List ByteRange) (rest : List UInt8) {byte : UInt8}
    (h : range.low.toNat ≤ byte.toNat ∧ byte.toNat ≤ range.high.toNat) :
    admitted (range :: tail) (byte :: rest) = admitted tail rest + 1 :=
  if_pos (ByteRange.covers_iff.2 h)

theorem announced_one {a : UInt8} (ha : a.toNat ≤ 127) : Announced [a] :=
  ⟨a, ⟨a.toNat, []⟩, [], rfl, by rw [lead?_eq, if_pos ha], rfl, rfl⟩

theorem announced_two {a b : UInt8} (ha : 194 ≤ a.toNat ∧ a.toNat ≤ 223) (hb : 128 ≤ b.toNat ∧ b.toNat ≤ 191) :
    Announced [a, b] := by
  refine ⟨a, ⟨a.toNat % 32, [continuation]⟩, [b], rfl, ?_, rfl, admitted_of_covers _ [] [] hb⟩
  rw [lead?_eq, if_neg (by omega), if_neg (by omega), if_pos (by omega)]

theorem announced_three {a b c : UInt8} (ha : 224 ≤ a.toNat ∧ a.toNat ≤ 239) (hb : 128 ≤ b.toNat ∧ b.toNat ≤ 191)
    (hc : 128 ≤ c.toNat ∧ c.toNat ≤ 191) (hlow : a.toNat = 224 → 160 ≤ b.toNat)
    (hhigh : a.toNat = 237 → b.toNat ≤ 159) : Announced [a, b, c] := by
  have hthird : admitted [continuation] [c] = 1 := admitted_of_covers _ [] [] hc
  have hall : ∀ range : ByteRange, range.low.toNat ≤ b.toNat ∧ b.toNat ≤ range.high.toNat →
      admitted [range, continuation] [b, c] = 2 := fun range hcovers => by
    rw [admitted_of_covers range _ _ hcovers, hthird]
  by_cases he0 : a.toNat = 224
  · refine ⟨a, ⟨0, [⟨0xA0, 0xBF⟩, continuation]⟩, [b, c], rfl, ?_, rfl, hall _ ⟨hlow he0, hb.2⟩⟩
    rw [lead?_eq, if_neg (by omega), if_neg (by omega), if_neg (by omega), if_pos he0]
  by_cases hed : a.toNat = 237
  · refine ⟨a, ⟨13, [⟨0x80, 0x9F⟩, continuation]⟩, [b, c], rfl, ?_, rfl, hall _ ⟨hb.1, hhigh hed⟩⟩
    rw [lead?_eq, if_neg (by omega), if_neg (by omega), if_neg (by omega), if_neg he0, if_pos hed]
  · refine ⟨a, ⟨a.toNat % 16, [continuation, continuation]⟩, [b, c], rfl, ?_, rfl, hall _ hb⟩
    rw [lead?_eq, if_neg (by omega), if_neg (by omega), if_neg (by omega), if_neg he0, if_neg hed, if_pos ha.2]

theorem announced_four {a b c d : UInt8} (ha : 240 ≤ a.toNat ∧ a.toNat ≤ 244)
    (hb : 128 ≤ b.toNat ∧ b.toNat ≤ 191) (hc : 128 ≤ c.toNat ∧ c.toNat ≤ 191)
    (hd : 128 ≤ d.toNat ∧ d.toNat ≤ 191) (hlow : a.toNat = 240 → 144 ≤ b.toNat)
    (hhigh : a.toNat = 244 → b.toNat ≤ 143) : Announced [a, b, c, d] := by
  have hthird : admitted [continuation, continuation] [c, d] = 2 := by
    rw [admitted_of_covers continuation _ _ hc, admitted_of_covers continuation _ _ hd]
    rfl
  have hall : ∀ range : ByteRange, range.low.toNat ≤ b.toNat ∧ b.toNat ≤ range.high.toNat →
      admitted [range, continuation, continuation] [b, c, d] = 3 := fun range hcovers => by
    rw [admitted_of_covers range _ _ hcovers, hthird]
  have hskip : ¬ a.toNat ≤ 239 := by omega
  by_cases hf0 : a.toNat = 240
  · refine ⟨a, ⟨0, [⟨0x90, 0xBF⟩, continuation, continuation]⟩, [b, c, d], rfl, ?_, rfl, hall _ ⟨hlow hf0, hb.2⟩⟩
    rw [lead?_eq, if_neg (by omega), if_neg (by omega), if_neg (by omega), if_neg (by omega), if_neg (by omega),
      if_neg hskip, if_pos hf0]
  by_cases hf4 : a.toNat = 244
  · refine ⟨a, ⟨4, [⟨0x80, 0x8F⟩, continuation, continuation]⟩, [b, c, d], rfl, ?_, rfl, hall _ ⟨hb.1, hhigh hf4⟩⟩
    rw [lead?_eq, if_neg (by omega), if_neg (by omega), if_neg (by omega), if_neg (by omega), if_neg (by omega),
      if_neg hskip, if_neg hf0, if_neg (by omega), if_pos hf4]
  · refine ⟨a, ⟨a.toNat % 8, [continuation, continuation, continuation]⟩, [b, c, d], rfl, ?_, rfl, hall _ hb⟩
    rw [lead?_eq, if_neg (by omega), if_neg (by omega), if_neg (by omega), if_neg (by omega), if_neg (by omega),
      if_neg hskip, if_neg hf0, if_pos (by omega)]

/-- The encoding of a character is a lead byte and all that it announces. -/
theorem announced_encodeChar (ch : Char) : Announced (String.utf8EncodeChar ch) := by
  have hvalid : ch.toNat.isValidChar := ch.valid
  have hencode := utf8EncodeChar_ofNat hvalid
  rw [Char.ofNat_toNat] at hencode
  rw [hencode]
  generalize ch.toNat = n at hvalid
  have htoNat : ∀ m < 256, (UInt8.ofNat m).toNat = m := fun m hm => by simp [Nat.mod_eq_of_lt hm]
  simp only [Nat.isValidChar] at hvalid
  split
  · exact announced_one (by rw [htoNat n (by omega)]; omega)
  split
  · have hlead := htoNat (n / 64 % 32 + 192) (by omega)
    have hlast := htoNat (n % 64 + 128) (by omega)
    exact announced_two (by omega) (by omega)
  split
  · have hlead := htoNat (n / 4096 % 16 + 224) (by omega)
    have hsecond := htoNat (n / 64 % 64 + 128) (by omega)
    have hlast := htoNat (n % 64 + 128) (by omega)
    exact announced_three (by omega) (by omega) (by omega) (by omega) (by omega)
  · have hlead := htoNat (n / 262144 % 8 + 240) (by omega)
    have hsecond := htoNat (n / 4096 % 64 + 128) (by omega)
    have hthird := htoNat (n / 64 % 64 + 128) (by omega)
    have hlast := htoNat (n % 64 + 128) (by omega)
    exact announced_four (by omega) (by omega) (by omega) (by omega) (by omega) (by omega)

/-! ### Where a character begins -/

/-- What decodes at the front of the bytes is the character whose encoding stands there. -/
theorem decodeChar_eq_ok_iff {byte : UInt8} {bytes rest : List UInt8} {ch : Char} :
    decodeChar byte bytes = .ok (ch, rest) ↔ byte :: bytes = String.utf8EncodeChar ch ++ rest := by
  refine ⟨encode_of_decodeChar, fun h => ?_⟩
  obtain ⟨first, lead, tail, hencode, hlead, hlength, hfull⟩ := announced_encodeChar ch
  rw [hencode, List.cons_append, List.cons.injEq] at h
  obtain ⟨rfl, rfl⟩ := h
  obtain ⟨code, hfollow⟩ := exists_follow_of_full lead.bits 1 (admitted_append_of_full rest hfull)
  have hdecode : decodeChar byte (tail ++ rest) = .ok (Char.ofNat code, (tail ++ rest).drop lead.tail.length) := by
    simp only [decodeChar, hlead, hfollow]
  -- it does not matter which code was collected: no other character's encoding begins like this one
  have hsame : String.utf8EncodeChar ch ++ rest =
      String.utf8EncodeChar (Char.ofNat code) ++ (tail ++ rest).drop lead.tail.length := by
    rw [hencode, List.cons_append, encode_of_decodeChar hdecode]
  obtain ⟨hch, hrest⟩ := encodeChar_append_inj hsame
  rw [hdecode, ← hch, ← hrest]

/-- A fault at the front of the bytes, by what the table says of them. -/
theorem fault_of_decodeChar {byte : UInt8} {rest : List UInt8} {fault : Fault}
    (h : decodeChar byte rest = .error fault) :
    (lead? byte = none ∧ fault = .invalid 1) ∨
    (∃ lead, lead? byte = some lead ∧ admitted lead.tail rest < lead.tail.length ∧
      fault = if admitted lead.tail rest = rest.length then .incomplete
        else .invalid (1 + admitted lead.tail rest)) := by
  cases hlead : lead? byte with
  | none =>
    simp only [decodeChar, hlead, Except.error.injEq] at h
    exact .inl ⟨rfl, h.symm⟩
  | some lead =>
    refine .inr ⟨lead, rfl, ?_⟩
    rcases Nat.lt_or_eq_of_le (admitted_le_left lead.tail rest) with hshort | hfull
    · simp only [decodeChar, hlead, follow_of_short lead.bits 1 hshort, Except.error.injEq] at h
      exact ⟨hshort, h.symm⟩
    · obtain ⟨code, hfollow⟩ := exists_follow_of_full lead.bits 1 hfull
      simp [decodeChar, hlead, hfollow] at h

/-- The bytes that begin a character are a lead byte and bytes that it admits. -/
theorem beginsChar_cons_iff {byte : UInt8} {rest : List UInt8} :
    BeginsChar (byte :: rest) ↔ ∃ lead, lead? byte = some lead ∧ admitted lead.tail rest = rest.length := by
  constructor
  · rintro ⟨ch, hprefix⟩
    obtain ⟨first, lead, tail, hencode, hlead, hlength, hfull⟩ := announced_encodeChar ch
    rw [hencode, List.cons_prefix_cons] at hprefix
    obtain ⟨rfl, hrest⟩ := hprefix
    refine ⟨lead, hlead, ?_⟩
    have hle := hrest.length_le
    rw [List.prefix_iff_eq_take.1 hrest, admitted_take, hfull, List.length_take]
    omega
  · rintro ⟨lead, hlead, hadmitted⟩
    obtain ⟨more, hlength, hfull⟩ := exists_completion (tail_of_lead? hlead).2 hadmitted
    obtain ⟨code, hfollow⟩ := exists_follow_of_full lead.bits 1 hfull
    rw [List.drop_of_length_le (Nat.le_of_eq hlength)] at hfollow
    have hdecode : decodeChar byte (rest ++ more) = .ok (Char.ofNat code, []) := by
      simp only [decodeChar, hlead, hfollow]
    have hencode := encode_of_decodeChar hdecode
    rw [List.append_nil] at hencode
    exact ⟨Char.ofNat code, more, hencode⟩

/-- A byte that is no lead byte does not begin a character. -/
theorem longestPrefix_of_stray {byte : UInt8} (hstray : lead? byte = none) (rest : List UInt8) :
    LongestPrefix BeginsChar (byte :: rest) 0 where
  le_length := Nat.zero_le _
  holds := BeginsChar.nil
  longest m _ hbegins := by
    cases m with
    | zero => exact Nat.le_refl 0
    | succ m =>
      obtain ⟨lead, hlead, -⟩ := beginsChar_cons_iff.1 hbegins
      rw [hstray] at hlead
      cases hlead

/-- A lead byte begins a character, together with the bytes that it admits. -/
theorem longestPrefix_of_lead {byte : UInt8} {lead : Lead} (hlead : lead? byte = some lead) (rest : List UInt8) :
    LongestPrefix BeginsChar (byte :: rest) (admitted lead.tail rest + 1) where
  le_length := Nat.succ_le_succ (admitted_le_right lead.tail rest)
  holds := by
    rw [List.take_succ_cons, beginsChar_cons_iff]
    refine ⟨lead, hlead, ?_⟩
    rw [admitted_take, List.length_take, Nat.min_self, Nat.min_eq_left (admitted_le_right lead.tail rest)]
  longest m hm hbegins := by
    cases m with
    | zero => exact Nat.zero_le _
    | succ m =>
      rw [List.take_succ_cons, beginsChar_cons_iff] at hbegins
      obtain ⟨other, hother, hadmitted⟩ := hbegins
      obtain rfl : lead = other := Option.some.inj (hlead.symm.trans hother)
      rw [admitted_take, List.length_take] at hadmitted
      rw [List.length_cons] at hm
      omega

/-- What a fault says of the bytes at which it was found. -/
structure Fault.Explains (fault : Fault) (bytes : List UInt8) : Prop where
  incomplete_iff : fault = .incomplete ↔ TruncatesChar bytes
  count_of_invalid : ∀ k, fault = .invalid k → ∃ m, LongestPrefix BeginsChar bytes m ∧ k = max 1 m ∧ k ≤ 3

/-- A fault tells whether the bytes are cut short, and otherwise how many of them begin a character. -/
theorem explains_of_decodeChar {byte : UInt8} {rest : List UInt8} {fault : Fault}
    (h : decodeChar byte rest = .error fault) : fault.Explains (byte :: rest) := by
  have hwhole : ∀ ch, byte :: rest ≠ String.utf8EncodeChar ch := fun ch heq => by
    have hok := decodeChar_eq_ok_iff.2 (heq.trans (List.append_nil _).symm)
    rw [h] at hok
    cases hok
  have htruncates : TruncatesChar (byte :: rest) ↔ BeginsChar (byte :: rest) :=
    ⟨fun ⟨ch, hprefix, _⟩ => ⟨ch, hprefix⟩, fun ⟨ch, hprefix⟩ => ⟨ch, hprefix, hwhole ch⟩⟩
  rcases fault_of_decodeChar h with ⟨hstray, rfl⟩ | ⟨lead, hlead, hshort, rfl⟩
  · refine ⟨?_, ?_⟩
    · rw [htruncates, beginsChar_cons_iff]
      simp [hstray]
    · rintro k ⟨⟩
      exact ⟨0, longestPrefix_of_stray hstray rest, rfl, by decide⟩
  · have htail := (tail_of_lead? hlead).1
    by_cases hend : admitted lead.tail rest = rest.length
    · rw [if_pos hend]
      refine ⟨?_, ?_⟩
      · exact iff_of_true rfl (htruncates.2 (beginsChar_cons_iff.2 ⟨lead, hlead, hend⟩))
      · exact nofun
    · rw [if_neg hend]
      refine ⟨?_, ?_⟩
      · rw [htruncates, beginsChar_cons_iff]
        simp [hlead, hend]
      · rintro k ⟨⟩
        exact ⟨_, longestPrefix_of_lead hlead rest, by omega, by omega⟩

/-- An overlong form is refused at its second byte, which is not counted. -/
example : decodeChar 0xE0 [0x80, 0xAF] = .error (.invalid 1) := by
  rfl

/-! ### All bytes -/

theorem decodeFrom_encode (valid : Nat) (cs : List Char) : decodeFrom valid (encode cs) = .ok cs := by
  induction cs generalizing valid with
  | nil => rw [encode_nil, decodeFrom]
  | cons ch cs ih =>
    obtain ⟨byte, lead, tail, hencode, -⟩ := announced_encodeChar ch
    have hbytes : encode (ch :: cs) = byte :: (tail ++ encode cs) := by rw [encode_cons, hencode]; rfl
    have hchar : decodeChar byte (tail ++ encode cs) = .ok (ch, encode cs) :=
      decodeChar_eq_ok_iff.2 (hbytes.symm.trans (encode_cons ch cs))
    rw [hbytes, decodeFrom]
    split
    next hread =>
      obtain ⟨rfl, rfl⟩ := Prod.mk.inj (Except.ok.inj (hread.symm.trans hchar))
      rw [ih]
      rfl
    next hread => cases hread.symm.trans hchar

/-- Encoded characters decode to themselves. -/
theorem decode_encode (cs : List Char) : decode (encode cs) = .ok cs :=
  decodeFrom_encode 0 cs

/-- A refusal stands behind characters, where the next bytes are not a character. -/
theorem parts_of_decodeFrom {valid : Nat} {bytes : List UInt8} {e : DecodeError}
    (h : decodeFrom valid bytes = .error e) :
    ∃ cs byte rest, bytes = encode cs ++ byte :: rest ∧ e.offset = valid + width cs ∧
      decodeChar byte rest = .error e.fault := by
  fun_induction decodeFrom valid bytes with
  | case1 => cases h
  | case2 valid byte rest ch rest' hchar ih =>
    cases htail : decodeFrom (valid + ch.utf8Size) rest' with
    | ok tail =>
      rw [htail] at h
      cases h
    | error other =>
      rw [htail] at h
      cases h
      obtain ⟨cs, next, more, hbytes, hoffset, hfault⟩ := ih htail
      refine ⟨ch :: cs, next, more, ?_, ?_, hfault⟩
      · rw [encode_of_decodeChar hchar, hbytes, encode_cons, List.append_assoc]
      · rw [hoffset, width_cons, Nat.add_assoc]
  | case3 valid byte rest fault hchar =>
    cases h
    exact ⟨[], byte, rest, rfl, rfl, hchar⟩

/-- Characters are the longest encoding in front of bytes that do not begin with another character. -/
theorem longestPrefix_of_fault {byte : UInt8} {rest : List UInt8} {fault : Fault}
    (h : decodeChar byte rest = .error fault) (cs : List Char) :
    LongestPrefix IsEncoding (encode cs ++ byte :: rest) (width cs) where
  le_length := by
    rw [List.length_append, length_encode]
    exact Nat.le_add_right _ _
  holds := ⟨cs, by rw [← length_encode, List.take_left]⟩
  longest m hm hencoding := by
    obtain ⟨ds, hds⟩ := hencoding
    have hdsPrefix : encode ds <+: encode cs ++ byte :: rest := hds ▸ List.take_prefix _ _
    have hwidth : width ds = m := by
      rw [← length_encode, hds, List.length_take, Nat.min_eq_left hm]
    by_cases hle : m ≤ width cs
    · exact hle
    · -- the longer encoding goes on with a character where there is none
      have hprefix : encode cs <+: encode ds :=
        List.prefix_of_prefix_length_le (List.prefix_append _ _) hdsPrefix (by simp only [length_encode]; omega)
      obtain ⟨more, rfl⟩ := encode_isPrefix_iff.1 hprefix
      rw [encode_append, List.prefix_append_right_inj] at hdsPrefix
      cases more with
      | nil => simp at hwidth; omega
      | cons ch more =>
        obtain ⟨behind, hbehind⟩ := hdsPrefix
        rw [encode_cons, List.append_assoc] at hbehind
        have hok := decodeChar_eq_ok_iff.2 hbehind.symm
        rw [h] at hok
        cases hok

/-- A refusal names the length of the longest prefix that is an encoding, and explains the bytes after it. -/
theorem refusal_of_decode {bytes : List UInt8} {e : DecodeError} (h : decode bytes = .error e) :
    LongestPrefix IsEncoding bytes e.offset ∧ e.fault.Explains (bytes.drop e.offset) := by
  obtain ⟨cs, byte, rest, rfl, hoffset, hfault⟩ := parts_of_decodeFrom h
  rw [Nat.zero_add] at hoffset
  rw [hoffset, ← length_encode cs, List.drop_left, length_encode]
  exact ⟨longestPrefix_of_fault hfault cs, explains_of_decodeChar hfault⟩

end TextCursor.Utf8
