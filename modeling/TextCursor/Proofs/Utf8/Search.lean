import Mathlib.Order.Bounds.Basic
import TextCursor.Utf8.Search

/-!
# What a search over bytes has to be

A search is asked for the least offset at which a byte, or a sequence of bytes, occurs. That fixes it: the searches that
compare at each offset in turn answer so, and any others that do are the same functions
(`ByteSearch.FindsLeast.eq_least`).
-/

set_option autoImplicit false

namespace TextCursor.Utf8

theorem isLeast_zero_iff {sequence bytes : List UInt8} {offset : Nat} (hfront : sequence <+: bytes) :
    IsLeast {n | sequence <+: bytes.drop n} offset ↔ 0 = offset := by
  have hzero : IsLeast {n | sequence <+: bytes.drop n} 0 := ⟨hfront, fun _ _ => Nat.zero_le _⟩
  exact ⟨hzero.unique, fun h => h ▸ hzero⟩

/-- Where the sequence does not stand at the front, every occurrence is one byte further than in the rest. -/
theorem isLeast_succ_iff {sequence bytes : List UInt8} {byte : UInt8} {offset : Nat}
    (hfront : ¬ sequence <+: byte :: bytes) :
    IsLeast {n | sequence <+: (byte :: bytes).drop n} offset ↔
      ∃ n, IsLeast {n | sequence <+: bytes.drop n} n ∧ n + 1 = offset := by
  constructor
  · rintro ⟨hoccurs, hleast⟩
    cases offset with
    | zero => exact absurd hoccurs hfront
    | succ n =>
      refine ⟨n, ⟨hoccurs, ?_⟩, rfl⟩
      intro m hm
      have hnext : m + 1 ∈ {k | sequence <+: (byte :: bytes).drop k} := hm
      exact Nat.le_of_succ_le_succ (hleast hnext)
  · rintro ⟨n, ⟨hoccurs, hleast⟩, rfl⟩
    refine ⟨hoccurs, ?_⟩
    intro m hm
    cases m with
    | zero => exact absurd hm hfront
    | succ m => exact Nat.succ_le_succ (hleast hm)

/-- Looking for a sequence by comparing at each offset in turn ends at the least one. -/
theorem findBytes?_eq_some_iff {sequence bytes : List UInt8} {offset : Nat} :
    findBytes? sequence bytes = some offset ↔ IsLeast {n | sequence <+: bytes.drop n} offset := by
  induction bytes generalizing offset with
  | nil =>
    rw [findBytes?]
    by_cases hempty : sequence = []
    · have hfront : sequence <+: [] := List.prefix_nil.2 hempty
      rw [if_pos (List.isEmpty_iff.2 hempty), isLeast_zero_iff hfront, Option.some_inj]
    · simp [hempty, IsLeast]
  | cons byte bytes ih =>
    rw [findBytes?]
    by_cases hfront : sequence <+: byte :: bytes
    · rw [if_pos (List.isPrefixOf_iff_prefix.2 hfront), isLeast_zero_iff hfront, Option.some_inj]
    · rw [if_neg (mt List.isPrefixOf_iff_prefix.1 hfront), Option.map_eq_some_iff, isLeast_succ_iff hfront]
      simp only [ih]

/-- The same for one byte. -/
theorem findByte?_eq_some_iff {byte : UInt8} {bytes : List UInt8} {offset : Nat} :
    findByte? byte bytes = some offset ↔ IsLeast {n | bytes[n]? = some byte} offset := by
  rw [findByte?_eq_findBytes?, findBytes?_eq_some_iff]
  simp only [List.singleton_prefix_iff_head?_eq_some, List.head?_drop]

namespace ByteSearch

/-- Both searches answer with the least offset of what they look for, and with none if it occurs nowhere. -/
structure FindsLeast (search : ByteSearch) : Prop where
  byte : ∀ byte bytes offset, search.byte? byte bytes = some offset ↔ IsLeast {n | bytes[n]? = some byte} offset
  bytes : ∀ sequence bytes offset,
    search.bytes? sequence bytes = some offset ↔ IsLeast {n | sequence <+: bytes.drop n} offset

theorem findsLeast_least : least.FindsLeast :=
  ⟨fun _ _ _ => findByte?_eq_some_iff, fun _ _ _ => findBytes?_eq_some_iff⟩

/-- The answers are fixed by what is asked, so there is one such pair of searches. -/
theorem FindsLeast.eq_least {search : ByteSearch} (h : search.FindsLeast) : search = least := by
  obtain ⟨byte?, bytes?⟩ := search
  have hbyte : byte? = findByte? := by
    funext byte bytes
    apply Option.ext
    intro offset
    rw [h.byte, findByte?_eq_some_iff]
  have hbytes : bytes? = findBytes? := by
    funext sequence bytes
    apply Option.ext
    intro offset
    rw [h.bytes, findBytes?_eq_some_iff]
  rw [hbyte, hbytes, least]

end ByteSearch

end TextCursor.Utf8
