import Mathlib.Data.Finset.Card
import Mathlib.Data.Finset.Dedup
import TextCursor.CharTest

/-!
# A set and the characters inserted into it

A set keeps its ASCII members as bits and the others as a list. Here both are tied to the sequence of characters that
were inserted into it: the bits are the ASCII characters among them, the list has the others, each once, by the place
where it first occurs. One insertion keeps this up (`CharSet.Follows.insert`), so every sequence of insertions does
(`CharSet.follows_ofList`), and all that can be asked of a set has its answer in the sequence
(`CharSet.Follows.represents`).

The list remembers an order that membership does not show. Two sets are equal if they have the same members and those
outside ASCII were first inserted in the same order (`CharSet.Follows.eq_iff`).
-/

set_option autoImplicit false

namespace TextCursor.CharSet

/-- What a set keeps of the characters inserted into it. -/
structure Follows (s : CharSet) (inserted : List Char) : Prop where
  contains_iff : ∀ ch, s.contains ch = true ↔ ch ∈ inserted
  mem_other_iff : ∀ ch, ch ∈ s.other ↔ ch ∈ inserted ∧ 128 ≤ ch.toNat
  other_ordered : s.other.Pairwise fun a b => inserted.idxOf a < inserted.idxOf b

/-- The characters outside ASCII occur for the first time in the same order in both lists. -/
def WideAlike (inserted others : List Char) : Prop :=
  ∀ a ∈ inserted, ∀ b ∈ inserted, 128 ≤ a.toNat → 128 ≤ b.toNat →
    (inserted.idxOf a < inserted.idxOf b ↔ others.idxOf a < others.idxOf b)

/-- What can be seen of a set, by the characters inserted into it. -/
structure Represents (s : CharSet) (inserted : List Char) : Prop where
  contains_iff : ∀ ch, s.contains ch = true ↔ ch ∈ inserted
  ask_eq : ∀ ch, (CharTest.ofSet s).ask ch = ⟨decide (ch ∈ inserted), []⟩
  size_eq : s.size = inserted.toFinset.card
  isEmpty_iff : s.isEmpty = true ↔ inserted = []
  bit_iff : ∀ code < 128, s.ascii.getLsbD code = true ↔ ∃ ch ∈ inserted, ch.toNat = code
  mem_other_iff : ∀ ch, ch ∈ s.other ↔ ch ∈ inserted ∧ 128 ≤ ch.toNat
  nodup_other : s.other.Nodup
  other_ordered : s.other.Pairwise fun a b => inserted.idxOf a < inserted.idxOf b
  insert_eq : ∀ ch ∈ inserted, s.insert ch = s

theorem toNat_ofNat_of_ascii {code : Nat} (h : code < 128) : (Char.ofNat code).toNat = code := by
  have hvalid : code.isValidChar := Or.inl (by omega)
  rw [Char.ofNat, dif_pos hvalid]
  rfl

/-- Asking for an ASCII character is reading its bit. -/
theorem contains_ofNat (s : CharSet) {code : Nat} (h : code < 128) :
    s.contains (Char.ofNat code) = s.ascii.getLsbD code := by
  have hcode := toNat_ofNat_of_ascii h
  have hslot : slot? (Char.ofNat code) = some ⟨(Char.ofNat code).toNat, by omega⟩ := slot?_eq_some (by omega)
  rw [contains, hslot]
  simp only [hcode]

/-- A member is not added again, in neither part. -/
theorem insert_of_contains {s : CharSet} {ch : Char} (h : s.contains ch = true) : s.insert ch = s := by
  unfold contains at h
  unfold insert
  cases hslot : slot? ch with
  | some n =>
    simp only [hslot] at h
    have hbits : s.ascii ||| BitVec.twoPow 128 n = s.ascii := by
      apply BitVec.eq_of_getLsbD_eq
      intro i hi
      by_cases heq : n.val = i
      · subst heq
        simp [h]
      · simp [heq]
    simp only [hbits]
  | none =>
    simp only [hslot] at h
    simp only [h, if_true]

theorem other_insert_of_ascii (s : CharSet) {ch : Char} (h : ch.toNat < 128) : (s.insert ch).other = s.other := by
  simp [insert, slot?_eq_some h]

theorem other_insert_of_new {s : CharSet} {ch : Char} (h : 128 ≤ ch.toNat) (hnew : s.contains ch = false) :
    (s.insert ch).other = s.other ++ [ch] := by
  simp only [contains, slot?_eq_none h] at hnew
  simp only [insert, slot?_eq_none h, hnew]
  rfl

/-- The codes of the members in ASCII: the bits that are set. -/
def codes (s : CharSet) : List Nat :=
  (List.range 128).filter (s.ascii.getLsbD ·)

theorem mem_codes_iff {s : CharSet} {code : Nat} : code ∈ s.codes ↔ code < 128 ∧ s.ascii.getLsbD code = true := by
  simp [codes]

/-- The members: those of ASCII by code, then the others in the order in which they stand in the list. -/
def members (s : CharSet) : List Char :=
  s.codes.map Char.ofNat ++ s.other

/-- The size counts the bits that are set and the characters of the list. -/
theorem length_members (s : CharSet) : s.members.length = s.size := by
  simp [members, codes, size, List.countP_eq_length_filter]

namespace Follows

variable {s u : CharSet} {inserted others : List Char} {ch : Char}

theorem empty : CharSet.empty.Follows [] where
  contains_iff ch := by simp
  mem_other_iff ch := by simp [CharSet.empty]
  other_ordered := List.Pairwise.nil

theorem contains_eq_false (h : s.Follows inserted) (hnew : ch ∉ inserted) : s.contains ch = false := by
  rw [Bool.eq_false_iff]
  exact mt (h.contains_iff ch).1 hnew

/-- What comes later does not move the place where a character first occurs. -/
theorem other_ordered_append (h : s.Follows inserted) (later : List Char) :
    s.other.Pairwise fun a b => (inserted ++ later).idxOf a < (inserted ++ later).idxOf b := by
  apply h.other_ordered.imp_of_mem
  intro a b ha hb hlt
  rw [List.idxOf_append_of_mem ((h.mem_other_iff a).1 ha).1, List.idxOf_append_of_mem ((h.mem_other_iff b).1 hb).1]
  exact hlt

/-- One insertion. Only a character outside ASCII that is new makes the list longer, and it then stands last in both. -/
theorem insert (h : s.Follows inserted) (ch : Char) : (s.insert ch).Follows (inserted ++ [ch]) where
  contains_iff x := by
    rw [contains_insert, Bool.or_eq_true, beq_iff_eq, h.contains_iff, List.mem_append, List.mem_singleton, or_comm]
  mem_other_iff x := by
    by_cases hmem : ch ∈ inserted
    · rw [insert_of_contains ((h.contains_iff ch).2 hmem), h.mem_other_iff]
      grind
    · rcases Nat.lt_or_ge ch.toNat 128 with hascii | hwide
      · rw [other_insert_of_ascii s hascii, h.mem_other_iff]
        grind
      · rw [other_insert_of_new hwide (h.contains_eq_false hmem), List.mem_append, h.mem_other_iff]
        grind
  other_ordered := by
    have hkept := h.other_ordered_append [ch]
    by_cases hmem : ch ∈ inserted
    · rwa [insert_of_contains ((h.contains_iff ch).2 hmem)]
    · rcases Nat.lt_or_ge ch.toNat 128 with hascii | hwide
      · rwa [other_insert_of_ascii s hascii]
      · rw [other_insert_of_new hwide (h.contains_eq_false hmem), List.pairwise_append]
        refine ⟨hkept, List.pairwise_singleton _ _, ?_⟩
        intro a ha b hb
        obtain rfl := List.mem_singleton.1 hb
        have hearlier := ((h.mem_other_iff a).1 ha).1
        rw [List.idxOf_append_of_mem hearlier, List.idxOf_append_of_notMem hmem]
        exact Nat.lt_of_lt_of_le (List.idxOf_lt_length_of_mem hearlier) (Nat.le_add_right _ _)

/-- A run of insertions. -/
theorem foldl_insert (h : s.Follows inserted) (cs : List Char) :
    (cs.foldl CharSet.insert s).Follows (inserted ++ cs) := by
  induction cs generalizing s inserted with
  | nil => rwa [List.append_nil]
  | cons ch cs ih =>
    have hrest := ih (h.insert ch)
    rwa [List.append_assoc] at hrest

theorem nodup_other (h : s.Follows inserted) : s.other.Nodup := by
  apply h.other_ordered.imp
  intro a b hlt heq
  rw [heq] at hlt
  exact Nat.lt_irrefl _ hlt

theorem bit_iff (h : s.Follows inserted) {code : Nat} (hcode : code < 128) :
    s.ascii.getLsbD code = true ↔ ∃ ch ∈ inserted, ch.toNat = code := by
  rw [← s.contains_ofNat hcode, h.contains_iff]
  constructor
  · intro hmem
    exact ⟨_, hmem, toNat_ofNat_of_ascii hcode⟩
  · rintro ⟨ch, hmem, rfl⟩
    rwa [Char.ofNat_toNat]

theorem mem_members_iff (h : s.Follows inserted) : ch ∈ s.members ↔ ch ∈ inserted := by
  simp only [members, List.mem_append, List.mem_map, mem_codes_iff, h.mem_other_iff]
  constructor
  · rintro (⟨code, ⟨hcode, hbit⟩, rfl⟩ | ⟨hmem, -⟩)
    · rwa [← s.contains_ofNat hcode, h.contains_iff] at hbit
    · exact hmem
  · intro hmem
    rcases Nat.lt_or_ge ch.toNat 128 with hascii | hwide
    · exact .inl ⟨ch.toNat, ⟨hascii, (h.bit_iff hascii).2 ⟨ch, hmem, rfl⟩⟩, Char.ofNat_toNat ch⟩
    · exact .inr ⟨hmem, hwide⟩

/-- No member stands in both parts, and none twice in one of them. -/
theorem nodup_members (h : s.Follows inserted) : s.members.Nodup := by
  refine List.nodup_append.2 ⟨?_, h.nodup_other, ?_⟩
  · apply (List.nodup_range.filter _).map_on
    intro m hm n hn heq
    rw [← toNat_ofNat_of_ascii (mem_codes_iff.1 hm).1, ← toNat_ofNat_of_ascii (mem_codes_iff.1 hn).1, heq]
  · rintro a ha b hb rfl
    obtain ⟨code, hcode, rfl⟩ := List.mem_map.1 ha
    have hascii := (mem_codes_iff.1 hcode).1
    have hwide := ((h.mem_other_iff _).1 hb).2
    rw [toNat_ofNat_of_ascii hascii] at hwide
    omega

/-- The members are as many as the distinct characters inserted. -/
theorem size_eq (h : s.Follows inserted) : s.size = inserted.toFinset.card := by
  have hsame : s.members.toFinset = inserted.toFinset := by
    ext ch
    rw [List.mem_toFinset, List.mem_toFinset, h.mem_members_iff]
  rw [← s.length_members, ← List.toFinset_card_of_nodup h.nodup_members, hsame]

theorem isEmpty_iff (h : s.Follows inserted) : s.isEmpty = true ↔ inserted = [] := by
  rw [isEmpty, Bool.and_eq_true, beq_iff_eq, List.isEmpty_iff]
  constructor
  · rintro ⟨hascii, hother⟩
    apply List.eq_nil_iff_forall_not_mem.2
    intro ch hmem
    rw [← h.mem_members_iff] at hmem
    simp [members, codes, hascii, hother] at hmem
  · rintro rfl
    refine ⟨?_, ?_⟩
    · apply BitVec.eq_of_getLsbD_eq
      intro code hcode
      have hbit := h.bit_iff hcode
      simpa using hbit
    · apply List.eq_nil_iff_forall_not_mem.2
      intro ch hmem
      exact List.not_mem_nil ((h.mem_other_iff ch).1 hmem).1

theorem represents (h : s.Follows inserted) : s.Represents inserted where
  contains_iff := h.contains_iff
  ask_eq ch := by rw [CharTest.ofSet, CharTest.ask, Bool.eq_iff_iff.2 ((h.contains_iff ch).trans decide_eq_true_iff.symm)]
  size_eq := h.size_eq
  isEmpty_iff := h.isEmpty_iff
  bit_iff _ hcode := h.bit_iff hcode
  mem_other_iff := h.mem_other_iff
  nodup_other := h.nodup_other
  other_ordered := h.other_ordered
  insert_eq ch hmem := insert_of_contains ((h.contains_iff ch).2 hmem)

/-- The bits of ASCII show membership only. -/
theorem ascii_eq (h : s.Follows inserted) (hu : u.Follows others) (hsame : ∀ ch, ch ∈ inserted ↔ ch ∈ others) :
    s.ascii = u.ascii := by
  apply BitVec.eq_of_getLsbD_eq
  intro code hcode
  rw [Bool.eq_iff_iff, h.bit_iff hcode, hu.bit_iff hcode]
  simp only [hsame]

/-- The list shows the order of first occurrence as well. -/
theorem other_eq (h : s.Follows inserted) (hu : u.Follows others) (hsame : ∀ ch, ch ∈ inserted ↔ ch ∈ others)
    (halike : WideAlike inserted others) : s.other = u.other := by
  have hmem (ch : Char) : ch ∈ s.other ↔ ch ∈ u.other := by rw [h.mem_other_iff, hu.mem_other_iff, hsame]
  have hordered : u.other.Pairwise fun a b => inserted.idxOf a < inserted.idxOf b := by
    apply hu.other_ordered.imp_of_mem
    intro a b ha hb hlt
    obtain ⟨hain, hawide⟩ := (h.mem_other_iff a).1 ((hmem a).2 ha)
    obtain ⟨hbin, hbwide⟩ := (h.mem_other_iff b).1 ((hmem b).2 hb)
    exact (halike a hain b hbin hawide hbwide).2 hlt
  have hperm : s.other.Perm u.other := (List.perm_ext_iff_of_nodup h.nodup_other hu.nodup_other).2 hmem
  apply hperm.eq_of_pairwise _ h.other_ordered hordered
  intro a b _ _ hlt hgt
  exact absurd hgt (Nat.lt_asymm hlt)

/-- One list cannot be in the order of two sequences unless they agree on it. -/
theorem wideAlike (h : s.Follows inserted) (hs : s.Follows others) : WideAlike inserted others := by
  have hboth := h.other_ordered.and hs.other_ordered
  have hforth : s.other.Pairwise fun a b =>
      (inserted.idxOf a < inserted.idxOf b ↔ others.idxOf a < others.idxOf b) := by
    apply hboth.imp
    intro a b hlt
    omega
  have hback : s.other.Pairwise fun a b =>
      (inserted.idxOf b < inserted.idxOf a ↔ others.idxOf b < others.idxOf a) := by
    apply hboth.imp
    intro a b hlt
    omega
  intro a ha b hb hawide hbwide
  exact hforth.forall_of_forall_of_flip (fun _ _ => by simp only [Nat.lt_irrefl]) hback
    ((h.mem_other_iff a).2 ⟨ha, hawide⟩) ((h.mem_other_iff b).2 ⟨hb, hbwide⟩)

theorem sameMembers_iff (h : s.Follows inserted) (hu : u.Follows others) :
    (∀ ch, s.contains ch = u.contains ch) ↔ ∀ ch, ch ∈ inserted ↔ ch ∈ others := by
  apply forall_congr'
  intro ch
  rw [Bool.eq_iff_iff, h.contains_iff, hu.contains_iff]

/-- Two sets are equal if membership and the order of the members outside ASCII are the same. -/
theorem eq_iff (h : s.Follows inserted) (hu : u.Follows others) :
    s = u ↔ (∀ ch, s.contains ch = u.contains ch) ∧ WideAlike inserted others := by
  constructor
  · rintro rfl
    exact ⟨fun _ => rfl, h.wideAlike hu⟩
  · rintro ⟨hcontains, halike⟩
    have hsame := (h.sameMembers_iff hu).1 hcontains
    rw [CharSet.mk.injEq]
    exact ⟨h.ascii_eq hu hsame, h.other_eq hu hsame halike⟩

end Follows

theorem follows_ofList (cs : List Char) : (ofList cs).Follows cs :=
  Follows.empty.foldl_insert cs

/-- Inserting one more character is listing it last. -/
theorem insert_ofList (cs : List Char) (ch : Char) : (ofList cs).insert ch = ofList (cs ++ [ch]) := by
  simp [ofList]

end TextCursor.CharSet
