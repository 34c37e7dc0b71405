import TextCursor.Offset
import TextCursor.Utf8.Basic

/-!
# Cutting characters at byte offsets

`splitAt?` cuts a list of characters at a byte offset. It answers only where the offset is a boundary, that is the
width of some leading part (`splitAt?_eq_some_iff`): offsets past the end and offsets inside a character have no cut.
`slice` and `sliceFrom` are the parts between two offsets; bad ends are a breach, never a shorter part.
-/

set_option autoImplicit false

namespace TextCursor.Utf8

/-- The characters before and after a byte offset, if the offset lies between two characters or at an end. -/
def splitAt? : List Char → Nat → Option (List Char × List Char)
  | cs, 0 => some ([], cs)
  | [], _ + 1 => none
  | ch :: cs, offset + 1 =>
    if ch.utf8Size ≤ offset + 1 then
      (splitAt? cs (offset + 1 - ch.utf8Size)).map fun (before, after) => (ch :: before, after)
    else none

/-- An offset is a boundary when it is the number of bytes of some leading part of the characters. -/
def IsBoundary (cs : List Char) (offset : Nat) : Prop :=
  ∃ before after, cs = before ++ after ∧ width before = offset

@[simp] theorem splitAt?_zero (cs : List Char) : splitAt? cs 0 = some ([], cs) := by
  cases cs <;> rfl

theorem splitAt?_width_append (before after : List Char) :
    splitAt? (before ++ after) (width before) = some (before, after) := by
  induction before with
  | nil => simp
  | cons ch before ih =>
    obtain ⟨n, hn⟩ : ∃ n, ch.utf8Size + width before = n + 1 :=
      ⟨ch.utf8Size + width before - 1, by have := ch.utf8Size_pos; omega⟩
    have hle : ch.utf8Size ≤ n + 1 := by omega
    have hrest : n + 1 - ch.utf8Size = width before := by omega
    simp [splitAt?, hn, hle, hrest, ih]

/-- The cut is exact: nothing is lost, and the first part has the width asked for. -/
theorem splitAt?_eq_some_iff {cs before after : List Char} {offset : Nat} :
    splitAt? cs offset = some (before, after) ↔ cs = before ++ after ∧ width before = offset := by
  constructor
  · fun_induction splitAt? cs offset generalizing before with
    | case1 => simp +contextual
    | case2 => simp
    | case3 ch cs offset hle ih =>
      intro h
      obtain ⟨⟨as, bs⟩, hsplit, heq⟩ := Option.map_eq_some_iff.1 h
      obtain ⟨rfl, rfl⟩ := Prod.mk.inj heq
      obtain ⟨rfl, hw⟩ := ih hsplit
      exact ⟨rfl, by simp only [width_cons]; omega⟩
    | case4 => simp
  · rintro ⟨rfl, rfl⟩
    exact splitAt?_width_append before after

theorem isSome_splitAt?_iff {cs : List Char} {offset : Nat} :
    (splitAt? cs offset).isSome ↔ IsBoundary cs offset := by
  simp only [Option.isSome_iff_exists, Prod.exists, splitAt?_eq_some_iff, IsBoundary]

instance (cs : List Char) (offset : Nat) : Decidable (IsBoundary cs offset) :=
  decidable_of_iff _ isSome_splitAt?_iff

theorem isBoundary_zero (cs : List Char) : IsBoundary cs 0 :=
  ⟨[], cs, rfl, rfl⟩

theorem isBoundary_width (cs : List Char) : IsBoundary cs (width cs) :=
  ⟨cs, [], by simp, rfl⟩

theorem IsBoundary.le_width {cs : List Char} {offset : Nat} (h : IsBoundary cs offset) : offset ≤ width cs := by
  obtain ⟨before, after, rfl, rfl⟩ := h
  simp

/-- Two boundaries in order cut the characters into three parts. -/
theorem IsBoundary.exists_parts {cs : List Char} {first last : Nat} (hfirst : IsBoundary cs first)
    (hlast : IsBoundary cs last) (hle : first ≤ last) :
    ∃ before run after, cs = before ++ run ++ after ∧ first = width before ∧ last = width (before ++ run) := by
  obtain ⟨before, late, hcs, rfl⟩ := hfirst
  obtain ⟨early, after, rfl, rfl⟩ := hlast
  rcases List.append_eq_append_iff.1 hcs with ⟨more, rfl, -⟩ | ⟨run, rfl, -⟩
  · -- the first part is the longer one, so by its width it is no longer at all
    obtain rfl : more = [] := by
      rw [← width_eq_zero_iff]
      simp only [width_append] at hle
      omega
    exact ⟨early, [], after, by simp, by simp, by simp⟩
  · exact ⟨before, run, after, rfl, rfl, rfl⟩

def sliceFrom (cs : List Char) (first : Nat) : Except Breach (List Char) :=
  match splitAt? cs first with
  | some (_, after) => .ok after
  | none => .error (.slice first (width cs))

def slice (cs : List Char) (first last : Nat) : Except Breach (List Char) :=
  if first ≤ last then
    match splitAt? cs first with
    | some (_, after) =>
      match splitAt? after (last - first) with
      | some (run, _) => .ok run
      | none => .error (.slice first last)
    | none => .error (.slice first last)
  else .error (.slice first last)

theorem sliceFrom_eq_ok_iff {cs after : List Char} {first : Nat} :
    sliceFrom cs first = .ok after ↔ ∃ before, cs = before ++ after ∧ width before = first := by
  simp only [sliceFrom]
  split
  next before rest h =>
    obtain ⟨rfl, rfl⟩ := splitAt?_eq_some_iff.1 h
    constructor
    · intro e
      cases e
      exact ⟨before, rfl, rfl⟩
    · rintro ⟨before', e, hw⟩
      have h' := splitAt?_width_append before' after
      rw [← e, hw, h] at h'
      obtain ⟨-, rfl⟩ := Prod.mk.inj (Option.some.inj h')
      rfl
  next h =>
    constructor
    · intro e
      cases e
    · rintro ⟨before, rfl, rfl⟩
      rw [splitAt?_width_append] at h
      cases h

/-- A slice is the run between two leading parts: the shorter has the first width, the longer the last. -/
theorem slice_eq_ok_iff {cs run : List Char} {first last : Nat} :
    slice cs first last = .ok run ↔
      ∃ before after, cs = before ++ run ++ after ∧ width before = first ∧ width (before ++ run) = last := by
  constructor
  · intro h
    simp only [slice] at h
    split at h
    next hle =>
      split at h
      next before rest hsplit =>
        split at h
        next run' after hsplit' =>
          cases h
          obtain ⟨rfl, hb⟩ := splitAt?_eq_some_iff.1 hsplit
          obtain ⟨rfl, hr⟩ := splitAt?_eq_some_iff.1 hsplit'
          exact ⟨before, after, by simp, hb, by simp only [width_append]; omega⟩
        next => cases h
      next => cases h
    next => cases h
  · rintro ⟨before, after, rfl, rfl, rfl⟩
    have hrest : width (before ++ run) - width before = width run := by simp
    rw [slice, if_pos (by simp), List.append_assoc]
    simp only [splitAt?_width_append, hrest]

end TextCursor.Utf8
