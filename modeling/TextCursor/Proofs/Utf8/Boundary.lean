import TextCursor.Utf8.Slice

/-!
# Boundaries and cuts

Which cuts exist: a slice is answered exactly when its ends are boundaries in order (`exists_slice_iff`), so that an
operation which never ends in a breach has made no other slice. And how boundaries of a run are boundaries of the whole
list that the run is a part of, and the other way round as far as the run goes (`isBoundary_part_iff`).
-/

set_option autoImplicit false

namespace TextCursor.Utf8

/-- A slice exists exactly between two boundaries in order. -/
theorem exists_slice_iff {cs : List Char} {first last : Nat} :
    (∃ run, slice cs first last = .ok run) ↔ first ≤ last ∧ IsBoundary cs first ∧ IsBoundary cs last := by
  constructor
  · intro h
    obtain ⟨run, hslice⟩ := h
    obtain ⟨before, after, hcs, hfirst, hlast⟩ := slice_eq_ok_iff.1 hslice
    refine ⟨?_, ⟨before, run ++ after, by simp [hcs], hfirst⟩, ⟨before ++ run, after, hcs, hlast⟩⟩
    rw [width_append] at hlast
    omega
  · intro h
    obtain ⟨hle, hfirst, hlast⟩ := h
    obtain ⟨before, run, after, hcs, hbefore, hrun⟩ := hfirst.exists_parts hlast hle
    exact ⟨run, slice_eq_ok_iff.2 ⟨before, after, hcs, hbefore.symm, hrun.symm⟩⟩

/-- A boundary of a part, counted from the front of the whole. -/
theorem IsBoundary.shift {run : List Char} {offset : Nat} (h : IsBoundary run offset) (before after : List Char) :
    IsBoundary (before ++ run ++ after) (width before + offset) := by
  obtain ⟨first, second, rfl, rfl⟩ := h
  exact ⟨before ++ first, second ++ after, by simp, width_append before first⟩

/-- One list of characters has one leading part of each width. -/
theorem append_inj_of_width {before after before' after' : List Char} (h : before ++ after = before' ++ after')
    (hwidth : width before = width before') : before = before' ∧ after = after' := by
  have hsplit := splitAt?_width_append before after
  rw [h, hwidth, splitAt?_width_append] at hsplit
  obtain ⟨hbefore, hafter⟩ := Prod.mk.inj (Option.some.inj hsplit)
  exact ⟨hbefore.symm, hafter.symm⟩

/-- Of two leading parts the wider begins with the other. -/
theorem exists_append_of_width_le {before after before' after' : List Char} (h : before ++ after = before' ++ after')
    (hle : width before ≤ width before') : ∃ passed, before' = before ++ passed ∧ after = passed ++ after' := by
  rcases List.append_eq_append_iff.1 h with ⟨passed, hbefore, hafter⟩ | ⟨more, rfl, rfl⟩
  · exact ⟨passed, hbefore, hafter⟩
  · -- the first part is the longer one, so by its width it is no longer at all
    obtain rfl : more = [] := by
      rw [← width_eq_zero_iff]
      rw [width_append] at hle
      omega
    exact ⟨[], by simp, by simp⟩

/-- The boundaries of a part are those of the whole that do not lie behind the part, counted from its front. -/
theorem isBoundary_part_iff {before run after : List Char} {offset : Nat} :
    IsBoundary run offset ↔ offset ≤ width run ∧ IsBoundary (before ++ run ++ after) (width before + offset) := by
  constructor
  · intro h
    exact ⟨h.le_width, h.shift before after⟩
  · rintro ⟨hle, hboundary⟩
    have hfirst : IsBoundary (before ++ run ++ after) (width before) := ⟨before, run ++ after, by simp, rfl⟩
    obtain ⟨early, passed, late, hparts, hearly, hpassed⟩ := hfirst.exists_parts hboundary (Nat.le_add_right _ _)
    rw [List.append_assoc, List.append_assoc] at hparts
    obtain ⟨rfl, hrest⟩ := append_inj_of_width hparts hearly
    have hwidth : width passed = offset := by
      rw [width_append] at hpassed
      omega
    rcases List.append_eq_append_iff.1 hrest with ⟨more, rfl, -⟩ | ⟨left, rfl, -⟩
    · -- what is passed over is no wider than the run, so it goes no further
      obtain rfl : more = [] := by
        rw [← width_eq_zero_iff]
        rw [width_append] at hwidth
        omega
      exact ⟨run, [], by simp, by simpa using hwidth⟩
    · exact ⟨passed, left, rfl, hwidth⟩

/-- The offset lies inside a character, behind its first byte and before its end. -/
def IsInside (cs : List Char) (offset : Nat) : Prop :=
  ∃ before ch after, cs = before ++ ch :: after ∧ width before < offset ∧ offset < width before + ch.utf8Size

/-- What is no boundary, and not beyond the end, lies inside a character. -/
theorem isInside_of_not_isBoundary {cs : List Char} {offset : Nat} (hle : offset ≤ width cs)
    (h : ¬ IsBoundary cs offset) : IsInside cs offset := by
  induction cs generalizing offset with
  | nil =>
    obtain rfl : offset = 0 := Nat.le_zero.1 hle
    exact absurd (isBoundary_zero []) h
  | cons ch cs ih =>
    rw [width_cons] at hle
    by_cases hfirst : offset < ch.utf8Size
    · have hpos : 0 < offset := by
        refine Nat.pos_of_ne_zero ?_
        intro hzero
        exact h (hzero ▸ isBoundary_zero (ch :: cs))
      exact ⟨[], ch, cs, rfl, hpos, by simpa using hfirst⟩
    · obtain ⟨beyond, rfl⟩ := Nat.exists_eq_add_of_le (Nat.not_lt.1 hfirst)
      have hbeyond : ¬ IsBoundary cs beyond := by
        intro hboundary
        obtain ⟨before, after, rfl, rfl⟩ := hboundary
        exact h ⟨ch :: before, after, rfl, rfl⟩
      obtain ⟨before, inner, after, rfl, hbehind, hahead⟩ := ih (by omega) hbeyond
      refine ⟨ch :: before, inner, after, rfl, ?_, ?_⟩
      · rw [width_cons]
        omega
      · rw [width_cons]
        omega

/-- What lies inside a character is no boundary. -/
theorem not_isBoundary_of_isInside {cs : List Char} {offset : Nat} (h : IsInside cs offset) :
    ¬ IsBoundary cs offset := by
  rintro ⟨first, second, rfl, rfl⟩
  obtain ⟨before, ch, after, hcs, hbehind, hahead⟩ := h
  -- the boundary is behind `before`, so what lies between the two begins with the character
  obtain ⟨passed, rfl, hpassed⟩ := exists_append_of_width_le hcs.symm (Nat.le_of_lt hbehind)
  rw [width_append] at hbehind hahead
  cases passed with
  | nil =>
    rw [width_nil] at hbehind
    omega
  | cons other passed =>
    obtain ⟨rfl, -⟩ := List.cons.inj hpassed
    rw [width_cons] at hahead
    omega

theorem isBoundary_of_not_isInside {cs : List Char} {offset : Nat} (hle : offset ≤ width cs) (h : ¬ IsInside cs offset) :
    IsBoundary cs offset :=
  Decidable.not_not.1 (mt (isInside_of_not_isBoundary hle) h)

end TextCursor.Utf8
