/-!
# Tables of code points

A property of characters that a standard lists is kept as a table of inclusive ranges of code points. Each table names a
run of ASCII codes in which it has no range; a character of that run is what is asked about most, and is answered
without a look at the ranges. The tables of this library are those of Unicode 17.0.
-/

set_option autoImplicit false

namespace TextCursor.Unicode

/-- Ranges in ascending order, none of which touches the codes that are set apart. -/
structure RangeTable where
  ranges : List (Nat × Nat)
  plainFirst : Nat
  plainLast : Nat
  ascending : ∀ pair ∈ ranges.zip ranges.tail, pair.1.2 < pair.2.1
  avoids_plain : ∀ range ∈ ranges, range.2 < plainFirst ∨ plainLast < range.1

namespace RangeTable

def covers (table : RangeTable) (ch : Char) : Bool :=
  !(table.plainFirst ≤ ch.toNat && ch.toNat ≤ table.plainLast) &&
    table.ranges.any fun (first, last) => first ≤ ch.toNat && ch.toNat ≤ last

/-- The answer without a look at the ranges is the one that they would give. -/
theorem covers_iff {table : RangeTable} {ch : Char} :
    table.covers ch = true ↔ ∃ range ∈ table.ranges, range.1 ≤ ch.toNat ∧ ch.toNat ≤ range.2 := by
  simp only [covers, Bool.and_eq_true, Bool.not_eq_true', Bool.and_eq_false_iff, decide_eq_false_iff_not,
    List.any_eq_true, decide_eq_true_eq]
  constructor
  · intro h
    exact h.2
  · rintro ⟨range, hmem, hfirst, hlast⟩
    have havoids := table.avoids_plain range hmem
    exact ⟨by omega, range, hmem, hfirst, hlast⟩

end RangeTable

end TextCursor.Unicode
