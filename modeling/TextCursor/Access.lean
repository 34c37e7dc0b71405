import TextCursor.ScanError
import TextCursor.Utf8.Slice

/-!
# Checked access

Offsets that come from a caller may be anything. The functions here look at a run of characters through such offsets:
they report the first thing that is wrong with them, and only then cut. Every report carries the length of the run that
was asked, and offsets relative to it. That the cuts after the checks never fail is what makes the checks right; it is
not assumed, the functions keep the failure apart from the report.
-/

set_option autoImplicit false

namespace TextCursor.Access

def charAt (cs : List Char) (offset : Nat) : Except Breach (Except ScanError Char) :=
  if Utf8.width cs ≤ offset then .ok (.error (.indexOutOfRange offset (Utf8.width cs)))
  else if ¬ Utf8.IsBoundary cs offset then .ok (.error (.notCharBoundary offset))
  else
    match Utf8.sliceFrom cs offset with
    | .ok (ch :: _) => .ok (.ok ch)
    | .ok [] => .ok (.error (.indexOutOfRange offset (Utf8.width cs)))
    | .error breach => .error breach

/-- What is wrong with a range. Ends out of order or beyond the end come first, then the first end inside a character,
then the last. -/
def rangeFault? (cs : List Char) (first last : Nat) : Option ScanError :=
  if last < first ∨ Utf8.width cs < last then some (.rangeOutOfBounds first last (Utf8.width cs))
  else if ¬ Utf8.IsBoundary cs first then some (.notCharBoundary first)
  else if ¬ Utf8.IsBoundary cs last then some (.notCharBoundary last)
  else none

/-- Ranges without fault are those whose ends are boundaries in order. -/
theorem rangeFault?_eq_none_iff {cs : List Char} {first last : Nat} :
    rangeFault? cs first last = none ↔
      first ≤ last ∧ Utf8.IsBoundary cs first ∧ Utf8.IsBoundary cs last := by
  simp only [rangeFault?]
  constructor
  · intro h
    split at h
    next => cases h
    next hrange =>
      split at h
      next => cases h
      next hfirst =>
        split at h
        next => cases h
        next hlast => exact ⟨by omega, Decidable.not_not.1 hfirst, Decidable.not_not.1 hlast⟩
  · rintro ⟨hle, hfirst, hlast⟩
    have := hlast.le_width
    rw [if_neg (by omega), if_neg (not_not_intro hfirst), if_neg (not_not_intro hlast)]

end TextCursor.Access
