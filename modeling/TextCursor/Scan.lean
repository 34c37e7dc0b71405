import TextCursor.CharTest
import TextCursor.Offset

/-!
# Scans

A scan goes over characters as long as a test accepts them, and keeps two counters in different units: the byte offset
behind the last character taken, and the number of characters taken. It stops at the first character that is rejected,
at the end, or when the number of characters reaches a bound, where 0 is no bound. The bound is looked at before the
test is asked, so the character behind a full run is never asked about.
-/

set_option autoImplicit false

namespace TextCursor

/-- Where a scan stopped, how many characters it took, and the notes taken on the way. -/
structure Scan where
  stop : Nat
  count : Nat
  asked : List Inquiry
deriving DecidableEq, Repr

/-- Goes on with a scan that has come to the offset `stop` with `count` characters taken. -/
def CharTest.scan (t : CharTest) (max stop count : Nat) : List Char → Except Breach Scan
  | [] => .ok ⟨stop, count, []⟩
  | ch :: cs =>
    if 0 < max ∧ count = max then .ok ⟨stop, count, []⟩
    else
      let v := t.ask ch
      if v.accepted then do
        let s ← t.scan max (← Offset.add stop ch.utf8Size) (← Offset.add count 1) cs
        return { s with asked := v.asked ++ s.asked }
      else .ok ⟨stop, count, v.asked⟩

end TextCursor
