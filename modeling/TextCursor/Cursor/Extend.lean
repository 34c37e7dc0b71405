import TextCursor.Cursor.Basic

/-!
# Extending a match

An extension goes on where a match left off: the start stays, the index moves past the further characters, and the
result covers both. If too few characters pass the test the whole token is given up and the index returns to the start,
so a match followed by any number of extensions either takes all of its parts or leaves the index where it was.
-/

set_option autoImplicit false

namespace TextCursor.Cursor

/-- Extends the result by the run of characters that pass the test, at most `max` of them (0 is no bound), or gives it
up if there are fewer than `min`. -/
def extendWhileBounded (c : Cursor) (max min : Nat) (t : CharTest) : Except Breach (Outcome Bool) := do
  let scan ← c.scan max t
  if scan.count < min then return ⟨false, { c with index := c.start }, scan.asked, []⟩
  else return ⟨true, { c with index := scan.stop }, scan.asked, []⟩

def extendWhile (c : Cursor) (t : CharTest) : Except Breach (Outcome Bool) :=
  c.extendWhileBounded 0 0 t

def extendWhileMax (c : Cursor) (max : Nat) (t : CharTest) : Except Breach (Outcome Bool) :=
  c.extendWhileBounded max 0 t

end TextCursor.Cursor
