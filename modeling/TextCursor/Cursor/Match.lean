import TextCursor.Cursor.Basic

/-!
# Matching

A match asks whether something stands at the index. If so, that run becomes the result and the index moves past it; if
not, the cursor stays as it is. There are matches of one character, of a literal, and of a run of characters that pass
a test, with bounds on how many are taken (`max`, where 0 is no bound) and how many are needed (`min`).
-/

set_option autoImplicit false

namespace TextCursor.Cursor

def refuse (c : Cursor) (asked : List Inquiry) : Outcome Bool :=
  ⟨false, c, asked, []⟩

def matchChar (c : Cursor) (ch : Char) : Except Breach (Outcome Bool) := do
  match ← c.peek with
  | none => return c.refuse []
  | some next => if next = ch then return ⟨true, ← c.accept [ch], [], []⟩ else return c.refuse []

/-- Matches a literal, all of it. -/
def matchLiteral (c : Cursor) (literal : String) : Except Breach (Outcome Bool) := do
  let bytes := Utf8.encode literal.toList
  if bytes.isPrefixOf (Utf8.encode (← c.rest)) then
    return ⟨true, c.acceptTo (← Offset.add c.index bytes.length), [], []⟩
  else return c.refuse []

/-- Matches one character that passes the test. At the end of the text the test is not asked. -/
def matchCharIf (c : Cursor) (t : CharTest) : Except Breach (Outcome Bool) := do
  match ← c.peek with
  | none => return c.refuse []
  | some next =>
    let v := t.ask next
    if v.accepted then return ⟨true, ← c.accept [next], v.asked, []⟩ else return c.refuse v.asked

def matchAnyOf (c : Cursor) (set : String) : Except Breach (Outcome Bool) := do
  match ← c.peek with
  | none => return c.refuse []
  | some next => if next ∈ set.toList then return ⟨true, ← c.accept [next], [], []⟩ else return c.refuse []

/-- Matches the run of characters that pass the test, at most `max` of them, if there are at least `min`. -/
def matchWhileBounded (c : Cursor) (max min : Nat) (t : CharTest) : Except Breach (Outcome Bool) := do
  let scan ← c.scan max t
  if scan.count < min then return c.refuse scan.asked else return ⟨true, c.acceptTo scan.stop, scan.asked, []⟩

def matchWhile (c : Cursor) (t : CharTest) : Except Breach (Outcome Bool) :=
  c.matchWhileBounded 0 1 t

def matchWhileMax (c : Cursor) (max : Nat) (t : CharTest) : Except Breach (Outcome Bool) :=
  c.matchWhileBounded max 1 t

def matchDecimalBounded (c : Cursor) (max min : Nat) : Except Breach (Outcome Bool) :=
  c.matchWhileBounded max min .digit

def matchDecimal (c : Cursor) : Except Breach (Outcome Bool) :=
  c.matchDecimalBounded 0 1

def matchDecimalMax (c : Cursor) (max : Nat) : Except Breach (Outcome Bool) :=
  c.matchDecimalBounded max 1

def matchHexBounded (c : Cursor) (max min : Nat) : Except Breach (Outcome Bool) :=
  c.matchWhileBounded max min .hexDigit

def matchHex (c : Cursor) : Except Breach (Outcome Bool) :=
  c.matchHexBounded 0 1

def matchHexMax (c : Cursor) (max : Nat) : Except Breach (Outcome Bool) :=
  c.matchHexBounded max 1

end TextCursor.Cursor
