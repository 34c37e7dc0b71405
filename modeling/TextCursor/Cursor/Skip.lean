import TextCursor.Cursor.Basic
import TextCursor.Utf8.Search

/-!
# Skipping

A skip takes what it finds, which may be nothing, as the result. The searches for a character or a literal run over
bytes and stop in front of the first occurrence, or at the end of the text if there is none. Only the two operations
that ask for a number of characters, `skipCount` and `nextChar`, can fail; they then leave the cursor as it is, and
a record.
-/

set_option autoImplicit false

namespace TextCursor.Cursor

def skipped (c : Cursor) (asked : List Inquiry) : Outcome Unit :=
  ⟨(), c, asked, []⟩

/-- Moves the index over the characters that are in the list, one after the other. -/
def advanceOver (set : List Char) (c : Cursor) : Except Breach Cursor :=
  match _hpeek : c.peek with
  | .error breach => .error breach
  | .ok none => .ok c
  | .ok (some next) =>
    if next ∈ set then
      match _hadd : Offset.add c.index next.utf8Size with
      | .error breach => .error breach
      | .ok index => advanceOver set { c with index }
    else .ok c
termination_by c.length - c.index
decreasing_by
  have hpos := next.utf8Size_pos
  have hle := add_utf8Size_le_length _hpeek
  have hindex := (Offset.add_eq_ok_iff.1 _hadd).2
  simp only [length] at hle ⊢
  omega

def skipAnyOf (c : Cursor) (set : String) : Except Breach (Outcome Unit) := do
  return skipped (← advanceOver set.toList (c.acceptTo c.index)) []

def skipWhile (c : Cursor) (t : CharTest) : Except Breach (Outcome Unit) := do
  let scan ← c.scan 0 t
  return skipped (c.acceptTo scan.stop) scan.asked

def skipChar (c : Cursor) (ch : Char) : Except Breach (Outcome Unit) :=
  c.skipWhile (.equals ch)

/-- Accepts up to the place that a search from the index found, or up to the end. -/
def acceptFound (c : Cursor) (found : Option Nat) : Except Breach Cursor := do
  match found with
  | some distance => return c.acceptTo (← Offset.add c.index distance)
  | none => return c.acceptTo c.length

/-- Skips up to the next occurrence of the character that the search finds. One byte is looked for if it has only
one. -/
def skipToCharBy (search : Utf8.ByteSearch) (c : Cursor) (ch : Char) : Except Breach (Outcome Unit) := do
  let ahead ← c.text.bytesFrom c.index
  let found :=
    if ch.toNat < 128 then search.byte? (UInt8.ofNat ch.toNat) ahead
    else search.bytes? (String.utf8EncodeChar ch) ahead
  return skipped (← c.acceptFound found) []

/-- Skips up to the next occurrence of the literal that the search finds. The empty literal skips nothing, one character
is looked for as such. -/
def skipToLiteralBy (search : Utf8.ByteSearch) (c : Cursor) (literal : String) : Except Breach (Outcome Unit) :=
  match literal.toList with
  | [] => .ok (skipped (c.acceptTo c.index) [])
  | [ch] => c.skipToCharBy search ch
  | cs => do
    let ahead ← c.text.bytesFrom c.index
    return skipped (← c.acceptFound (search.bytes? (Utf8.encode cs) ahead)) []

def skipToChar (c : Cursor) (ch : Char) : Except Breach (Outcome Unit) :=
  c.skipToCharBy .least ch

def skipToLiteral (c : Cursor) (literal : String) : Except Breach (Outcome Unit) :=
  c.skipToLiteralBy .least literal

def skipToEnd (c : Cursor) : Outcome Unit :=
  skipped (c.acceptTo c.length) []

/-- Counts characters off from the offset `stop`. Answers the offset behind the last of them, or, as an error, the
offset of the end if there are too few. -/
def countOff : (n stop : Nat) → List Char → Except Breach (Except Nat Nat)
  | 0, stop, _ => .ok (.ok stop)
  | _ + 1, stop, [] => .ok (.error stop)
  | n + 1, stop, ch :: cs => do countOff n (← Offset.add stop ch.utf8Size) cs

/-- Skips a number of characters, all of which have to be there. -/
def skipCount (c : Cursor) (n : Nat) : Except Breach (Outcome (Except ScanError Unit)) := do
  match ← countOff n c.index (← c.rest) with
  | .ok stop => return ⟨.ok (), c.acceptTo stop, [], [.skipped c.index stop]⟩
  | .error stop =>
    return ⟨.error (.indexOutOfRange (Offset.addSaturating c.index n) c.length), c, [], [.skipTooFar n stop]⟩

def nextChar (c : Cursor) : Except Breach (Outcome (Except ScanError Char)) := do
  match ← c.peek with
  | some ch => return ⟨.ok ch, ← c.accept [ch], [], []⟩
  | none => return ⟨.error (.indexOutOfRange c.index c.length), c, [], [.noNextChar c.index]⟩

end TextCursor.Cursor
