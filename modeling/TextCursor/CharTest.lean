import TextCursor.CharClass
import TextCursor.CharSet

/-!
# Tests on characters

A test accepts or rejects one character at a time. Tests are put together by negation, conjunction and disjunction; a
conjunction asks its right part only of what the left accepts, a disjunction only of what the left rejects. How often
and in which order parts are asked is visible through probes: a probe behaves as the test inside it, and notes its
label and the character before that test is asked.

`ask` is the answer together with the notes taken, `accepts` the answer alone. Both are functions of the character: a
test with a state of its own, whose answer depends on what it was asked before, is not represented.
-/

set_option autoImplicit false

namespace TextCursor

inductive CharTest where
  /-- Accepts where the function is true. -/
  | holds (p : Char → Bool)
  /-- Behaves as the test inside, after a note has been taken. -/
  | probe (label : String) (inner : CharTest)
  /-- Accepts exactly what the test inside rejects. -/
  | negate (inner : CharTest)
  /-- Accepts what both parts accept. -/
  | both (left right : CharTest)
  /-- Accepts what one of the parts accepts. -/
  | either (left right : CharTest)

/-- The note that a probe takes when it is asked. -/
structure Inquiry where
  label : String
  char : Char
deriving DecidableEq, Repr

/-- The answer to a test, and the notes taken on the way to it. -/
structure Verdict where
  accepted : Bool
  asked : List Inquiry
deriving DecidableEq, Repr

namespace CharTest

def ask : CharTest → Char → Verdict
  | holds p, ch => ⟨p ch, []⟩
  | probe label inner, ch =>
    let v := inner.ask ch
    ⟨v.accepted, ⟨label, ch⟩ :: v.asked⟩
  | negate inner, ch =>
    let v := inner.ask ch
    ⟨!v.accepted, v.asked⟩
  | both left right, ch =>
    let v := left.ask ch
    if v.accepted then
      let w := right.ask ch
      ⟨w.accepted, v.asked ++ w.asked⟩
    else v
  | either left right, ch =>
    let v := left.ask ch
    if v.accepted then v
    else
      let w := right.ask ch
      ⟨w.accepted, v.asked ++ w.asked⟩

def accepts : CharTest → Char → Bool
  | holds p, ch => p ch
  | probe _ inner, ch => inner.accepts ch
  | negate inner, ch => !inner.accepts ch
  | both left right, ch => left.accepts ch && right.accepts ch
  | either left right, ch => left.accepts ch || right.accepts ch

/-- Asking in order and stopping early does not change the answer. -/
@[simp] theorem accepted_ask (t : CharTest) (ch : Char) : (t.ask ch).accepted = t.accepts ch := by
  induction t with
  | holds p => rfl
  | probe label inner ih => simp [ask, accepts, ih]
  | negate inner ih => simp [ask, accepts, ih]
  | both left right ihl ihr => cases h : left.accepts ch <;> simp [ask, accepts, ihl, ihr, h]
  | either left right ihl ihr => cases h : left.accepts ch <;> simp [ask, accepts, ihl, ihr, h]

def anything : CharTest := holds fun _ => true

def nothing : CharTest := holds fun _ => false

def digit : CharTest := holds isDigit

def hexDigit : CharTest := holds isHexDigit

def ofClass (a : CharClass) : CharTest := holds a.accepts

def ofSet (s : CharSet) : CharTest := holds s.contains

def equals (c : Char) : CharTest := holds (· == c)

/-- Accepts the characters from the first to the last by code point, none if they are out of order. -/
def between (first last : Char) : CharTest := holds fun ch => first ≤ ch && ch ≤ last

end CharTest

end TextCursor
