import TextCursor.CharTest

/-!
# Tests that stop early

A formula is a test put together from leaves, with a probe at every leaf, so that each time a leaf is asked about a
character there is a note of it. What a formula is worth for a character, and which leaves are asked in which order, is
said here by rules that know nothing of tests: a conjunction goes on to its right part only from a left part that holds,
a disjunction only from one that does not, and the left part always comes first (`Formula.Evaluates`).

Asking the test of a formula is evaluating it by these rules, and there is no other way to evaluate it
(`Formula.ask_toTest_eq_iff`); the answer is the value of the formula as a formula of logic (`Formula.accepts_toTest`).
-/

set_option autoImplicit false

namespace TextCursor

inductive Formula where
  | leaf (label : String) (p : Char → Bool)
  | negate (inner : Formula)
  | both (left right : Formula)
  | either (left right : Formula)

namespace Formula

/-- The test with a probe at every leaf. -/
def toTest : Formula → CharTest
  | leaf label p => .probe label (.holds p)
  | negate inner => .negate inner.toTest
  | both left right => .both left.toTest right.toTest
  | either left right => .either left.toTest right.toTest

def value : Formula → Char → Bool
  | leaf _ p, ch => p ch
  | negate inner, ch => !inner.value ch
  | both left right, ch => left.value ch && right.value ch
  | either left right, ch => left.value ch || right.value ch

/-- Evaluation from left to right, which stops as soon as the value is settled: the value of the formula for a
character, and the leaves asked on the way. -/
inductive Evaluates (ch : Char) : Formula → Bool → List Inquiry → Prop where
  | leaf (label : String) (p : Char → Bool) : Evaluates ch (leaf label p) (p ch) [⟨label, ch⟩]
  | negate {inner : Formula} {b : Bool} {asked : List Inquiry} :
      Evaluates ch inner b asked → Evaluates ch (negate inner) (!b) asked
  | bothStops {left right : Formula} {asked : List Inquiry} :
      Evaluates ch left false asked → Evaluates ch (both left right) false asked
  | bothGoesOn {left right : Formula} {b : Bool} {asked more : List Inquiry} :
      Evaluates ch left true asked → Evaluates ch right b more → Evaluates ch (both left right) b (asked ++ more)
  | eitherStops {left right : Formula} {asked : List Inquiry} :
      Evaluates ch left true asked → Evaluates ch (either left right) true asked
  | eitherGoesOn {left right : Formula} {b : Bool} {asked more : List Inquiry} :
      Evaluates ch left false asked → Evaluates ch right b more → Evaluates ch (either left right) b (asked ++ more)

variable {f : Formula} {ch : Char}

/-- The test of a formula accepts the characters for which the formula is true. -/
theorem accepts_toTest (f : Formula) : f.toTest.accepts = f.value := by
  funext ch
  induction f with
  | leaf label p => rfl
  | negate inner ih => rw [toTest, CharTest.accepts, value, ih]
  | both left right ihl ihr => rw [toTest, CharTest.accepts, value, ihl, ihr]
  | either left right ihl ihr => rw [toTest, CharTest.accepts, value, ihl, ihr]

/-- Every formula can be evaluated, and its test does so. -/
theorem evaluates_ask (f : Formula) (ch : Char) : Evaluates ch f (f.value ch) (f.toTest.ask ch).asked := by
  induction f with
  | leaf label p => exact .leaf label p
  | negate inner ih => exact .negate ih
  | both left right ihl ihr =>
    rw [value, toTest, CharTest.ask, CharTest.accepted_ask, accepts_toTest]
    cases hleft : left.value ch with
    | false =>
      rw [hleft] at ihl
      exact .bothStops ihl
    | true =>
      rw [hleft] at ihl
      exact .bothGoesOn ihl ihr
  | either left right ihl ihr =>
    rw [value, toTest, CharTest.ask, CharTest.accepted_ask, accepts_toTest]
    cases hleft : left.value ch with
    | false =>
      rw [hleft] at ihl
      exact .eitherGoesOn ihl ihr
    | true =>
      rw [hleft] at ihl
      exact .eitherStops ihl

/-- The rules leave no choice: at every node the left part settles which of the two applies. -/
theorem Evaluates.unique {b b' : Bool} {asked asked' : List Inquiry} (h : Evaluates ch f b asked)
    (h' : Evaluates ch f b' asked') : b = b' ∧ asked = asked' := by
  induction h generalizing b' asked' with
  | leaf label p =>
    cases h'
    exact ⟨rfl, rfl⟩
  | negate _ ih =>
    cases h' with
    | negate hinner =>
      obtain ⟨rfl, rfl⟩ := ih hinner
      exact ⟨rfl, rfl⟩
  | bothStops _ ih =>
    cases h' with
    | bothStops hleft => exact ⟨rfl, (ih hleft).2⟩
    | bothGoesOn hleft _ => exact absurd (ih hleft).1 (by decide)
  | bothGoesOn _ _ ihl ihr =>
    cases h' with
    | bothStops hleft => exact absurd (ihl hleft).1 (by decide)
    | bothGoesOn hleft hright =>
      obtain ⟨-, rfl⟩ := ihl hleft
      obtain ⟨rfl, rfl⟩ := ihr hright
      exact ⟨rfl, rfl⟩
  | eitherStops _ ih =>
    cases h' with
    | eitherStops hleft => exact ⟨rfl, (ih hleft).2⟩
    | eitherGoesOn hleft _ => exact absurd (ih hleft).1 (by decide)
  | eitherGoesOn _ _ ihl ihr =>
    cases h' with
    | eitherStops hleft => exact absurd (ihl hleft).1 (by decide)
    | eitherGoesOn hleft hright =>
      obtain ⟨-, rfl⟩ := ihl hleft
      obtain ⟨rfl, rfl⟩ := ihr hright
      exact ⟨rfl, rfl⟩

/-- Asking the test of a formula is evaluating the formula. -/
theorem ask_toTest_eq_iff {b : Bool} {asked : List Inquiry} :
    f.toTest.ask ch = ⟨b, asked⟩ ↔ Evaluates ch f b asked := by
  have hask : f.toTest.ask ch = ⟨f.value ch, (f.toTest.ask ch).asked⟩ := by
    rw [← accepts_toTest, ← CharTest.accepted_ask]
  rw [hask, Verdict.mk.injEq]
  constructor
  · rintro ⟨rfl, rfl⟩
    exact evaluates_ask f ch
  · intro h
    exact (evaluates_ask f ch).unique h

end Formula

end TextCursor
