import TextCursor.Quoted

/-!
# Sets of characters

A set that is asked about often: its ASCII members are bits of one word, all others stand in a short list, each once,
in the order in which they were first inserted. Equality is equality of these parts, so the order of insertion of the
members outside ASCII is part of what a set is.
-/

set_option autoImplicit false

namespace TextCursor

structure CharSet where
  /-- Bit `n` stands for the character with code point `n`. -/
  ascii : BitVec 128
  other : List Char
deriving DecidableEq, Repr

namespace CharSet

def empty : CharSet := ⟨0#128, []⟩

/-- The place of an ASCII character in the word. -/
def slot? (ch : Char) : Option (Fin 128) :=
  if h : ch.toNat < 128 then some ⟨ch.toNat, h⟩ else none

/-- The set with one more member; a member is not added twice. -/
def insert (s : CharSet) (ch : Char) : CharSet :=
  match slot? ch with
  | some n => { s with ascii := s.ascii ||| BitVec.twoPow 128 n }
  | none => if s.other.contains ch then s else { s with other := s.other ++ [ch] }

def contains (s : CharSet) (ch : Char) : Bool :=
  match slot? ch with
  | some n => s.ascii.getLsbD n
  | none => s.other.contains ch

/-- The set of the listed characters, inserted from left to right. -/
def ofList (cs : List Char) : CharSet :=
  cs.foldl insert empty

def ofString (s : String) : CharSet :=
  ofList s.toList

def size (s : CharSet) : Nat :=
  (List.range 128).countP (s.ascii.getLsbD ·) + s.other.length

def isEmpty (s : CharSet) : Bool :=
  s.ascii == 0#128 && s.other.isEmpty

def inspect (s : CharSet) : String :=
  let members := ", ".intercalate (s.other.map Quoted.ofChar)
  s!"CharSet \x7b ascii: {s.ascii.toNat}, other: [{members}] \x7d"

theorem slot?_eq_some {ch : Char} (h : ch.toNat < 128) : slot? ch = some ⟨ch.toNat, h⟩ :=
  dif_pos h

theorem slot?_eq_none {ch : Char} (h : 128 ≤ ch.toNat) : slot? ch = none :=
  dif_neg (Nat.not_lt.2 h)

@[simp] theorem contains_empty (ch : Char) : empty.contains ch = false := by
  rcases Nat.lt_or_ge ch.toNat 128 with h | h
  · simp [contains, slot?_eq_some h, empty]
  · simp [contains, slot?_eq_none h, empty]

/-- Inserting adds the character inserted and nothing else. -/
@[simp] theorem contains_insert (s : CharSet) (ch x : Char) :
    (s.insert ch).contains x = (x == ch || s.contains x) := by
  rcases Nat.lt_or_ge ch.toNat 128 with hc | hc <;> rcases Nat.lt_or_ge x.toNat 128 with hx | hx
  · have heq : (x == ch) = decide (ch.toNat = x.toNat) := by
      rw [Bool.eq_iff_iff]
      simp only [beq_iff_eq, decide_eq_true_eq, Char.toNat_inj]
      exact eq_comm
    simp [insert, contains, slot?_eq_some hc, slot?_eq_some hx, hc, heq, Bool.or_comm]
  · have hne : (x == ch) = false := beq_false_of_ne (by rintro rfl; omega)
    simp [insert, contains, slot?_eq_some hc, slot?_eq_none hx, hne]
  · have hne : (x == ch) = false := beq_false_of_ne (by rintro rfl; omega)
    simp only [insert, contains, slot?_eq_none hc, slot?_eq_some hx, hne, Bool.false_or]
    split <;> rfl
  · simp only [insert, contains, slot?_eq_none hc, slot?_eq_none hx]
    split
    next hmem =>
      by_cases heq : x = ch
      · subst heq
        simpa using hmem
      · simp [heq]
    next => simp [Bool.or_comm, Bool.beq_eq_decide_eq]

/-- The members of the set of a list are the elements of the list. -/
@[simp] theorem contains_ofList (cs : List Char) (x : Char) : (ofList cs).contains x = cs.contains x := by
  suffices h : ∀ s : CharSet, (cs.foldl insert s).contains x = (s.contains x || cs.contains x) by
    simp [ofList, h]
  induction cs with
  | nil => simp
  | cons ch cs ih =>
    intro s
    rw [List.foldl_cons, ih, contains_insert, List.contains_cons]
    cases x == ch <;> cases s.contains x <;> simp

end CharSet

end TextCursor
