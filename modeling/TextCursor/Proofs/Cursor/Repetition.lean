import TextCursor.Cursor.Basic

/-!
# Repeating a piece of work with a cursor

Texts are read by doing the same thing over and over, until a turn finds that nothing more follows. `Repeats body` is
such a loop: it relates the cursor where it begins to the items that its turns yield and the cursor where it ends. A
loop that does not end, or breaks off in a turn, is related to nothing; so to say what a loop comes to is to say that it
ends. It comes to one thing at most (`Repeats.unique`).
-/

set_option autoImplicit false

namespace TextCursor

/-- What one turn of a loop leaves: an item, whether another turn follows, and the cursor after it. -/
structure Turn (α : Type) where
  item : α
  goesOn : Bool
  cursor : Cursor

/-- The loop that repeats a body as long as its turns say so. -/
inductive Repeats {α : Type} (body : Cursor → Except Breach (Turn α)) : Cursor → List α → Cursor → Prop where
  | stop {c : Cursor} {turn : Turn α} :
      body c = .ok turn → turn.goesOn = false → Repeats body c [turn.item] turn.cursor
  | again {c last : Cursor} {turn : Turn α} {items : List α} :
      body c = .ok turn → turn.goesOn = true → Repeats body turn.cursor items last →
        Repeats body c (turn.item :: items) last

namespace Repeats

variable {α : Type} {body : Cursor → Except Breach (Turn α)} {c last last' : Cursor} {items items' : List α}

/-- A loop yields the same items and ends at the same place whenever it begins at the same place. -/
theorem unique (h : Repeats body c items last) (h' : Repeats body c items' last') : items' = items ∧ last' = last := by
  induction h generalizing items' last' with
  | stop hturn hstop =>
    cases h' with
    | stop hturn' _ =>
      cases hturn.symm.trans hturn'
      exact ⟨rfl, rfl⟩
    | again hturn' hagain _ =>
      cases hturn.symm.trans hturn'
      cases hstop.symm.trans hagain
  | again hturn hagain _ ih =>
    cases h' with
    | stop hturn' hstop =>
      cases hturn.symm.trans hturn'
      cases hstop.symm.trans hagain
    | again hturn' _ hrest' =>
      cases hturn.symm.trans hturn'
      obtain ⟨hitems, hlast⟩ := ih hrest'
      exact ⟨by rw [hitems], hlast⟩

end Repeats

end TextCursor
