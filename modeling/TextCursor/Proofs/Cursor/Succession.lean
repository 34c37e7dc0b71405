import TextCursor.Proofs.Observation

/-!
# Steps in succession

`Cursor.inSuccession` does things with a cursor one after the other, each where the one before has left it, and goes on
to the last whatever comes of them. It lists the outcomes, so that one can ask whether all of them were successes, and
ends with the cursor after the last.
-/

set_option autoImplicit false

namespace TextCursor.Cursor

/-- What comes of the steps one after the other, and the cursor after the last of them. -/
def inSuccession {α : Type} (c : Cursor) :
    List (Cursor → Except Breach (Outcome α)) → Except Breach (List (Outcome α) × Cursor)
  | [] => .ok ([], c)
  | step :: steps => do
    let o ← step c
    let (os, last) ← o.cursor.inSuccession steps
    return (o :: os, last)

variable {α : Type} {c middle last : Cursor} {step : Cursor → Except Breach (Outcome α)}
  {steps later : List (Cursor → Except Breach (Outcome α))} {o : Outcome α} {os os' : List (Outcome α)}

theorem inSuccession_cons (hstep : step c = .ok o) (hsteps : o.cursor.inSuccession steps = .ok (os, last)) :
    c.inSuccession (step :: steps) = .ok (o :: os, last) := by
  rw [inSuccession, hstep]
  dsimp only [bind, Except.bind]
  rw [hsteps]
  rfl

/-- Later steps go on where the earlier ones have ended. -/
theorem inSuccession_append (hsteps : c.inSuccession steps = .ok (os, middle))
    (hlater : middle.inSuccession later = .ok (os', last)) :
    c.inSuccession (steps ++ later) = .ok (os ++ os', last) := by
  induction steps generalizing c os with
  | nil =>
    cases hsteps
    exact hlater
  | cons step steps ih =>
    obtain ⟨o, hstep, hrest⟩ := bind_eq_ok_iff.1 hsteps
    obtain ⟨⟨rest, close⟩, hrest, hlist⟩ := bind_eq_ok_iff.1 hrest
    cases hlist
    exact inSuccession_cons hstep (ih hrest)

end TextCursor.Cursor
