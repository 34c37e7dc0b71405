import TextCursor.Proofs.Cursor.Reachability
import TextCursor.Proofs.ShortCircuit

/-!
# What a scan asks about

A test may leave notes when it is asked, so how often and in which order a scan asks it can be seen. A scan asks about
the characters of the run it takes, one after the other, and then about the one behind the run, which is what stops it;
but not if the run has come to its bound, or to the end of the text. Nothing is asked twice, and what the operation does
with the run afterwards asks nothing more (`Cursor.tests_asked_in_text_order`).

For one character the notes are those of the evaluation of the formula that the test is made from.
-/

set_option autoImplicit false

namespace TextCursor

/-- Where a run that passes ends, the next character is the one that does not. -/
theorem take_one_dropWhile (p : Char → Bool) (cs : List Char) :
    (cs.dropWhile p).take 1 = cs[(cs.takeWhile p).length]?.toList := by
  have hsplit : cs[(cs.takeWhile p).length]? = (cs.takeWhile p ++ cs.dropWhile p)[(cs.takeWhile p).length]? := by
    rw [List.takeWhile_append_dropWhile]
  rw [hsplit, List.getElem?_append_right (Nat.le_refl _), Nat.sub_self]
  cases cs.dropWhile p <;> rfl

theorem getElem?_window (max place : Nat) (cs : List Char) :
    (window max 0 cs)[place]? = if max = 0 ∨ place < max then cs[place]? else none := by
  unfold window
  by_cases hmax : max = 0
  · rw [if_pos hmax, if_pos (Or.inl hmax)]
  · rw [if_neg hmax, Nat.sub_zero, List.getElem?_take]
    simp only [hmax, false_or]

namespace CharTest

/-- The characters that a scan asks about: those of the run, and the one behind it unless the bound comes first. -/
def examined (t : CharTest) (max : Nat) (ahead : List Char) : List Char :=
  t.taken max ahead ++
    if max = 0 ∨ (t.taken max ahead).length < max then ahead[(t.taken max ahead).length]?.toList else []

/-- The notes of a scan are those of the characters examined, in their order. -/
theorem notes_window_eq (t : CharTest) (max : Nat) (ahead : List Char) :
    t.notes (window max 0 ahead) = (t.examined max ahead).flatMap fun ch => (t.ask ch).asked := by
  have hnext : ((window max 0 ahead).dropWhile t.accepts).take 1 =
      if max = 0 ∨ (t.taken max ahead).length < max then ahead[(t.taken max ahead).length]?.toList else [] := by
    rw [take_one_dropWhile, ← taken, getElem?_window]
    split <;> rfl
  rw [notes, hnext, ← taken, examined]

end CharTest

namespace Cursor

theorem asked_settle (c : Cursor) (a : Attempt) : (c.settle a).asked = a.asked := by
  unfold settle
  split <;> rfl

theorem asked_settleExtension (c : Cursor) (a : Attempt) : (c.settleExtension a).asked = a.asked := by
  unfold settleExtension
  split <;> rfl

namespace Parts

variable {c : Cursor} {before run ahead : List Char}

theorem exists_asked_matchWhileBounded (h : c.Parts before run ahead) (max min : Nat) (t : CharTest) :
    ∃ o, c.matchWhileBounded max min t = .ok o ∧
      o.asked = (t.examined max ahead).flatMap fun ch => (t.ask ch).asked :=
  ⟨_, h.matchWhileBounded_eq max min t, (c.asked_settle _).trans (t.notes_window_eq max ahead)⟩

theorem exists_asked_extendWhileBounded (h : c.Parts before run ahead) (max min : Nat) (t : CharTest) :
    ∃ o, c.extendWhileBounded max min t = .ok o ∧
      o.asked = (t.examined max ahead).flatMap fun ch => (t.ask ch).asked :=
  ⟨_, h.extendWhileBounded_eq max min t, (c.asked_settleExtension _).trans (t.notes_window_eq max ahead)⟩

theorem exists_asked_skipWhile (h : c.Parts before run ahead) (t : CharTest) :
    ∃ o, c.skipWhile t = .ok o ∧ o.asked = (t.examined 0 ahead).flatMap fun ch => (t.ask ch).asked :=
  ⟨_, h.skipWhile_eq t, t.notes_window_eq 0 ahead⟩

theorem exists_asked_matchCharIf (h : c.Parts before run ahead) (t : CharTest) :
    ∃ o, c.matchCharIf t = .ok o ∧ o.asked = ahead.head?.toList.flatMap fun ch => (t.ask ch).asked := by
  refine ⟨_, h.matchCharIf_eq t, (c.asked_settle _).trans ?_⟩
  cases ahead with
  | nil => rfl
  | cons ch ahead => exact (List.append_nil _).symm

end Parts

/-- The test of a formula answers with the value of the formula, and what it asks is what evaluating the formula asks.
From every place that can be reached, with any bounds: a match, an extension and (without a bound) a skip ask about the
characters of the longest run that the formula holds for, cut to the bound, and about the next character, if there is
one and the bound has not been reached. A match of one character asks about the one at the index, if there is one. -/
theorem tests_asked_in_text_order {t : Text} {c : Cursor} (h : Reachable t c) (f : Formula) :
    (∀ ch, (f.toTest.ask ch).accepted = f.value ch ∧
      ∀ b asked, f.toTest.ask ch = ⟨b, asked⟩ ↔ f.Evaluates ch b asked) ∧
    ∃ ahead, c.rest = .ok ahead ∧
      (∀ max min : Nat,
        let longest := ahead.takeWhile f.value
        let run := if max = 0 then longest else longest.take max
        let next := if max = 0 ∨ run.length < max then ahead[run.length]?.toList else []
        let asked := (run ++ next).flatMap fun ch => (f.toTest.ask ch).asked
        (∃ o, c.matchWhileBounded max min f.toTest = .ok o ∧ o.asked = asked) ∧
        (∃ o, c.extendWhileBounded max min f.toTest = .ok o ∧ o.asked = asked) ∧
        (max = 0 → ∃ o, c.skipWhile f.toTest = .ok o ∧ o.asked = asked)) ∧
      ∃ o, c.matchCharIf f.toTest = .ok o ∧
        o.asked = ahead.head?.toList.flatMap fun ch => (f.toTest.ask ch).asked := by
  obtain ⟨-, hwell⟩ := reachable_iff.1 h
  obtain ⟨before, run, ahead, hparts⟩ := wellFormed_iff_exists_parts.1 hwell
  refine ⟨?_, ahead, hparts.rest_eq, ?_, hparts.exists_asked_matchCharIf f.toTest⟩
  · intro ch
    refine ⟨?_, fun b asked => f.ask_toTest_eq_iff⟩
    rw [CharTest.accepted_ask, f.accepts_toTest]
  · intro max min
    dsimp only
    rw [← f.accepts_toTest, ← f.toTest.taken_eq max ahead, ← CharTest.examined]
    refine ⟨hparts.exists_asked_matchWhileBounded max min f.toTest,
      hparts.exists_asked_extendWhileBounded max min f.toTest, ?_⟩
    rintro rfl
    exact hparts.exists_asked_skipWhile f.toTest

/-- The digit stops the first scan and is asked about, by the first leaf only. The second scan has come to its bound
before it gets there. -/
theorem tests_asked_in_text_order_bound_reached :
    let t : Text := ⟨['a', 'é', '€', '1'], by decide⟩
    let c : Cursor := ⟨t, 0, 1⟩
    let f : Formula :=
      .both (.negate (.leaf "digit" isDigit)) (.either (.leaf "acute" (· == 'é')) (.leaf "any" fun _ => true))
    let alone : List Inquiry :=
      [⟨"digit", 'é'⟩, ⟨"acute", 'é'⟩, ⟨"digit", '€'⟩, ⟨"acute", '€'⟩, ⟨"any", '€'⟩]
    Reachable t c ∧
      (∃ o, c.matchWhileBounded 0 5 f.toTest = .ok o ∧ o.asked = alone ++ [⟨"digit", '1'⟩]) ∧
      (∃ o, c.matchWhileBounded 2 5 f.toTest = .ok o ∧ o.asked = alone) ∧
      ∃ o, c.matchCharIf f.toTest = .ok o ∧ o.asked = [⟨"digit", 'é'⟩, ⟨"acute", 'é'⟩] := by
  intro t c f alone
  have hreached : Reachable t c := reachable_iff.2 ⟨rfl, by decide, by decide, by decide⟩
  obtain ⟨-, ahead, hrest, hscans, hone⟩ := tests_asked_in_text_order hreached f
  have hahead : c.rest = .ok ['é', '€', '1'] := rfl
  obtain rfl : ahead = ['é', '€', '1'] := Except.ok.inj (hrest.symm.trans hahead)
  exact ⟨hreached, (hscans 0 5).1, (hscans 2 5).1, hone⟩

end Cursor

end TextCursor
