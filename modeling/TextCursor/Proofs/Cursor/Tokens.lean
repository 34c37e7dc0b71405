import TextCursor.Proofs.Cursor.Reachability
import TextCursor.Proofs.Observation

/-!
# Tokens cover what was consumed

A reader of a text that works with a cursor takes the result after each operation and has a list of tokens. An operation
that takes something adds the new result to the list; one that extends the result replaces the last token by it; one
that gives the result up leaves an empty token in its place; one that stays changes nothing.

`Cursor.tokenize` keeps this list beside the cursor through a run of operations. Whatever the operations are, and
whether they succeed or fail, the tokens joined are the text between the place where the run began and the index, and
the last of them is the result (`Cursor.tokens_cover_consumed`). Only the setters are left out: they go where their
caller says.
-/

set_option autoImplicit false

namespace TextCursor

/-- The tokens after a move, from the tokens before it and the result after it. -/
def Move.tokens (m : Move) (result : String) (tokens : List String) : List String :=
  match m with
  | take => tokens ++ [result]
  | extend => tokens.dropLast ++ [result]
  | giveUp => tokens.dropLast ++ [""]
  | stay => tokens

/-- A cursor with the tokens read so far. -/
structure Reader where
  cursor : Cursor
  tokens : List String
deriving DecidableEq, Repr

namespace Reader

def step (r : Reader) (op : Operation) : Except Breach Reader := do
  let o ← op.run r.cursor
  return ⟨o.cursor, (op.move o.reply).tokens (← o.cursor.result) r.tokens⟩

def run (r : Reader) : List Operation → Except Breach Reader
  | [] => .ok r
  | op :: ops => do (← r.step op).run ops

end Reader

/-- Reads tokens from a cursor on; its result is the first of them. -/
def Cursor.tokenize (c : Cursor) (ops : List Operation) : Except Breach Reader := do
  Reader.run ⟨c, [← c.result]⟩ ops

namespace Reader

/-- The tokens lie one after the other behind `front`, the last of them is the result, and the rest stands ahead. -/
structure Tiles (r : Reader) (front : List Char) (earlier : List String) (last ahead : List Char) : Prop where
  parts : r.cursor.Parts (front ++ (String.join earlier).toList) last ahead
  tokens_eq : r.tokens = earlier ++ [String.ofList last]

variable {r : Reader} {front last ahead : List Char} {earlier : List String}

/-- One step: the tokens go on covering the text from the same place. -/
theorem Tiles.exists_step (h : r.Tiles front earlier last ahead) {op : Operation} (hop : op.isSetter = false) :
    ∃ o next earlier' last' ahead', op.run r.cursor = .ok o ∧ r.step op = .ok next ∧ next.cursor = o.cursor ∧
      next.Tiles front earlier' last' ahead' := by
  obtain ⟨o, hrun, hmove⟩ := op.exists_move h.parts hop
  have hstep {result : String} (hresult : o.cursor.result = .ok result) :
      r.step op = .ok ⟨o.cursor, (op.move o.reply).tokens result r.tokens⟩ := by
    simp [step, hrun, hresult, bind, Except.bind, pure, Except.pure]
  have htokens := h.tokens_eq
  -- the place in front of the first token never moves; each kind of move only shifts what lies behind it
  cases hkind : op.move o.reply with
  | take =>
    rw [hkind] at hmove hstep
    obtain ⟨taken, rest, -, hparts⟩ := hmove
    refine ⟨o, _, earlier ++ [String.ofList last], taken, rest, hrun, hstep hparts.result_eq, rfl, ?_, ?_⟩
    · simpa using hparts
    · simp [Move.tokens, htokens]
  | extend =>
    rw [hkind] at hmove hstep
    obtain ⟨taken, rest, -, hparts⟩ := hmove
    refine ⟨o, _, earlier, last ++ taken, rest, hrun, hstep hparts.result_eq, rfl, hparts, ?_⟩
    simp [Move.tokens, htokens]
  | giveUp =>
    rw [hkind] at hmove hstep
    have hparts : o.cursor.Parts (front ++ (String.join earlier).toList) [] (last ++ ahead) := hmove
    refine ⟨o, _, earlier, [], last ++ ahead, hrun, hstep hparts.result_eq, rfl, hparts, ?_⟩
    simp [Move.tokens, htokens]
  | stay =>
    rw [hkind] at hmove hstep
    have hcursor : o.cursor = r.cursor := hmove
    have hparts : o.cursor.Parts (front ++ (String.join earlier).toList) last ahead := by rw [hcursor]; exact h.parts
    exact ⟨o, _, earlier, last, ahead, hrun, hstep hparts.result_eq, rfl, hparts, htokens⟩

/-- The tokens go on covering what has been consumed through a run. -/
theorem Tiles.exists_run (h : r.Tiles front earlier last ahead) {ops : List Operation}
    (hops : ∀ op ∈ ops, op.isSetter = false) :
    ∃ close earlier' last' ahead', r.run ops = .ok close ∧ r.cursor.after ops = .ok close.cursor ∧
      close.Tiles front earlier' last' ahead' := by
  -- by induction on the operations; the place in front of the first token is fixed
  induction ops generalizing r earlier last ahead with
  | nil => exact ⟨r, earlier, last, ahead, rfl, rfl, h⟩
  | cons op ops ih =>
    obtain ⟨o, next, _, _, _, hrun, hstep, hcursor, hnext⟩ := h.exists_step (hops op List.mem_cons_self)
    obtain ⟨close, earlier', last', ahead', hruns, hafter, hend⟩ :=
      ih hnext fun op hop => hops op (List.mem_cons_of_mem _ hop)
    refine ⟨close, earlier', last', ahead', ?_, ?_, hend⟩
    · rw [Reader.run, hstep]
      exact hruns
    · rw [Cursor.after, hrun]
      rw [hcursor] at hafter
      exact hafter

end Reader

namespace Cursor

/-- From any place that can be reached, a run of operations that set no offset goes through. The last token is the
result, and the tokens joined are the text from the start where the run began up to the index where it ended. -/
theorem tokens_cover_consumed {t : Text} {c : Cursor} (h : Reachable t c) {ops : List Operation}
    (hops : ∀ op ∈ ops, op.isSetter = false) :
    ∃ r : Reader, c.tokenize ops = .ok r ∧ c.after ops = .ok r.cursor ∧
      (∃ last, r.tokens.getLast? = some last ∧ r.cursor.result = .ok last) ∧
      c.substring c.start r.cursor.index = .ok (.ok (String.join r.tokens)) := by
  obtain ⟨-, hwell⟩ := reachable_iff.1 h
  obtain ⟨front, run, ahead, hparts⟩ := wellFormed_iff_exists_parts.1 hwell
  have hfirst : (⟨c, [String.ofList run]⟩ : Reader).Tiles front [] run ahead := ⟨by simpa using hparts, rfl⟩
  obtain ⟨r, earlier, last, ahead', hruns, hafter, htiles⟩ := hfirst.exists_run hops
  refine ⟨r, ?_, hafter, ⟨String.ofList last, ?_, htiles.parts.result_eq⟩, ?_⟩
  · rw [tokenize, hparts.result_eq]
    exact hruns
  · rw [htiles.tokens_eq]
    exact List.getLast?_concat
  · obtain ⟨close, hclose, htext, -⟩ := hwell.exists_after ops
    obtain rfl : close = r.cursor := Except.ok.inj (hclose.symm.trans hafter)
    have hchars : c.text.chars = front ++ ((String.join earlier).toList ++ last) ++ ahead' := by
      rw [← htext, htiles.parts.chars_eq]
      simp only [List.append_assoc]
    have hjoin : String.join r.tokens = String.ofList ((String.join earlier).toList ++ last) := by
      rw [htiles.tokens_eq, String.join_append, String.ofList_append, String.ofList_toList]
      simp
    have hindex : r.cursor.index = Utf8.width (front ++ ((String.join earlier).toList ++ last)) := by
      rw [htiles.parts.index_eq, List.append_assoc]
    rw [hparts.start_eq, hindex, hjoin]
    exact substring_of_parts hchars

/-- A run in which a match is given up by a failed extension, everything is taken and taken back, and then the two letters
are taken one by one. What was given up or taken back has left an empty token. -/
theorem tokens_cover_consumed_given_up :
    let t : Text := ⟨['a', 'é'], by decide⟩
    let ops := [.tryMatch (.char 'a'), .extend (.whileBounded 0 1 .digit), .skip .toEnd, .revert, .nextChar, .nextChar]
    let r : Reader := ⟨⟨t, 1, 3⟩, ["", "", "", "a", "é"]⟩
    Reachable t (ofText t) ∧ (∀ op ∈ ops, op.isSetter = false) ∧
      (ofText t).tokenize ops = .ok r ∧ (ofText t).after ops = .ok r.cursor ∧
        (∃ last, r.tokens.getLast? = some last ∧ r.cursor.result = .ok last) ∧
        (ofText t).substring 0 3 = .ok (.ok (String.join r.tokens)) ∧ String.join r.tokens = "aé" := by
  intro t ops r
  have hops : ∀ op ∈ ops, op.isSetter = false := by simp [ops, Operation.isSetter]
  have htokens : (ofText t).tokenize ops = .ok r := rfl
  obtain ⟨close, hread, hafter, hlast, hjoin⟩ := tokens_cover_consumed (.ofText : Reachable t _) hops
  obtain rfl : close = r := Except.ok.inj (hread.symm.trans htokens)
  exact ⟨.ofText, hops, htokens, hafter, hlast, hjoin, rfl⟩

end Cursor

end TextCursor
