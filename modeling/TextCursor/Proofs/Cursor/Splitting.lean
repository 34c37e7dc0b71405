import TextCursor.Proofs.Cursor.Effect
import TextCursor.Proofs.Cursor.Reachability
import TextCursor.Proofs.Cursor.Repetition

/-!
# Splitting a text at a delimiter

A turn of the loop skips to the delimiter, takes what was skipped as a piece, and goes on if the delimiter can be
matched there. Whatever the text and the delimiter, the loop ends, and its pieces are what the text falls into: joined
by the delimiter they are the text, and none of them contains it (`Cursor.splitTurn_splits`).

That no piece contains the delimiter rests on the search for the *first* place where it stands, also where places
overlap. That the loop ends rests on the delimiter not being empty: every turn but the last takes it from what is left.
-/

set_option autoImplicit false

namespace TextCursor

/-- Characters fall into pieces at a delimiter. -/
structure SplitsInto (delimiter cs : List Char) (pieces : List (List Char)) : Prop where
  ne_nil : pieces ≠ []
  intercalate_eq : delimiter.intercalate pieces = cs
  not_isInfix : ∀ piece ∈ pieces, ¬ delimiter <:+: piece

namespace SplitsInto

variable {delimiter cs piece : List Char} {pieces : List (List Char)}

/-- Where the delimiter does not stand, all is one piece. -/
theorem single (h : ¬ delimiter <:+: cs) : SplitsInto delimiter cs [cs] where
  ne_nil := List.cons_ne_nil _ _
  intercalate_eq := List.intercalate_singleton
  not_isInfix := List.forall_mem_singleton.2 h

/-- One piece more in front. -/
theorem cons (h : SplitsInto delimiter cs pieces) (hpiece : ¬ delimiter <:+: piece) :
    SplitsInto delimiter (piece ++ (delimiter ++ cs)) (piece :: pieces) where
  ne_nil := List.cons_ne_nil _ _
  intercalate_eq := by rw [List.intercalate_cons_of_ne_nil h.ne_nil, h.intercalate_eq, List.append_assoc]
  not_isInfix := List.forall_mem_cons.2 ⟨hpiece, h.not_isInfix⟩

end SplitsInto

/-- Between the pieces there is one delimiter less than there are pieces, and all of them take room. -/
theorem Utf8.length_mul_width_le_width_intercalate (delimiter : List Char) (pieces : List (List Char)) :
    pieces.length * width delimiter ≤ width (delimiter.intercalate pieces) + width delimiter := by
  induction pieces with
  | nil => simp
  | cons piece pieces ih =>
    by_cases hlast : pieces = []
    · subst hlast
      simp
    · rw [List.intercalate_cons_of_ne_nil hlast, List.length_cons, Nat.succ_mul]
      simp only [width_append]
      omega

namespace Cursor

def splitTurn (delimiter : String) (c : Cursor) : Except Breach (Turn String) := do
  let skipped ← c.skipToLiteral delimiter
  let piece ← skipped.cursor.result
  let stopped ← skipped.cursor.matchLiteral delimiter
  return ⟨piece, stopped.reply, stopped.cursor⟩

namespace Parts

variable {c : Cursor} {before run ahead piece rest : List Char} {delimiter : String}

/-- A turn takes what stands before the first place of the delimiter, and the delimiter behind it. -/
theorem exists_splitTurn_of_some (h : c.Parts before run ahead)
    (hfound : Utf8.charsBefore? delimiter.toList ahead = some piece)
    (hahead : ahead = piece ++ (delimiter.toList ++ rest)) :
    ∃ turn, c.splitTurn delimiter = .ok turn ∧ turn.item = String.ofList piece ∧ turn.goesOn = true ∧
      turn.cursor.Parts (before ++ run ++ piece) delimiter.toList rest := by
  subst hahead
  have hskip := h.skipToLiteral_eq delimiter
  rw [hfound, Option.getD_some] at hskip
  have hskipped := h.parts_acceptTo
  have hmatch := hskipped.matchLiteral_of_stands
  refine ⟨⟨String.ofList piece, true, _⟩, ?_, rfl, rfl, hskipped.parts_acceptTo⟩
  rw [splitTurn, hskip]
  dsimp only [skipped, bind, Except.bind]
  rw [hskipped.result_eq, hmatch]
  rfl

/-- Where the delimiter does not stand any more, a turn takes everything and the loop stops. -/
theorem exists_splitTurn_of_none (h : c.Parts before run ahead)
    (hnone : Utf8.charsBefore? delimiter.toList ahead = none) :
    ∃ turn, c.splitTurn delimiter = .ok turn ∧ turn.item = String.ofList ahead ∧ turn.goesOn = false ∧
      turn.cursor.Parts (before ++ run) ahead [] := by
  have hskip := h.skipToLiteral_eq delimiter
  rw [hnone, Option.getD_none] at hskip
  have hall : c.Parts before run (ahead ++ []) := by rwa [List.append_nil]
  have hskipped := hall.parts_acceptTo
  have hnot : ¬ delimiter.toList <+: [] := by
    intro hprefix
    have hinfix := Utf8.not_isInfix_of_charsBefore?_eq_none hnone
    rw [List.prefix_nil.1 hprefix] at hinfix
    exact hinfix List.nil_infix
  have hmatch := hskipped.matchLiteral_of_not_isPrefix hnot
  refine ⟨⟨String.ofList ahead, false, _⟩, ?_, rfl, rfl, hskipped⟩
  rw [splitTurn, hskip]
  dsimp only [skipped, bind, Except.bind]
  rw [hskipped.result_eq, hmatch]
  rfl

/-- The turns take the pieces between the delimiters and come to an end at the end of the text. -/
theorem exists_repeats_splitTurn (h : c.Parts before run ahead) (hne : delimiter ≠ "") :
    ∃ pieces last before' run', SplitsInto delimiter.toList ahead pieces ∧
      Repeats (splitTurn delimiter) c (pieces.map String.ofList) last ∧ last.Parts before' run' [] := by
  have hdelimiter : delimiter.toList ≠ [] := mt String.toList_eq_nil_iff.1 hne
  have hpos : 0 < delimiter.toList.length := List.length_pos_iff.2 hdelimiter
  -- by induction on the number of characters left: a delimiter has at least one of them
  induction hleft : ahead.length using Nat.strongRecOn generalizing c before run ahead with
  | ind left ih =>
    cases hfound : Utf8.charsBefore? delimiter.toList ahead with
    | none =>
      obtain ⟨turn, hturn, hitem, hstop, hend⟩ := h.exists_splitTurn_of_none hfound
      refine ⟨[ahead], turn.cursor, _, _, .single (Utf8.not_isInfix_of_charsBefore?_eq_none hfound), ?_, hend⟩
      rw [List.map_singleton, ← hitem]
      exact .stop hturn hstop
    | some piece =>
      obtain ⟨rest, hahead⟩ := Utf8.exists_of_charsBefore?_eq_some hfound
      obtain ⟨turn, hturn, hitem, hagain, hparts⟩ := h.exists_splitTurn_of_some hfound hahead
      have hless : rest.length < left := by
        rw [← hleft, hahead]
        simp only [List.length_append]
        omega
      obtain ⟨pieces, last, before', run', hsplits, hrest, hend⟩ := ih rest.length hless hparts rfl
      refine ⟨piece :: pieces, last, before', run', ?_, ?_, hend⟩
      · rw [hahead]
        exact hsplits.cons (Utf8.not_isInfix_of_charsBefore?_eq_some hdelimiter hfound)
      · rw [List.map_cons, ← hitem]
        exact .again hturn hagain hrest

end Parts

/-- Splitting loses nothing and ends: from the beginning of any text and for any delimiter that is not empty, the loop
comes to one list of pieces, with no more turns than delimiters fit the text and one, and with nothing left. The pieces
joined by the delimiter are the text, and no piece contains the delimiter. -/
theorem splitTurn_splits (t : Text) {delimiter : String} (hne : delimiter ≠ "") :
    ∃ (pieces : List String) (last : Cursor),
      (∀ items stop, Repeats (splitTurn delimiter) (ofText t) items stop ↔ items = pieces ∧ stop = last) ∧
      pieces.length ≤ t.length / delimiter.utf8ByteSize + 1 ∧
      last.isAtEnd = true ∧
      delimiter.intercalate pieces = t.content ∧
      ∀ piece ∈ pieces, ¬ delimiter.toList <:+: piece.toList := by
  obtain ⟨pieces, last, before, run, hsplits, hrepeats, hend⟩ := (Parts.ofText t).exists_repeats_splitTurn hne
  have hsize : delimiter.utf8ByteSize = Utf8.width delimiter.toList := by
    rw [← Utf8.utf8ByteSize_ofList, String.ofList_toList]
  have hpos : 0 < Utf8.width delimiter.toList :=
    Nat.pos_of_ne_zero (mt Utf8.width_eq_zero_iff.1 (mt String.toList_eq_nil_iff.1 hne))
  refine ⟨pieces.map String.ofList, last, ?_, ?_, hend.isAtEnd_eq, ?_, ?_⟩
  · intro items stop
    constructor
    · exact hrepeats.unique
    · rintro ⟨rfl, rfl⟩
      exact hrepeats
  · have hroom := Utf8.length_mul_width_le_width_intercalate delimiter.toList pieces
    rw [hsplits.intercalate_eq] at hroom
    rw [hsize, List.length_map, Text.length, ← Nat.add_div_right _ hpos, Nat.le_div_iff_mul_le hpos]
    exact hroom
  · have hmap : (pieces.map String.ofList).map String.toList = pieces := by simp
    rw [← String.toList_inj, String.toList_intercalate, hmap, hsplits.intercalate_eq, Text.content,
      String.toList_ofList]
  · intro piece hmem
    obtain ⟨chars, hchars, rfl⟩ := List.mem_map.1 hmem
    rw [String.toList_ofList]
    exact hsplits.not_isInfix chars hchars

/-- A delimiter that overlaps itself. It is found at the beginning, and at the first of the two places where it stands
behind the letter of two bytes; what is left of the second place is the last piece. -/
theorem splitTurn_splits_overlapping :
    let t : Text := ⟨"aaéaaa".toList, by decide⟩
    "aa" ≠ "" ∧ ∃ last : Cursor,
      (∀ items stop, Repeats (splitTurn "aa") (ofText t) items stop ↔ items = ["", "é", "a"] ∧ stop = last) ∧
      ["", "é", "a"].length ≤ t.length / "aa".utf8ByteSize + 1 ∧ last.isAtEnd = true ∧
      "aa".intercalate ["", "é", "a"] = t.content ∧ ∀ piece ∈ ["", "é", "a"], ¬ "aa".toList <:+: piece.toList := by
  intro t
  have hne : "aa" ≠ "" := by decide
  obtain ⟨pieces, last, hloop, hsplits⟩ := splitTurn_splits t hne
  have hfirst : splitTurn "aa" (ofText t) = .ok ⟨"", true, ⟨t, 0, 2⟩⟩ := rfl
  have hsecond : splitTurn "aa" ⟨t, 0, 2⟩ = .ok ⟨"é", true, ⟨t, 4, 6⟩⟩ := rfl
  have hthird : splitTurn "aa" ⟨t, 4, 6⟩ = .ok ⟨"a", false, ⟨t, 6, 7⟩⟩ := rfl
  have hturns : Repeats (splitTurn "aa") (ofText t) ["", "é", "a"] ⟨t, 6, 7⟩ :=
    .again hfirst rfl (.again hsecond rfl (.stop hthird rfl))
  obtain ⟨rfl, rfl⟩ := (hloop _ _).1 hturns
  exact ⟨hne, _, hloop, hsplits⟩

end Cursor

end TextCursor
