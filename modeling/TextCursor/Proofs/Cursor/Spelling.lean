import TextCursor.Proofs.Cursor.Reachability
import TextCursor.Proofs.Cursor.Succession

/-!
# A literal and its characters

A literal is compared with the text by bytes, and the index is moved by the number of its bytes. What it stands for is
its characters: it matches exactly if they stand ahead, which is to say if each of them can be matched where the one
before it ended (`Cursor.matchLiteral_spells_out`). It cannot match in front of a part of a character, because no
encoding of a character begins with another. Unlike the characters one by one, a literal that does not match as a whole
takes none of them.

A literal put together from two matches as one behind the other.
-/

set_option autoImplicit false

namespace TextCursor.Cursor

/-- A match of a literal beside matches of its characters in turn, whose outcomes are `os` and which end at `last`. -/
structure SpellsOut (c : Cursor) (literal : String) (ahead : List Char) (o : Outcome Bool) (os : List (Outcome Bool))
    (last : Cursor) : Prop where
  reply_iff_isPrefix : o.reply = true ↔ literal.toList <+: ahead
  reply_iff_each : o.reply = true ↔ ∀ p ∈ os, p.reply = true
  start_eq : o.reply = true → o.cursor.start = c.index
  index_eq : o.reply = true → o.cursor.index = last.index
  result_eq : o.reply = true → o.cursor.result = .ok literal
  unchanged : o.reply = false → o.cursor = c

namespace Parts

variable {c : Cursor} {before run ahead : List Char}

/-- Matches of characters in turn all succeed exactly if the characters stand ahead, and then end behind them. -/
theorem exists_matchChars (h : c.Parts before run ahead) (cs : List Char) :
    ∃ os last, c.inSuccession (cs.map fun ch next => next.matchChar ch) = .ok (os, last) ∧
      ((∀ p ∈ os, p.reply = true) ↔ cs <+: ahead) ∧ (cs <+: ahead → last.index = c.index + Utf8.width cs) := by
  -- by induction on the characters; whatever comes behind one that does not stand ahead cannot make up for it
  induction cs generalizing c before run ahead with
  | nil => exact ⟨[], c, rfl, by simp, by simp⟩
  | cons ch cs ih =>
    by_cases hhead : ahead.head? = some ch
    · obtain ⟨rest, rfl⟩ := List.head?_eq_some_iff.1 hhead
      obtain ⟨o, hmatch, hreply, hnext⟩ := h.exists_matchChar
      obtain ⟨os, last, hos, heach, hindex⟩ := ih hnext
      refine ⟨o :: os, last, inSuccession_cons hmatch hos, ?_, ?_⟩
      · simp [hreply, heach]
      · intro hprefix
        rw [hindex (List.cons_prefix_cons.1 hprefix).2, hnext.index_eq, h.index_eq]
        simp [Nat.add_assoc]
    · obtain ⟨o, hmatch, hreply, hcursor⟩ := h.matchChar_of_head?_ne hhead
      obtain ⟨os, last, hos, -, -⟩ := ih (hcursor ▸ h)
      have hnot : ¬ ch :: cs <+: ahead := by
        rintro ⟨rest, rfl⟩
        exact hhead rfl
      exact ⟨o :: os, last, inSuccession_cons hmatch hos, by simp [hreply, hnot], by simp [hnot]⟩

theorem spellsOut_of_stands {literal : String} {rest : List Char} (h : c.Parts before run (literal.toList ++ rest))
    {os : List (Outcome Bool)} {last : Cursor} (heach : ∀ p ∈ os, p.reply = true)
    (hindex : last.index = c.index + Utf8.width literal.toList) :
    c.SpellsOut literal (literal.toList ++ rest)
      ⟨true, c.acceptTo (c.index + Utf8.width literal.toList), [], []⟩ os last where
  reply_iff_isPrefix := iff_of_true rfl (List.prefix_append _ _)
  reply_iff_each := iff_of_true rfl heach
  start_eq _ := rfl
  index_eq _ := hindex.symm
  result_eq _ := by rw [h.parts_acceptTo.result_eq, String.ofList_toList]
  unchanged hreply := nomatch hreply

theorem spellsOut_of_not_isPrefix {literal : String} (hnot : ¬ literal.toList <+: ahead)
    {os : List (Outcome Bool)} (heach : ¬ ∀ p ∈ os, p.reply = true) (last : Cursor) :
    c.SpellsOut literal ahead ⟨false, c, [], []⟩ os last where
  reply_iff_isPrefix := iff_of_false Bool.false_ne_true hnot
  reply_iff_each := iff_of_false Bool.false_ne_true heach
  start_eq hreply := nomatch hreply
  index_eq hreply := nomatch hreply
  result_eq hreply := nomatch hreply
  unchanged _ := rfl

theorem exists_spellsOut (h : c.Parts before run ahead) (literal : String) :
    ∃ o os last, c.matchLiteral literal = .ok o ∧
      c.inSuccession (literal.toList.map fun ch next => next.matchChar ch) = .ok (os, last) ∧
      c.SpellsOut literal ahead o os last := by
  obtain ⟨os, last, hos, heach, hindex⟩ := h.exists_matchChars literal.toList
  by_cases hprefix : literal.toList <+: ahead
  · have hreplies := heach.2 hprefix
    have hlast := hindex hprefix
    obtain ⟨rest, rfl⟩ := hprefix
    exact ⟨_, os, last, h.matchLiteral_of_stands, hos, h.spellsOut_of_stands hreplies hlast⟩
  · have hreplies := mt heach.1 hprefix
    exact ⟨_, os, last, h.matchLiteral_of_not_isPrefix hprefix, hos, spellsOut_of_not_isPrefix hprefix hreplies last⟩

/-- Two literals match one behind the other exactly if they match as one, and end where it ends. -/
theorem exists_matchLiteral_append (h : c.Parts before run ahead) (a b : String) :
    ∃ first second both, c.matchLiteral a = .ok first ∧ first.cursor.matchLiteral b = .ok second ∧
      c.matchLiteral (a ++ b) = .ok both ∧ (both.reply = true ↔ first.reply = true ∧ second.reply = true) ∧
      (both.reply = true → second.cursor.index = both.cursor.index) := by
  -- by whether the first literal stands ahead and the second behind it
  by_cases ha : a.toList <+: ahead
  · obtain ⟨rest, rfl⟩ := ha
    have hfirst := h.matchLiteral_of_stands
    have hbehind := h.parts_acceptTo
    by_cases hb : b.toList <+: rest
    · obtain ⟨rest, rfl⟩ := hb
      have hjoined : c.Parts before run ((a ++ b).toList ++ rest) := by
        rwa [String.toList_append, List.append_assoc]
      have hboth := hjoined.matchLiteral_of_stands
      exact ⟨_, _, _, hfirst, hbehind.matchLiteral_of_stands, hboth, by simp, by simp [acceptTo, Nat.add_assoc]⟩
    · have hboth : ¬ (a ++ b).toList <+: a.toList ++ rest := by
        rwa [String.toList_append, List.prefix_append_right_inj]
      exact ⟨_, _, _, hfirst, hbehind.matchLiteral_of_not_isPrefix hb, h.matchLiteral_of_not_isPrefix hboth,
        by simp [refuse], by simp [refuse]⟩
  · have hboth : ¬ (a ++ b).toList <+: ahead := by
      rw [String.toList_append]
      exact fun hprefix => ha ((List.prefix_append _ _).trans hprefix)
    exact ⟨_, _, _, h.matchLiteral_of_not_isPrefix ha, h.matchLiteral_eq b, h.matchLiteral_of_not_isPrefix hboth,
      by simp [refuse], by simp [refuse]⟩

end Parts

/-- From any place that can be reached: a literal matches exactly if its characters stand ahead, and exactly if a match
of each of them in turn succeeds. It is then the result, and the index is where the characters lead; if it does not
match, nothing changes. Two literals joined match exactly if the first matches and the second matches behind it. -/
theorem matchLiteral_spells_out {t : Text} {c : Cursor} (h : Reachable t c) :
    ∃ ahead, c.rest = .ok ahead ∧
      (∀ literal : String, ∃ o os last, c.matchLiteral literal = .ok o ∧
        c.inSuccession (literal.toList.map fun ch next => next.matchChar ch) = .ok (os, last) ∧
        c.SpellsOut literal ahead o os last) ∧
      ∀ a b : String, ∃ first second both, c.matchLiteral a = .ok first ∧ first.cursor.matchLiteral b = .ok second ∧
        c.matchLiteral (a ++ b) = .ok both ∧ (both.reply = true ↔ first.reply = true ∧ second.reply = true) ∧
        (both.reply = true → second.cursor.index = both.cursor.index) := by
  obtain ⟨-, hwell⟩ := reachable_iff.1 h
  obtain ⟨before, run, ahead, hparts⟩ := wellFormed_iff_exists_parts.1 hwell
  exact ⟨ahead, hparts.rest_eq, hparts.exists_spellsOut, hparts.exists_matchLiteral_append⟩

/-- The literal ends in a letter of two bytes, the text goes on with another that has the same first byte. The first
letter of the literal can be matched, the literal cannot. -/
theorem matchLiteral_spells_out_shared_byte :
    let t : Text := ⟨['a', '€', 'é'], by decide⟩
    let c : Cursor := ⟨t, 0, 1⟩
    Reachable t c ∧
      (∃ o os last, c.matchLiteral "€é" = .ok o ∧ c.inSuccession [(matchChar · '€'), (matchChar · 'é')] = .ok (os, last) ∧
        o.reply = true ∧ o.cursor.index = 6 ∧ c.SpellsOut "€é" ['€', 'é'] o os last) ∧
      ∃ o os last, c.matchLiteral "€è" = .ok o ∧ c.inSuccession [(matchChar · '€'), (matchChar · 'è')] = .ok (os, last) ∧
        o.reply = false ∧ last.index = 4 ∧ c.SpellsOut "€è" ['€', 'é'] o os last := by
  intro t c
  have hreached : Reachable t c := reachable_iff.2 ⟨rfl, by decide, by decide, by decide⟩
  obtain ⟨ahead, hrest, hspells, -⟩ := matchLiteral_spells_out hreached
  have hahead : c.rest = .ok ['€', 'é'] := rfl
  obtain rfl : ahead = ['€', 'é'] := Except.ok.inj (hrest.symm.trans hahead)
  have hstands : c.matchLiteral "€é" = .ok ⟨true, ⟨t, 1, 6⟩, [], []⟩ := rfl
  have hfails : c.matchLiteral "€è" = .ok ⟨false, c, [], []⟩ := rfl
  have hcalls : c.inSuccession [(matchChar · '€'), (matchChar · 'è')] =
      .ok ([⟨true, ⟨t, 1, 4⟩, [], []⟩, ⟨false, ⟨t, 1, 4⟩, [], []⟩], ⟨t, 1, 4⟩) := rfl
  obtain ⟨o, os, last, hmatch, hturn, hspell⟩ := hspells "€é"
  obtain rfl := Except.ok.inj (hmatch.symm.trans hstands)
  obtain ⟨o', os', last', hmatch', hturn', hspell'⟩ := hspells "€è"
  obtain rfl := Except.ok.inj (hmatch'.symm.trans hfails)
  obtain ⟨rfl, rfl⟩ := Prod.mk.inj (Except.ok.inj (hturn'.symm.trans hcalls))
  exact ⟨hreached, ⟨_, os, last, hmatch, hturn, rfl, rfl, hspell⟩, _, _, _, hmatch', hturn', rfl, rfl, hspell'⟩

end TextCursor.Cursor
