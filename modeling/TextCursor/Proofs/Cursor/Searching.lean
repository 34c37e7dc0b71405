import TextCursor.Proofs.Cursor.Reachability
import TextCursor.Proofs.Utf8.Boundary
import TextCursor.Proofs.Utf8.Search

/-!
# Where a search stops

The searches for a character and for a literal look for bytes, by different routes: nothing is looked for if the literal
is empty, one byte if it is one character of ASCII, and its encoding otherwise. All routes keep one law, and it is about
characters: the search stops at the least boundary from which on the literal stands in the text, or at the end of the
text if there is none (`Cursor.searches_stop_at_first_place`). So a literal that was found can be matched at once, and
looking for a character is the same as skipping all others.

Of the searches over bytes no more is used than that they answer with the least offset (`Utf8.ByteSearch.FindsLeast`).
-/

set_option autoImplicit false

namespace TextCursor

namespace Text

/-- The boundaries from `first` on at which the literal stands: the characters of the text from there on begin with it. -/
def placesFrom (t : Text) (first : Nat) (literal : List Char) : Set Nat :=
  {place | first ≤ place ∧ ∃ ahead, Utf8.sliceFrom t.chars place = .ok ahead ∧ literal <+: ahead}

/-- Where a search for the literal from `first` on has to stop. -/
structure IsSearchEnd (t : Text) (first : Nat) (literal : List Char) (stop : Nat) : Prop where
  isLeast : (t.placesFrom first literal).Nonempty → IsLeast (t.placesFrom first literal) stop
  eq_length : t.placesFrom first literal = ∅ → stop = t.length

end Text

namespace Cursor.Parts

variable {c : Cursor} {before run ahead : List Char}

/-- The places ahead of a cursor, by the characters that are passed over on the way there. -/
theorem mem_placesFrom_iff (h : c.Parts before run ahead) {literal : List Char} {place : Nat} :
    place ∈ c.text.placesFrom c.index literal ↔
      ∃ passed rest, ahead = passed ++ (literal ++ rest) ∧ place = c.index + Utf8.width passed := by
  constructor
  · rintro ⟨hle, after, hslice, rest, rfl⟩
    obtain ⟨front, hfront, rfl⟩ := Utf8.sliceFrom_eq_ok_iff.1 hslice
    rw [h.chars_eq] at hfront
    rw [h.index_eq] at hle
    obtain ⟨passed, rfl, hahead⟩ := Utf8.exists_append_of_width_le hfront hle
    exact ⟨passed, rest, hahead, by rw [h.index_eq, Utf8.width_append]⟩
  · rintro ⟨passed, rest, hahead, rfl⟩
    have hchars : c.text.chars = (before ++ run ++ passed) ++ (literal ++ rest) := by
      rw [h.chars_eq, hahead, ← List.append_assoc]
    have hwidth : Utf8.width (before ++ run ++ passed) = c.index + Utf8.width passed := by
      rw [Utf8.width_append, h.index_eq]
    exact ⟨Nat.le_add_right _ _, literal ++ rest, Utf8.sliceFrom_eq_ok_iff.2 ⟨_, hchars, hwidth⟩,
      List.prefix_append _ _⟩

/-- The characters in front of the first place lead to the least one, and where there is none all characters lead to the
end. -/
theorem isSearchEnd (h : c.Parts before run ahead) (literal : List Char) :
    c.text.IsSearchEnd c.index literal
      (c.index + Utf8.width ((Utf8.charsBefore? literal ahead).getD ahead)) := by
  cases hfound : Utf8.charsBefore? literal ahead with
  | some front =>
    obtain ⟨rest, hahead⟩ := Utf8.exists_of_charsBefore?_eq_some hfound
    have hplace : c.index + Utf8.width front ∈ c.text.placesFrom c.index literal :=
      h.mem_placesFrom_iff.2 ⟨front, rest, hahead, rfl⟩
    constructor
    · intro _
      refine ⟨hplace, ?_⟩
      intro place hmem
      obtain ⟨passed, others, hpassed, rfl⟩ := h.mem_placesFrom_iff.1 hmem
      rw [hpassed] at hfound
      obtain ⟨between, rfl⟩ := Utf8.charsBefore?_isPrefix_of_stands hfound
      rw [Utf8.width_append, Option.getD_some]
      omega
    · intro hnone
      rw [hnone] at hplace
      exact hplace.elim
  | none =>
    constructor
    · rintro ⟨place, hmem⟩
      obtain ⟨passed, rest, hahead, -⟩ := h.mem_placesFrom_iff.1 hmem
      exact absurd ⟨passed, rest, by rw [hahead, List.append_assoc]⟩ (Utf8.not_isInfix_of_charsBefore?_eq_none hfound)
    · intro _
      exact h.length_eq_index_add.symm

/-- A search for a literal stops where it has to, and where it has found the literal it can be matched. -/
theorem exists_skipToLiteral (h : c.Parts before run ahead) (literal : String) :
    ∃ o, c.skipToLiteral literal = .ok o ∧ o.cursor.text = c.text ∧ o.cursor.start = c.index ∧
      c.text.IsSearchEnd c.index literal.toList o.cursor.index ∧
      ((c.text.placesFrom c.index literal.toList).Nonempty →
        ∃ found, o.cursor.matchLiteral literal = .ok found ∧ found.reply = true) := by
  refine ⟨_, h.skipToLiteral_eq literal, rfl, rfl, h.isSearchEnd literal.toList, ?_⟩
  rintro ⟨place, hmem⟩
  obtain ⟨passed, rest, hahead, -⟩ := h.mem_placesFrom_iff.1 hmem
  cases hfound : Utf8.charsBefore? literal.toList ahead with
  | none =>
    exact absurd ⟨passed, rest, by rw [hahead, List.append_assoc]⟩ (Utf8.not_isInfix_of_charsBefore?_eq_none hfound)
  | some front =>
    obtain ⟨others, hfront⟩ := Utf8.exists_of_charsBefore?_eq_some hfound
    rw [hfront] at h
    exact ⟨_, h.parts_acceptTo.matchLiteral_of_stands, rfl⟩

/-- Looking for a character is skipping all others. -/
theorem exists_skipToChar (h : c.Parts before run ahead) (ch : Char) :
    ∃ o₁ o₂ o₃, c.skipToChar ch = .ok o₁ ∧ c.skipToLiteral (String.singleton ch) = .ok o₂ ∧
      c.skipWhile (.holds (· != ch)) = .ok o₃ ∧ o₁.cursor = o₂.cursor ∧ o₁.cursor = o₃.cursor := by
  have hliteral := h.skipToLiteral_eq (String.singleton ch)
  have hwhile := h.skipWhile_eq (.holds (· != ch))
  have htaken : (CharTest.holds (· != ch)).taken 0 ahead = ahead.takeWhile (· != ch) := CharTest.taken_eq _ 0 ahead
  rw [htaken, ← Utf8.charsBefore?_singleton_getD] at hwhile
  rw [String.toList_singleton] at hliteral
  exact ⟨_, _, _, h.skipToChar_eq ch, hliteral, hwhile, rfl, rfl⟩

end Cursor.Parts

namespace Cursor

/-- From any place that can be reached and with any searches that answer with the least offset: a search for a literal
makes what it passes over the result and stops at the first place where the literal stands, or at the end if there is
none; and a literal that was found can be matched there. A search for one character, a search for it as a literal and a
skip over all other characters end in the same place. -/
theorem searches_stop_at_first_place {search : Utf8.ByteSearch} (hsearch : search.FindsLeast) {t : Text} {c : Cursor}
    (h : Reachable t c) :
    (∀ literal : String, ∃ o, c.skipToLiteralBy search literal = .ok o ∧ o.cursor.text = t ∧ o.cursor.start = c.index ∧
      t.IsSearchEnd c.index literal.toList o.cursor.index ∧
      ((t.placesFrom c.index literal.toList).Nonempty →
        ∃ found, o.cursor.matchLiteral literal = .ok found ∧ found.reply = true)) ∧
    ∀ ch, ∃ o₁ o₂ o₃, c.skipToCharBy search ch = .ok o₁ ∧ c.skipToLiteralBy search (String.singleton ch) = .ok o₂ ∧
      c.skipWhile (.holds (· != ch)) = .ok o₃ ∧ o₁.cursor = o₂.cursor ∧ o₁.cursor = o₃.cursor := by
  obtain rfl := hsearch.eq_least
  obtain ⟨rfl, hwell⟩ := reachable_iff.1 h
  obtain ⟨before, run, ahead, hparts⟩ := wellFormed_iff_exists_parts.1 hwell
  exact ⟨hparts.exists_skipToLiteral, hparts.exists_skipToChar⟩

/-- Letters of two bytes that share one byte each with the first letter of the literal, and a place where the literal
only begins. -/
theorem searches_stop_at_first_place_shared_bytes :
    let t : Text := ⟨"aÃ©éèéé".toList, by decide⟩
    Utf8.ByteSearch.least.FindsLeast ∧ Reachable t (ofText t) ∧
      ∃ o, (ofText t).skipToLiteralBy .least "éé" = .ok o ∧ o.cursor.index = 9 ∧ t.IsSearchEnd 0 "éé".toList 9 ∧
        ∃ found, o.cursor.matchLiteral "éé" = .ok found ∧ found.reply = true := by
  intro t
  have hreached : Reachable t (ofText t) := .ofText
  have hsearch := Utf8.ByteSearch.findsLeast_least
  obtain ⟨o, hskip, -, -, hstop, hmatch⟩ := (searches_stop_at_first_place hsearch hreached).1 "éé"
  have hnine : (ofText t).skipToLiteralBy .least "éé" = .ok ⟨(), ⟨t, 0, 9⟩, [], []⟩ := rfl
  obtain rfl := Except.ok.inj (hskip.symm.trans hnine)
  have hplace : 9 ∈ t.placesFrom 0 "éé".toList := ⟨Nat.zero_le _, "éé".toList, by decide, List.prefix_rfl⟩
  exact ⟨hsearch, hreached, _, hskip, rfl, hstop, hmatch ⟨9, hplace⟩⟩

end Cursor

end TextCursor
