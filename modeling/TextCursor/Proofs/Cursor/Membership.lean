import TextCursor.Proofs.Cursor.Reachability

/-!
# Characters given by a string and by a set

The characters to look for may be given as a string, which is searched each time, or as a set made from it, which is
asked by bits and a list; a test has its set as a value, whether the set was handed over or lent. A match of one
character goes the same way with both. A skip does not: with a string it moves the cursor character by character, with
a set it is a scan that is accepted afterwards. From every place in a text the outcomes are equal nevertheless, and
depend on nothing but which characters the string has (`Cursor.string_and_set_agree`).

A string of one character is that character, and as a literal it is a match of it.
-/

set_option autoImplicit false

namespace TextCursor

namespace CharTest

/-- A test without probes leaves no notes. -/
theorem notes_holds (p : Char → Bool) (cs : List Char) : (holds p).notes cs = [] := by
  simp [notes, ask]

theorem accepts_ofSet_ofString (s : String) : (ofSet (.ofString s)).accepts = fun ch => decide (ch ∈ s.toList) := by
  funext ch
  rw [ofSet, accepts, CharSet.ofString, CharSet.contains_ofList, List.contains_eq_mem]

end CharTest

namespace Cursor

namespace Parts

variable {c : Cursor} {before run ahead : List Char}

theorem matchAnyOf_eq_matchCharIf (h : c.Parts before run ahead) (s : String) :
    c.matchAnyOf s = c.matchCharIf (.ofSet (.ofString s)) := by
  rw [h.matchAnyOf_eq, h.matchCharIf_eq, CharTest.accepts_ofSet_ofString]
  rfl

/-- The loop over the characters of a string and the scan for members of a set take the same run. -/
theorem skipAnyOf_eq_skipWhile (h : c.Parts before run ahead) (s : String) :
    c.skipAnyOf s = c.skipWhile (.ofSet (.ofString s)) := by
  have hnotes : (CharTest.ofSet (.ofString s)).notes (window 0 0 ahead) = [] := CharTest.notes_holds _ _
  have htaken : (CharTest.ofSet (.ofString s)).taken 0 ahead = ahead.takeWhile (· ∈ s.toList) := by
    rw [CharTest.taken_eq, if_pos rfl, CharTest.accepts_ofSet_ofString]
  rw [h.skipAnyOf_eq, h.skipWhile_eq, hnotes, htaken]

/-- Only the characters of the string count, not their order nor how often they occur. -/
theorem matchAnyOf_congr (h : c.Parts before run ahead) {s u : String} (hsame : ∀ ch, ch ∈ s.toList ↔ ch ∈ u.toList) :
    c.matchAnyOf s = c.matchAnyOf u := by
  simp only [h.matchAnyOf_eq, hsame]

theorem skipAnyOf_congr (h : c.Parts before run ahead) {s u : String} (hsame : ∀ ch, ch ∈ s.toList ↔ ch ∈ u.toList) :
    c.skipAnyOf s = c.skipAnyOf u := by
  simp only [h.skipAnyOf_eq, hsame]

theorem skipAnyOf_singleton (h : c.Parts before run ahead) (ch : Char) :
    c.skipAnyOf (.singleton ch) = c.skipChar ch := by
  have hnotes : (CharTest.equals ch).notes (window 0 0 ahead) = [] := CharTest.notes_holds _ _
  have htaken : (CharTest.equals ch).taken 0 ahead = ahead.takeWhile (· == ch) := CharTest.taken_eq _ 0 ahead
  rw [h.skipAnyOf_eq, skipChar, h.skipWhile_eq, hnotes, htaken, String.toList_singleton]
  simp only [List.mem_singleton, Bool.beq_eq_decide_eq]

theorem matchAnyOf_singleton (h : c.Parts before run ahead) (ch : Char) :
    c.matchAnyOf (.singleton ch) = c.matchChar ch := by
  rw [h.matchAnyOf_eq, h.matchChar_eq, String.toList_singleton]
  simp only [List.mem_singleton, Bool.beq_eq_decide_eq]

/-- A literal of one character is compared by its bytes, and found where the character stands. -/
theorem matchLiteral_singleton (h : c.Parts before run ahead) (ch : Char) :
    c.matchLiteral (.singleton ch) = c.matchChar ch := by
  have hattempt : Attempt.literal [ch] ahead = .one (· == ch) (fun _ => []) ahead := by
    cases ahead with
    | nil => rfl
    | cons first ahead =>
      by_cases heq : first = ch
      · subst heq
        simp [Attempt.literal, Attempt.one]
      · simp [Attempt.literal, Attempt.one, heq, Ne.symm heq]
  rw [h.matchLiteral_eq, h.matchChar_eq, String.toList_singleton, hattempt]

end Parts

/-- From every place that can be reached: a match of a character of a string and a match of a member of its set have
one outcome, and so have a skip over the characters of the string and a skip over the members of the set; the outcomes
are the same for every string with the same characters; and for a string of one character they are those of a match of
that character, which are also those of a match of the literal, and of a skip over its repetitions. -/
theorem string_and_set_agree {t : Text} {c : Cursor} (h : Reachable t c) :
    (∀ s : String,
      (∃ o, c.matchAnyOf s = .ok o ∧ c.matchCharIf (.ofSet (.ofString s)) = .ok o) ∧
      ∃ o, c.skipAnyOf s = .ok o ∧ c.skipWhile (.ofSet (.ofString s)) = .ok o) ∧
    (∀ s u : String, (∀ ch, ch ∈ s.toList ↔ ch ∈ u.toList) →
      c.matchAnyOf s = c.matchAnyOf u ∧ c.skipAnyOf s = c.skipAnyOf u ∧
      c.matchCharIf (.ofSet (.ofString s)) = c.matchCharIf (.ofSet (.ofString u)) ∧
      c.skipWhile (.ofSet (.ofString s)) = c.skipWhile (.ofSet (.ofString u))) ∧
    ∀ ch : Char,
      (∃ o, c.skipAnyOf (.singleton ch) = .ok o ∧ c.skipChar ch = .ok o) ∧
      ∃ o, c.matchAnyOf (.singleton ch) = .ok o ∧ c.matchChar ch = .ok o ∧ c.matchLiteral (.singleton ch) = .ok o := by
  obtain ⟨-, hwell⟩ := reachable_iff.1 h
  obtain ⟨before, run, ahead, hparts⟩ := wellFormed_iff_exists_parts.1 hwell
  refine ⟨?_, ?_, ?_⟩
  · intro s
    have hmatch := hparts.matchAnyOf_eq s
    have hskip := hparts.skipAnyOf_eq s
    exact ⟨⟨_, hmatch, (hparts.matchAnyOf_eq_matchCharIf s).symm.trans hmatch⟩,
      ⟨_, hskip, (hparts.skipAnyOf_eq_skipWhile s).symm.trans hskip⟩⟩
  · intro s u hsame
    have hmatch := hparts.matchAnyOf_congr hsame
    have hskip := hparts.skipAnyOf_congr hsame
    rw [← hparts.matchAnyOf_eq_matchCharIf, ← hparts.matchAnyOf_eq_matchCharIf, ← hparts.skipAnyOf_eq_skipWhile,
      ← hparts.skipAnyOf_eq_skipWhile]
    exact ⟨hmatch, hskip, hmatch, hskip⟩
  · intro ch
    have hmatch := hparts.matchChar_eq ch
    have hskip := hparts.skipAnyOf_eq (.singleton ch)
    exact ⟨⟨_, hskip, (hparts.skipAnyOf_singleton ch).symm.trans hskip⟩,
      ⟨_, (hparts.matchAnyOf_singleton ch).trans hmatch, hmatch, (hparts.matchLiteral_singleton ch).trans hmatch⟩⟩

/-- Letters of ASCII and others in turn behind the index, given in two orders and with a repetition. -/
theorem string_and_set_agree_mixed :
    let t : Text := ⟨"xaéa€b".toList, by decide⟩
    let c : Cursor := ⟨t, 0, 1⟩
    Reachable t c ∧ (∀ ch, ch ∈ "aé€".toList ↔ ch ∈ "€éa€".toList) ∧
      c.skipAnyOf "aé€" = .ok ⟨(), ⟨t, 1, 8⟩, [], []⟩ ∧
      c.skipWhile (.ofSet (.ofString "aé€")) = .ok ⟨(), ⟨t, 1, 8⟩, [], []⟩ ∧
      c.skipWhile (.ofSet (.ofString "€éa€")) = .ok ⟨(), ⟨t, 1, 8⟩, [], []⟩ := by
  intro t c
  have hreached : Reachable t c := reachable_iff.2 ⟨rfl, by decide, by decide, by decide⟩
  have hsame : ∀ ch, ch ∈ "aé€".toList ↔ ch ∈ "€éa€".toList := by
    intro ch
    have hone : "aé€".toList = ['a', 'é', '€'] := rfl
    have htwo : "€éa€".toList = ['€', 'é', 'a', '€'] := rfl
    rw [hone, htwo]
    grind
  have hset : c.skipWhile (.ofSet (.ofString "aé€")) = .ok ⟨(), ⟨t, 1, 8⟩, [], []⟩ := by rfl
  obtain ⟨hagree, hcongr, -⟩ := string_and_set_agree hreached
  obtain ⟨-, o, hstring, hset'⟩ := hagree "aé€"
  obtain rfl := Except.ok.inj (hset'.symm.trans hset)
  obtain ⟨-, -, -, hother⟩ := hcongr _ _ hsame
  exact ⟨hreached, hsame, hstring, hset, hother.symm.trans hset⟩

end Cursor

end TextCursor
