import TextCursor.Proofs.Cursor.Reachability

/-!
# What a bounded scan comes to

A scan looks for a run of characters that pass a test, with a bound on how many it takes. Whatever the bound, the test
and the widths of the characters, the run is the longest leading part of what stands ahead that passes throughout, cut
to the bound. The two bounded operations differ only in what they do with it: if the run has as many characters as are
needed, a match makes it the result and an extension adds it to the result; if not, a match leaves the cursor alone and
an extension gives the result up (`Cursor.bounded_scans_take_longest_run`).

How often the test is asked on the way is not said here.
-/

set_option autoImplicit false

namespace TextCursor.Cursor

/-- What a match does with a run of which it needs at least `min` characters. -/
structure TakesRun (c : Cursor) (min : Nat) (run : List Char) (o : Outcome Bool) : Prop where
  reply_iff : o.reply = true ↔ min ≤ run.length
  taken : o.reply = true → o.cursor = ⟨c.text, c.index, c.index + Utf8.width run⟩
  result_eq : o.reply = true → o.cursor.result = .ok (String.ofList run)
  unchanged : o.reply = false → o.cursor = c

/-- What an extension does with a run of which it needs at least `min` characters. -/
structure ExtendsByRun (c : Cursor) (min : Nat) (run : List Char) (o : Outcome Bool) : Prop where
  reply_iff : o.reply = true ↔ min ≤ run.length
  extended : o.reply = true → o.cursor = ⟨c.text, c.start, c.index + Utf8.width run⟩
  givenUp : o.reply = false → o.cursor = ⟨c.text, c.start, c.start⟩

variable {c : Cursor} {before run ahead : List Char} {min : Nat} {asked : List Inquiry}

theorem takesRun_of_few (hfew : run.length < min) : c.TakesRun min run ⟨false, c, asked, []⟩ where
  reply_iff := iff_of_false Bool.false_ne_true (Nat.not_le.2 hfew)
  taken hreply := nomatch hreply
  result_eq hreply := nomatch hreply
  unchanged _ := rfl

theorem extendsByRun_of_few (hfew : run.length < min) :
    c.ExtendsByRun min run ⟨false, { c with index := c.start }, asked, []⟩ where
  reply_iff := iff_of_false Bool.false_ne_true (Nat.not_le.2 hfew)
  extended hreply := nomatch hreply
  givenUp _ := rfl

theorem extendsByRun_of_enough (henough : min ≤ run.length) :
    c.ExtendsByRun min run ⟨true, { c with index := c.index + Utf8.width run }, asked, []⟩ where
  reply_iff := iff_of_true rfl henough
  extended _ := rfl
  givenUp hreply := nomatch hreply

namespace Parts

theorem takesRun_of_enough {taken rest : List Char} (h : c.Parts before run (taken ++ rest))
    (henough : min ≤ taken.length) :
    c.TakesRun min taken ⟨true, c.acceptTo (c.index + Utf8.width taken), asked, []⟩ where
  reply_iff := iff_of_true rfl henough
  taken _ := rfl
  result_eq _ := h.parts_acceptTo.result_eq
  unchanged hreply := nomatch hreply

theorem exists_takesRun (h : c.Parts before run ahead) (max min : Nat) (t : CharTest) :
    ∃ o, c.matchWhileBounded max min t = .ok o ∧ c.TakesRun min (t.taken max ahead) o := by
  refine ⟨_, h.matchWhileBounded_eq max min t, ?_⟩
  rcases Nat.lt_or_ge (t.taken max ahead).length min with hfew | henough
  · rw [settle_bounded_of_few c hfew]
    exact takesRun_of_few hfew
  · rw [settle_bounded_of_enough c henough]
    obtain ⟨rest, hrest⟩ := t.taken_isPrefix max ahead
    have hsplit : c.Parts before run (t.taken max ahead ++ rest) := by rwa [hrest]
    exact hsplit.takesRun_of_enough henough

theorem exists_extendsByRun (h : c.Parts before run ahead) (max min : Nat) (t : CharTest) :
    ∃ o, c.extendWhileBounded max min t = .ok o ∧ c.ExtendsByRun min (t.taken max ahead) o := by
  refine ⟨_, h.extendWhileBounded_eq max min t, ?_⟩
  rcases Nat.lt_or_ge (t.taken max ahead).length min with hfew | henough
  · rw [settleExtension_bounded_of_few c hfew]
    exact extendsByRun_of_few hfew
  · rw [settleExtension_bounded_of_enough c henough]
    exact extendsByRun_of_enough henough

/-- A skip is a match that needs no character, and so always succeeds. -/
theorem skipWhile_eq_match (h : c.Parts before run ahead) (t : CharTest) :
    ∃ o, c.matchWhileBounded 0 0 t = .ok o ∧ o.reply = true ∧ c.skipWhile t = .ok (o.map fun _ => ()) := by
  have hmatch := h.matchWhileBounded_eq 0 0 t
  rw [settle_bounded_of_enough c (Nat.zero_le _)] at hmatch
  exact ⟨_, hmatch, rfl, h.skipWhile_eq t⟩

end Parts

/-- The bound on what is taken keeps a run shorter than what is needed. -/
theorem fails_of_bounds {t : CharTest} {max min : Nat} {ahead : List Char} {reply : Bool}
    (hreply : reply = true ↔ min ≤ (t.taken max ahead).length) (hmax : 0 < max) (hless : max < min) :
    reply = false := by
  have hlength : (t.taken max ahead).length ≤ max := CharTest.length_taken_le hmax
  cases reply with
  | false => rfl
  | true =>
    have henough := hreply.1 rfl
    omega

/-- From any place that can be reached, for every test and all bounds: with `run` the longest leading part of what stands
ahead that passes the test throughout, cut to `max` characters unless `max` is 0, a bounded match takes the run and a
bounded extension adds it, if it has at least `min` characters. A skip does what a match without bounds does, and
where more characters are needed than may be taken no match and no extension succeeds. -/
theorem bounded_scans_take_longest_run {t : Text} {c : Cursor} (h : Reachable t c) :
    ∃ ahead, c.rest = .ok ahead ∧ ∀ (test : CharTest) (max min : Nat),
      let longest := ahead.takeWhile test.accepts
      let run := if max = 0 then longest else longest.take max
      (∃ o, c.matchWhileBounded max min test = .ok o ∧ c.TakesRun min run o ∧
        (0 < max → max < min → o.reply = false)) ∧
      (∃ o, c.extendWhileBounded max min test = .ok o ∧ c.ExtendsByRun min run o ∧
        (0 < max → max < min → o.reply = false)) ∧
      ∃ o, c.matchWhileBounded 0 0 test = .ok o ∧ o.reply = true ∧ c.skipWhile test = .ok (o.map fun _ => ()) := by
  obtain ⟨-, hwell⟩ := reachable_iff.1 h
  obtain ⟨before, run, ahead, hparts⟩ := wellFormed_iff_exists_parts.1 hwell
  refine ⟨ahead, hparts.rest_eq, ?_⟩
  intro test max min
  dsimp only
  rw [← test.taken_eq max ahead]
  obtain ⟨o, hmatch, htakes⟩ := hparts.exists_takesRun max min test
  obtain ⟨o', hextend, hextends⟩ := hparts.exists_extendsByRun max min test
  exact ⟨⟨o, hmatch, htakes, fails_of_bounds htakes.reply_iff⟩,
    ⟨o', hextend, hextends, fails_of_bounds hextends.reply_iff⟩, hparts.skipWhile_eq_match test⟩

/-- Letters of two and three bytes in front of a digit. Without a bound both are taken; a bound of one cuts the run, and
an extension that needs two then gives the letter in front up. -/
theorem bounded_scans_take_longest_run_mixed_widths :
    let t : Text := ⟨['a', 'é', '€', '1'], by decide⟩
    let c : Cursor := ⟨t, 0, 1⟩
    Reachable t c ∧
      (∃ o, c.matchWhileBounded 0 2 (.negate .digit) = .ok o ∧ c.TakesRun 2 ['é', '€'] o) ∧
      ∃ o, c.extendWhileBounded 1 2 (.negate .digit) = .ok o ∧ c.ExtendsByRun 2 ['é'] o ∧ o.reply = false := by
  intro t c
  have hreached : Reachable t c := reachable_iff.2 ⟨rfl, by decide, by decide, by decide⟩
  obtain ⟨ahead, hrest, hscans⟩ := bounded_scans_take_longest_run hreached
  have hahead : c.rest = .ok ['é', '€', '1'] := rfl
  obtain rfl : ahead = ['é', '€', '1'] := Except.ok.inj (hrest.symm.trans hahead)
  obtain ⟨⟨o, hmatch, htakes, -⟩, -, -⟩ := hscans (.negate .digit) 0 2
  obtain ⟨-, ⟨o', hextend, hextends, hnever⟩, -⟩ := hscans (.negate .digit) 1 2
  exact ⟨hreached, ⟨o, hmatch, htakes⟩, ⟨o', hextend, hextends, hnever (by decide) (by decide)⟩⟩

end TextCursor.Cursor
