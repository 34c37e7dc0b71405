import Mathlib.Algebra.GroupWithZero.Nat
import TextCursor.Proofs.Cursor.Chain

/-!
# A run taken in portions

A run of characters that pass a test can be taken by one match, or by a match and extensions that go on where the one
before has stopped. The counts of the portions add up: a chain of exact counts does what one match of the exact sum
does, and a chain of greatest counts what one match of at most the sum does, whether the run ends within a portion, at
the end of one, or with the text; and one character with all that follow is the whole run
(`Cursor.portions_make_up_run`).

A portion that comes out short was stopped by the test or by the end, and then those behind it find nothing. So the
first two links of a chain can be joined to one (`Cursor.Parts.exists_chain_join`), and by and by all of them.
-/

set_option autoImplicit false

namespace TextCursor

/-- The bound on two scans in a row, of which the first has the bound `n`, and the second `max`, where 0 is no bound. -/
def joinedMax (n max : Nat) : Nat :=
  if max = 0 then 0 else n + max

theorem joinedMax_of_pos {n max : Nat} (hmax : 0 < max) : joinedMax n max = n + max :=
  if_neg (Nat.ne_of_gt hmax)

namespace CharTest

variable {t : CharTest} {n : Nat} {ahead rest : List Char}

/-- What passes the test is the run that was taken and what passes behind it. -/
theorem takeWhile_eq_taken_append (hrest : t.taken n ahead ++ rest = ahead) :
    ahead.takeWhile t.accepts = t.taken n ahead ++ rest.takeWhile t.accepts := by
  have hpasses : ∀ ch ∈ t.taken n ahead, t.accepts ch = true := fun _ hmem => accepts_of_mem_taken hmem
  have hjoin : (t.taken n ahead ++ rest).takeWhile t.accepts = _ := List.takeWhile_append_of_pos hpasses
  rwa [hrest] at hjoin

/-- Behind a run that is shorter than its bound nothing passes. -/
theorem takeWhile_rest_of_short (hrest : t.taken n ahead ++ rest = ahead) (hshort : (t.taken n ahead).length < n) :
    rest.takeWhile t.accepts = [] := by
  have hall := takeWhile_eq_taken_append hrest
  have htaken : t.taken n ahead = (ahead.takeWhile t.accepts).take n := by rw [taken_eq, if_neg (by omega)]
  have hlength : (ahead.takeWhile t.accepts).length < n := by
    rw [htaken, List.length_take] at hshort
    omega
  rw [List.take_of_length_le (Nat.le_of_lt hlength)] at htaken
  rw [htaken] at hall
  exact List.append_right_eq_self.1 hall.symm

theorem taken_rest_of_short (hrest : t.taken n ahead ++ rest = ahead) (hshort : (t.taken n ahead).length < n)
    (max : Nat) : t.taken max rest = [] := by
  rw [taken_eq, takeWhile_rest_of_short hrest hshort, List.take_nil, ite_self]

/-- Two scans in a row take what one scan takes. -/
theorem taken_joinedMax (hn : 0 < n) (hrest : t.taken n ahead ++ rest = ahead) (max : Nat) :
    t.taken (joinedMax n max) ahead = t.taken n ahead ++ t.taken max rest := by
  have hall := takeWhile_eq_taken_append hrest
  rw [taken_eq _ (joinedMax n max), taken_eq _ max rest, hall, joinedMax]
  by_cases hmax : max = 0
  · rw [if_pos hmax, if_pos hmax, if_pos rfl]
  · rw [if_neg hmax, if_neg hmax, if_neg (by omega)]
    rcases Nat.lt_or_ge (t.taken n ahead).length n with hshort | hfull
    · rw [takeWhile_rest_of_short hrest hshort, List.append_nil, List.take_nil, List.append_nil]
      exact List.take_of_length_le (by omega)
    · have hlength : n = (t.taken n ahead).length := Nat.le_antisymm hfull (length_taken_le hn)
      have hfits : (t.taken n ahead ++ rest.takeWhile t.accepts).take ((t.taken n ahead).length + max) = _ :=
        List.take_length_add_append max
      rwa [← hlength] at hfits

end CharTest

/-- Matching one character that passes is taking a run of one. -/
theorem Attempt.one_eq_bounded (t : CharTest) (ahead : List Char) :
    Attempt.one t.accepts (fun ch => (t.ask ch).asked) ahead = .bounded 1 1 t ahead := by
  cases ahead with
  | nil => rfl
  | cons ch rest =>
    cases haccept : t.accepts ch with
    | true => simp [one, bounded, CharTest.taken, window, haccept, CharTest.notes_cons_of_accepts]
    | false => simp [one, bounded, CharTest.taken, window, haccept, CharTest.notes_cons_of_rejects]

/-- Two chains come to the same. Where they fail one of them may have moved the start, unless all is `kept` that was
taken. -/
structure ChainEnd.Agrees (kept : Prop) (e e' : ChainEnd) : Prop where
  holds_eq : e.holds = e'.holds
  index_eq : e.cursor.index = e'.cursor.index
  cursor_eq : e.holds = true ∨ kept → e.cursor = e'.cursor

namespace ChainEnd.Agrees

variable {kept : Prop} {e e' e'' : ChainEnd}

theorem of_cursor_eq (hholds : e.holds = e'.holds) (hcursor : e.cursor = e'.cursor) : e.Agrees kept e' where
  holds_eq := hholds
  index_eq := by rw [hcursor]
  cursor_eq _ := hcursor

/-- Both fail, at one index. -/
theorem of_fails (hkept : ¬ kept) (hfails : e.holds = false) (hfails' : e'.holds = false)
    (hindex : e.cursor.index = e'.cursor.index) : e.Agrees kept e' where
  holds_eq := hfails.trans hfails'.symm
  index_eq := hindex
  cursor_eq h := by
    cases h with
    | inl hholds => cases hfails.symm.trans hholds
    | inr hall => exact absurd hall hkept

theorem trans (h : e.Agrees kept e') (h' : e'.Agrees kept e'') : e.Agrees kept e'' where
  holds_eq := h.holds_eq.trans h'.holds_eq
  index_eq := h.index_eq.trans h'.index_eq
  cursor_eq hkept := (h.cursor_eq hkept).trans (h'.cursor_eq (by rwa [← h.holds_eq]))

end ChainEnd.Agrees

/-- A match of `n` characters needs `first n` of them, a link of `m` characters `need m`, and a match of both counts needs
what the two need. Of what they find no more is known than that a portion which comes out short is the last one. -/
def NeedsJoin (first need : Nat → Nat) : Prop :=
  ∀ n m x y, 0 < n → x ≤ n → y ≤ m → (x < n → y = 0) → (first (n + m) ≤ x + y ↔ first n ≤ x ∧ need m ≤ y)

theorem needsJoin_all : NeedsJoin (fun n => n) fun m => m := by
  intro n m x y hn hx hy hshort
  dsimp only
  omega

theorem needsJoin_some : NeedsJoin (fun _ => 1) fun _ => 0 := by
  intro n m x y hn hx hy hshort
  dsimp only
  omega

namespace Cursor.Parts

variable {c : Cursor} {before run ahead : List Char} {t : CharTest} {op op' : MatchOp} {n min : Nat}

theorem chain_of_few (h : c.Parts before run ahead) (hop : op.attempt ahead = .bounded n min t ahead)
    (hfew : (t.taken n ahead).length < min) (links : List ExtendOp) : c.chain op links = .ok ⟨false, c, []⟩ :=
  h.chain_of_refused (by rw [hop]; exact if_pos hfew) links

theorem chain_of_enough (h : c.Parts before run ahead) (hop : op.attempt ahead = .bounded n min t ahead)
    (henough : min ≤ (t.taken n ahead).length) {links : List ExtendOp} {e : ChainEnd}
    (hlinks : (c.acceptTo (c.index + Utf8.width (t.taken n ahead))).extendAll links = .ok e) :
    c.chain op links = .ok { e with runs := String.ofList (t.taken n ahead) :: e.runs } :=
  h.chain_of_taken (by rw [hop]; exact if_neg (Nat.not_lt.2 henough)) hlinks

/-- The first two links of a chain can be joined to one, if what the one needs is what the two need. -/
theorem exists_chain_join (h : c.Parts before run ahead) {link : ExtendOp} {p r : Nat} {kept : Prop} (hn : 0 < n)
    (hop : op.attempt ahead = .bounded n p link.test ahead)
    (hop' : op'.attempt ahead = .bounded (joinedMax n link.max) r link.test ahead)
    (hneeds : ∀ rest, link.test.taken n ahead ++ rest = ahead →
      (r ≤ (link.test.taken n ahead).length + (link.test.taken link.max rest).length ↔
        p ≤ (link.test.taken n ahead).length ∧ link.min ≤ (link.test.taken link.max rest).length))
    (hkept : kept → link.min = 0) (links : List ExtendOp) :
    ∃ e e', c.chain op (link :: links) = .ok e ∧ c.chain op' links = .ok e' ∧ e.Agrees kept e' := by
  obtain ⟨rest, hrest⟩ := link.test.taken_isPrefix n ahead
  have hsplit : c.Parts before run (link.test.taken n ahead ++ rest) := by rwa [hrest]
  have hfirst := hsplit.parts_acceptTo
  have hjoined := CharTest.taken_joinedMax hn hrest link.max
  have hlength : (link.test.taken (joinedMax n link.max) ahead).length =
      (link.test.taken n ahead).length + (link.test.taken link.max rest).length := by rw [hjoined, List.length_append]
  rcases Nat.lt_or_ge (link.test.taken n ahead).length p with hfew | henough
  · -- neither chain takes anything
    have hfew' : (link.test.taken (joinedMax n link.max) ahead).length < r := by
      rw [hlength]
      exact Nat.not_le.1 fun hr => absurd ((hneeds rest hrest).1 hr).1 (Nat.not_le.2 hfew)
    exact ⟨_, _, h.chain_of_few hop hfew _, h.chain_of_few hop' hfew' _, .of_cursor_eq rfl rfl⟩
  · rcases Nat.lt_or_ge (link.test.taken link.max rest).length link.min with hfew | henough'
    · -- the second link gives up what the first has taken
      have hfew' : (link.test.taken (joinedMax n link.max) ahead).length < r := by
        rw [hlength]
        exact Nat.not_le.1 fun hr => absurd ((hneeds rest hrest).1 hr).2 (Nat.not_le.2 hfew)
      have hnotKept : ¬ kept := by
        intro hall
        rw [hkept hall] at hfew
        exact Nat.not_lt_zero _ hfew
      exact ⟨_, _, h.chain_of_enough hop henough (hfirst.extendAll_of_few links hfew), h.chain_of_few hop' hfew' _,
        .of_fails hnotKept rfl rfl rfl⟩
    · -- both chains go on from the same place
      have hr : r ≤ (link.test.taken (joinedMax n link.max) ahead).length := by
        rw [hlength]
        exact (hneeds rest hrest).2 ⟨henough, henough'⟩
      obtain ⟨more, hmore⟩ := link.test.taken_isPrefix link.max rest
      rw [← hmore] at hfirst
      obtain ⟨e, hlinks, -⟩ := hfirst.parts_extend.exists_extendAll links
      rw [hmore] at hfirst
      have hplace : c.acceptTo (c.index + Utf8.width (link.test.taken (joinedMax n link.max) ahead)) =
          { c.acceptTo (c.index + Utf8.width (link.test.taken n ahead)) with
            index := (c.acceptTo (c.index + Utf8.width (link.test.taken n ahead))).index +
              Utf8.width (link.test.taken link.max rest) } := by
        rw [hjoined, Utf8.width_append]
        simp [acceptTo, Nat.add_assoc]
      have hlinks' := hplace ▸ hlinks
      exact ⟨_, _, h.chain_of_enough hop henough (hfirst.extendAll_of_enough henough' hlinks),
        h.chain_of_enough hop' hr hlinks', .of_cursor_eq rfl rfl⟩

/-- A chain without links is its match. -/
theorem exists_chain_nil (h : c.Parts before run ahead) (op : MatchOp) :
    ∃ e o, c.chain op [] = .ok e ∧ op.run c = .ok o ∧ e.holds = o.reply ∧ e.cursor = o.cursor := by
  have hmatch := op.run_eq h
  cases hfound : (op.attempt ahead).taken? with
  | none =>
    rw [settle, hfound] at hmatch
    exact ⟨_, _, h.chain_of_refused hfound [], hmatch, rfl, rfl⟩
  | some taken =>
    rw [settle, hfound] at hmatch
    exact ⟨_, _, h.chain_of_taken hfound rfl, hmatch, rfl, rfl⟩

/-- A chain of counted links comes to what one match of the sum of the counts comes to. -/
theorem exists_chain_portions {first need : Nat → Nat} (hneeds : NeedsJoin first need) {kept : Prop}
    (hkept : kept → ∀ m, need m = 0) {link : Nat → ExtendOp}
    (hlink : ∀ m, (link m).test = t ∧ (link m).max = m ∧ (link m).min = need m) (h : c.Parts before run ahead)
    {counts : List Nat} (hpos : ∀ m ∈ n :: counts, 0 < m) (hop : op.attempt ahead = .bounded n (first n) t ahead)
    (hop' : op'.attempt ahead = .bounded (n + counts.sum) (first (n + counts.sum)) t ahead) :
    ∃ e o, c.chain op (counts.map link) = .ok e ∧ op'.run c = .ok o ∧ e.Agrees kept ⟨o.reply, o.cursor, []⟩ := by
  -- by induction on the counts: the match and the first link are joined to a match of both their counts
  induction counts generalizing n op with
  | nil =>
    obtain ⟨e, o, hchain, hrun, hholds, hcursor⟩ := h.exists_chain_nil op
    have hsame : op'.run c = op.run c := by rw [op'.run_eq h, op.run_eq h, hop', hop]; rfl
    exact ⟨e, o, hchain, hsame.trans hrun, .of_cursor_eq hholds hcursor⟩
  | cons m counts ih =>
    obtain ⟨hn, hpos⟩ := List.forall_mem_cons.1 hpos
    obtain ⟨hm, hcounts⟩ := List.forall_mem_cons.1 hpos
    obtain ⟨htest, hmax, hmin⟩ := hlink m
    have hjoinedMax : joinedMax n (link m).max = n + m := by rw [hmax, joinedMax_of_pos hm]
    have hfirst : op.attempt ahead = .bounded n (first n) (link m).test ahead := by rw [htest, hop]
    have hnext : (MatchOp.whileBounded (n + m) (first (n + m)) t).attempt ahead =
        .bounded (n + m) (first (n + m)) t ahead := rfl
    have hjoined : (MatchOp.whileBounded (n + m) (first (n + m)) t).attempt ahead =
        .bounded (joinedMax n (link m).max) (first (n + m)) (link m).test ahead := by rw [htest, hjoinedMax, hnext]
    obtain ⟨e, e', hchain, hchain', hagrees⟩ := h.exists_chain_join hn hfirst hjoined
      (fun rest hrest => by
        rw [hmin, hmax]
        exact hneeds n m _ _ hn (CharTest.length_taken_le hn) (CharTest.length_taken_le hm)
          fun hshort => by rw [CharTest.taken_rest_of_short hrest hshort, List.length_nil])
      (fun hall => by rw [hmin, hkept hall m]) (counts.map link)
    have hsum : n + (m :: counts).sum = n + m + counts.sum := by rw [List.sum_cons, Nat.add_assoc]
    rw [hsum] at hop'
    have hnextPos : ∀ k ∈ (n + m) :: counts, 0 < k := List.forall_mem_cons.2 ⟨Nat.add_pos_left hn m, hcounts⟩
    obtain ⟨e'', o, hrest, hrun, hlater⟩ := ih hnextPos hnext hop'
    cases hchain'.symm.trans hrest
    exact ⟨e, o, hchain, hrun, hagrees.trans hlater⟩

/-- One character and all that follow are a run without a bound. -/
theorem exists_chain_one_and_rest (h : c.Parts before run ahead) (t : CharTest) :
    ∃ e o, c.chain (.charIf t) [.whileHolds t] = .ok e ∧ c.matchWhile t = .ok o ∧ e.holds = o.reply ∧
      e.cursor = o.cursor := by
  have hone : (MatchOp.charIf t).attempt ahead = .bounded 1 1 t ahead := Attempt.one_eq_bounded t ahead
  have hall : (MatchOp.whileHolds t).attempt ahead =
      .bounded (joinedMax 1 (ExtendOp.whileHolds t).max) 1 (ExtendOp.whileHolds t).test ahead := rfl
  have hneeds (rest : List Char) (hrest : t.taken 1 ahead ++ rest = ahead) :
      1 ≤ (t.taken 1 ahead).length + (t.taken 0 rest).length ↔
        1 ≤ (t.taken 1 ahead).length ∧ 0 ≤ (t.taken 0 rest).length := by
    have hshort (hlt : (t.taken 1 ahead).length < 1) : (t.taken 0 rest).length = 0 := by
      rw [CharTest.taken_rest_of_short hrest hlt, List.length_nil]
    omega
  have hkept : True → (ExtendOp.whileHolds t).min = 0 := fun _ => rfl
  obtain ⟨e, e', hchain, hchain', hagrees⟩ := h.exists_chain_join Nat.one_pos hone hall hneeds hkept []
  obtain ⟨e'', o, hwhole, hrun, hholds, hcursor⟩ := h.exists_chain_nil (.whileHolds t)
  cases hchain'.symm.trans hwhole
  exact ⟨e, o, hchain, hrun, hagrees.holds_eq.trans hholds, (hagrees.cursor_eq (.inr trivial)).trans hcursor⟩

end Cursor.Parts

namespace Cursor

/-- From any place that can be reached, for every test and all positive counts. A match of `n` characters with extensions
by the further counts, each of them exact, holds exactly if a match of the sum does, and ends at the same index, and at
the same start if it holds. With greatest counts in place of exact ones it comes to the same as a match of at most the
sum, and one character with all that follow comes to the same as a match without bounds. -/
theorem portions_make_up_run {t : Text} {c : Cursor} (h : Reachable t c) (test : CharTest) :
    (∀ (n : Nat) (counts : List Nat), (∀ m ∈ n :: counts, 0 < m) →
      (∃ e o, c.chain (.whileBounded n n test) (counts.map fun m => .whileBounded m m test) = .ok e ∧
        c.matchWhileBounded (n + counts.sum) (n + counts.sum) test = .ok o ∧ e.holds = o.reply ∧
        e.cursor.index = o.cursor.index ∧ (o.reply = true → e.cursor.start = o.cursor.start)) ∧
      ∃ e o, c.chain (.whileMax n test) (counts.map fun m => .whileMax m test) = .ok e ∧
        c.matchWhileMax (n + counts.sum) test = .ok o ∧ e.holds = o.reply ∧ e.cursor = o.cursor) ∧
    ∃ e o, c.chain (.charIf test) [.whileHolds test] = .ok e ∧ c.matchWhile test = .ok o ∧ e.holds = o.reply ∧
      e.cursor = o.cursor := by
  obtain ⟨-, hwell⟩ := reachable_iff.1 h
  obtain ⟨before, run, ahead, hparts⟩ := wellFormed_iff_exists_parts.1 hwell
  refine ⟨?_, ?_⟩
  · intro n counts hpos
    have hexact (m : Nat) : (ExtendOp.whileBounded m m test).test = test ∧
        (ExtendOp.whileBounded m m test).max = m ∧ (ExtendOp.whileBounded m m test).min = m := ⟨rfl, rfl, rfl⟩
    have hmost (m : Nat) : (ExtendOp.whileMax m test).test = test ∧ (ExtendOp.whileMax m test).max = m ∧
        (ExtendOp.whileMax m test).min = 0 := ⟨rfl, rfl, rfl⟩
    have hmatchAll (n : Nat) : (MatchOp.whileBounded n n test).attempt ahead = .bounded n n test ahead := rfl
    have hmatchSome (n : Nat) : (MatchOp.whileMax n test).attempt ahead = .bounded n 1 test ahead := rfl
    refine ⟨?_, ?_⟩
    · obtain ⟨e, o, hchain, hrun, hagrees⟩ := hparts.exists_chain_portions needsJoin_all False.elim hexact hpos
        (hmatchAll n) (hmatchAll _)
      refine ⟨e, o, hchain, hrun, hagrees.holds_eq, hagrees.index_eq, ?_⟩
      intro hreply
      rw [hagrees.cursor_eq (.inl (hagrees.holds_eq.trans hreply))]
    · obtain ⟨e, o, hchain, hrun, hagrees⟩ := hparts.exists_chain_portions needsJoin_some (fun _ _ => rfl) hmost hpos
        (hmatchSome n) (hmatchSome _)
      exact ⟨e, o, hchain, hrun, hagrees.holds_eq, hagrees.cursor_eq (.inr trivial)⟩
  · exact hparts.exists_chain_one_and_rest test

/-- Behind the first of the two portions stand letters of two and three bytes, and then a digit, so the second portion is
one character short. Three characters of exactly three are not there; two of at most three are. -/
theorem portions_make_up_run_short_second :
    let t : Text := ⟨['a', 'é', '€', '1'], by decide⟩
    let c : Cursor := ⟨t, 0, 1⟩
    let test : CharTest := .negate .digit
    Reachable t c ∧ (∀ m ∈ [1, 2], 0 < m) ∧
      (∃ e o, c.chain (.whileBounded 1 1 test) [.whileBounded 2 2 test] = .ok e ∧
        c.matchWhileBounded 3 3 test = .ok o ∧ e.holds = false ∧ e.holds = o.reply ∧
        e.cursor.index = o.cursor.index ∧ e.cursor.start ≠ o.cursor.start) ∧
      (∃ e o, c.chain (.whileMax 1 test) [.whileMax 2 test] = .ok e ∧ c.matchWhileMax 3 test = .ok o ∧
        e.holds = true ∧ e.holds = o.reply ∧ e.cursor = ⟨t, 1, 6⟩ ∧ e.cursor = o.cursor) ∧
      ∃ e o, c.chain (.charIf test) [.whileHolds test] = .ok e ∧ c.matchWhile test = .ok o ∧ e.holds = o.reply ∧
        e.cursor = o.cursor := by
  intro t c test
  have hreached : Reachable t c := reachable_iff.2 ⟨rfl, by decide, by decide, by decide⟩
  have hpos : ∀ m ∈ [1, 2], 0 < m := by decide
  obtain ⟨hcounted, hall⟩ := portions_make_up_run hreached test
  obtain ⟨⟨e, o, hchain, hrun, hholds, hindex, -⟩, ⟨e', o', hchain', hrun', hholds', hcursor⟩⟩ := hcounted 1 [2] hpos
  have hgivenUp : c.chain (.whileBounded 1 1 test) [.whileBounded 2 2 test] = .ok ⟨false, ⟨t, 1, 1⟩, ["é", "€"]⟩ := rfl
  have hnone : c.matchWhileBounded 3 3 test = .ok ⟨false, c, _, _⟩ := rfl
  have htaken : c.chain (.whileMax 1 test) [.whileMax 2 test] = .ok ⟨true, ⟨t, 1, 6⟩, ["é", "€"]⟩ := rfl
  cases hchain.symm.trans hgivenUp
  cases hrun.symm.trans hnone
  cases hchain'.symm.trans htaken
  exact ⟨hreached, hpos, ⟨_, _, hchain, hrun, rfl, hholds, hindex, by decide⟩,
    ⟨_, o', hchain', hrun', rfl, hholds', rfl, hcursor⟩, hall⟩

end Cursor

end TextCursor
