import TextCursor.Proofs.Cursor.Retry

/-!
# Chains of a match and extensions

A token is often put together from parts: a match, and extensions that are tried one after the other as long as all
before them succeeded. `Cursor.chain` evaluates such a chain and lists the runs of its links: what the match took, and
what each extension scanned, whether that was enough for it or not.

A chain is taken whole or not at all (`Cursor.chain_all_or_nothing`). If it holds, the result is all the runs joined,
from where the chain began. If it fails, at whichever link, the index is where the chain began. Then only the start may
have moved, and no operation that begins a new result can tell: it answers as it would have answered without the chain.
-/

set_option autoImplicit false

namespace TextCursor

namespace ExtendOp

/-- The greatest number of characters that an extension scans, where 0 is no bound. -/
def max : ExtendOp → Nat
  | whileHolds _ => 0
  | whileMax max _ | whileBounded max _ _ => max

def min : ExtendOp → Nat
  | whileHolds _ | whileMax _ _ => 0
  | whileBounded _ min _ => min

def test : ExtendOp → CharTest
  | whileHolds t | whileMax _ t | whileBounded _ _ t => t

theorem attempt_eq (op : ExtendOp) (ahead : List Char) : op.attempt ahead = .bounded op.max op.min op.test ahead := by
  cases op <;> rfl

end ExtendOp

/-- What came of a chain: whether all its links succeeded, the cursor after it, and the runs of the links tried. -/
structure ChainEnd where
  holds : Bool
  cursor : Cursor
  runs : List String
deriving DecidableEq, Repr

namespace Cursor

/-- What stands between the index and an offset behind it. -/
def upTo (c : Cursor) (stop : Nat) : Except Breach String := do
  return String.ofList (← Utf8.slice c.text.chars c.index stop)

/-- Tries the extensions in order, up to the first that fails. -/
def extendAll (c : Cursor) : List ExtendOp → Except Breach ChainEnd
  | [] => .ok ⟨true, c, []⟩
  | link :: links => do
    let run ← c.upTo (← c.scan link.max link.test).stop
    let o ← link.run c
    if o.reply then
      let e ← o.cursor.extendAll links
      return { e with runs := run :: e.runs }
    else return ⟨false, o.cursor, [run]⟩

/-- Tries a match, and then the extensions if it succeeded. -/
def chain (c : Cursor) (op : MatchOp) (links : List ExtendOp) : Except Breach ChainEnd := do
  let o ← op.run c
  if o.reply then
    let run ← c.upTo o.cursor.index
    let e ← o.cursor.extendAll links
    return { e with runs := run :: e.runs }
  else return ⟨false, o.cursor, []⟩

namespace Parts

variable {c : Cursor} {before run ahead : List Char}

theorem upTo_eq (h : c.Parts before run ahead) {taken : List Char} (htaken : taken <+: ahead) :
    c.upTo (c.index + Utf8.width taken) = .ok (String.ofList taken) := by
  obtain ⟨rest, rfl⟩ := htaken
  have hchars : c.text.chars = (before ++ run) ++ taken ++ rest := by
    rw [h.chars_eq]
    simp only [List.append_assoc]
  have hslice : Utf8.slice c.text.chars c.index (c.index + Utf8.width taken) = .ok taken :=
    Utf8.slice_eq_ok_iff.2 ⟨before ++ run, rest, hchars, h.index_eq.symm, by rw [Utf8.width_append, h.index_eq]⟩
  rw [upTo, hslice]
  rfl

/-- A link that scans too few characters ends the chain, with the index back at the start. -/
theorem extendAll_of_few (h : c.Parts before run ahead) {link : ExtendOp} (links : List ExtendOp)
    (hfew : (link.test.taken link.max ahead).length < link.min) :
    c.extendAll (link :: links) =
      .ok ⟨false, { c with index := c.start }, [String.ofList (link.test.taken link.max ahead)]⟩ := by
  have hscan := h.scan_eq link.max link.test
  have hrun := h.upTo_eq (link.test.taken_isPrefix link.max ahead)
  have hlink := link.run_eq h
  rw [link.attempt_eq, settleExtension_bounded_of_few c hfew] at hlink
  simp [extendAll, hscan, hrun, hlink, bind, Except.bind, pure, Except.pure]

/-- A link that scans enough characters hands the cursor behind them on. -/
theorem extendAll_of_enough (h : c.Parts before run ahead) {link : ExtendOp} {links : List ExtendOp} {e : ChainEnd}
    (henough : link.min ≤ (link.test.taken link.max ahead).length)
    (hlinks : ({ c with index := c.index + Utf8.width (link.test.taken link.max ahead) } : Cursor).extendAll links =
      .ok e) :
    c.extendAll (link :: links) =
      .ok { e with runs := String.ofList (link.test.taken link.max ahead) :: e.runs } := by
  have hscan := h.scan_eq link.max link.test
  have hrun := h.upTo_eq (link.test.taken_isPrefix link.max ahead)
  have hlink := link.run_eq h
  rw [link.attempt_eq, settleExtension_bounded_of_enough c henough] at hlink
  simp [extendAll, hscan, hrun, hlink, hlinks, bind, Except.bind, pure, Except.pure]

/-- As long as the links of a chain succeed, the result grows by their runs; once one fails, all that the token had
taken stands ahead again. -/
theorem exists_extendAll (h : c.Parts before run ahead) (links : List ExtendOp) :
    ∃ e, c.extendAll links = .ok e ∧
      (e.holds = true → e.runs.length = links.length ∧
        ∃ rest, e.cursor.Parts before (run ++ (String.join e.runs).toList) rest) ∧
      (e.holds = false → e.cursor.Parts before [] (run ++ ahead)) := by
  -- by induction on the links; what stands before the token is the same for all of them
  induction links generalizing c run ahead with
  | nil =>
    refine ⟨⟨true, c, []⟩, rfl, ?_, ?_⟩
    · intro _
      exact ⟨rfl, ahead, by simpa using h⟩
    · intro hfails
      cases hfails
  | cons link links ih =>
    rcases Nat.lt_or_ge (link.test.taken link.max ahead).length link.min with hfew | henough
    · -- the start is that of the whole token, so this link gives up what the links before it took as well
      refine ⟨_, h.extendAll_of_few links hfew, ?_, ?_⟩
      · intro hholds
        cases hholds
      · intro _
        exact h.parts_giveUp
    · obtain ⟨rest, hrest⟩ := link.test.taken_isPrefix link.max ahead
      have hsplit : c.Parts before run (link.test.taken link.max ahead ++ rest) := by rwa [hrest]
      obtain ⟨e, hlinks, hholds, hgivenUp⟩ := ih hsplit.parts_extend
      refine ⟨_, h.extendAll_of_enough henough hlinks, ?_, ?_⟩
      · intro he
        obtain ⟨hlength, rest', hparts⟩ := hholds he
        refine ⟨by simp [hlength], rest', ?_⟩
        simpa [List.append_assoc] using hparts
      · intro he
        have hparts := hgivenUp he
        rwa [List.append_assoc, hrest] at hparts

/-- A match that fails ends the chain with the cursor as it was. -/
theorem chain_of_refused (h : c.Parts before run ahead) {op : MatchOp} (hfound : (op.attempt ahead).taken? = none)
    (links : List ExtendOp) : c.chain op links = .ok ⟨false, c, []⟩ := by
  have hmatch := op.run_eq h
  simp [chain, hmatch, settle, hfound, refuse, bind, Except.bind, pure, Except.pure]

/-- A match that succeeds hands the cursor behind what it took on to the links. -/
theorem chain_of_taken (h : c.Parts before run ahead) {op : MatchOp} {taken : List Char} {links : List ExtendOp}
    {e : ChainEnd} (hfound : (op.attempt ahead).taken? = some taken)
    (hlinks : (c.acceptTo (c.index + Utf8.width taken)).extendAll links = .ok e) :
    c.chain op links = .ok { e with runs := String.ofList taken :: e.runs } := by
  have hmatch := op.run_eq h
  have hrun := h.upTo_eq (op.sound_attempt ahead taken hfound)
  have hindex : (c.acceptTo (c.index + Utf8.width taken)).index = c.index + Utf8.width taken := rfl
  simp [chain, hmatch, settle, hfound, hindex, hrun, hlinks, bind, Except.bind, pure, Except.pure]

/-- A match and the links behind it. -/
theorem exists_chain (h : c.Parts before run ahead) (op : MatchOp) (links : List ExtendOp) :
    ∃ e, c.chain op links = .ok e ∧
      (e.holds = true → e.runs.length = links.length + 1 ∧
        ∃ rest, e.cursor.Parts (before ++ run) (String.join e.runs).toList rest) ∧
      (e.holds = false → e.cursor.index = c.index ∧ ∃ before' run', e.cursor.Parts before' run' ahead) := by
  cases hfound : (op.attempt ahead).taken? with
  | none =>
    refine ⟨_, h.chain_of_refused hfound links, ?_, ?_⟩
    · intro hholds
      cases hholds
    · intro _
      exact ⟨rfl, before, run, h⟩
  | some taken =>
    obtain ⟨rest, rfl⟩ := op.sound_attempt ahead taken hfound
    obtain ⟨e, hlinks, hholds, hgivenUp⟩ := h.parts_acceptTo.exists_extendAll links
    refine ⟨_, h.chain_of_taken hfound hlinks, ?_, ?_⟩
    · intro he
      obtain ⟨hlength, rest', hparts⟩ := hholds he
      refine ⟨by simp [hlength], rest', ?_⟩
      simpa using hparts
    · intro he
      have hparts := hgivenUp he
      have hindex : e.cursor.index = c.index := by rw [hparts.index_eq, h.index_eq, List.append_nil]
      exact ⟨hindex, _, _, hparts⟩

end Parts

end Cursor

/-- An operation that begins a new result answers by what stands ahead and where, not by where the old result began. -/
theorem Operation.run_of_same_ahead {c c' : Cursor} {before run before' run' ahead : List Char}
    (h : c.Parts before run ahead) (h' : c'.Parts before' run' ahead) (hindex : c.index = c'.index) {op : Operation}
    (hop : op.beginsAnew = true) :
    ∃ o o', op.run c = .ok o ∧ op.run c' = .ok o' ∧ o.reply = o'.reply ∧ o.cursor.index = o'.cursor.index := by
  obtain ⟨f, hfinds⟩ := Operation.exists_finding hop ahead c.index
  have hagrees := Cursor.agrees_conclude hindex f
  exact ⟨_, _, hfinds h rfl, hfinds h' hindex.symm, hagrees.reply_eq, hagrees.index_eq⟩

namespace Cursor

/-- From any place that can be reached a chain is evaluated. If it holds, the result begins at the old index and is the
runs of all links joined; if not, the index is the old one, and an operation that begins a new result answers and moves
the index as it would have done without the chain. -/
theorem chain_all_or_nothing {t : Text} {c : Cursor} (h : Reachable t c) (op : MatchOp) (links : List ExtendOp) :
    ∃ e, c.chain op links = .ok e ∧
      (e.holds = true → e.cursor.start = c.index ∧ e.runs.length = links.length + 1 ∧
        e.cursor.result = .ok (String.join e.runs)) ∧
      (e.holds = false → e.cursor.index = c.index ∧
        ∀ next : Operation, next.beginsAnew = true → ∃ o o', next.run e.cursor = .ok o ∧ next.run c = .ok o' ∧
          o.reply = o'.reply ∧ o.cursor.index = o'.cursor.index) := by
  obtain ⟨-, hwell⟩ := reachable_iff.1 h
  obtain ⟨before, run, ahead, hparts⟩ := wellFormed_iff_exists_parts.1 hwell
  obtain ⟨e, hchain, hholds, hgivenUp⟩ := hparts.exists_chain op links
  refine ⟨e, hchain, ?_, ?_⟩
  · intro he
    obtain ⟨hlength, rest, htoken⟩ := hholds he
    refine ⟨by rw [htoken.start_eq, hparts.index_eq], hlength, ?_⟩
    rw [htoken.result_eq, String.ofList_toList]
  · intro he
    obtain ⟨hindex, before', run', hafter⟩ := hgivenUp he
    refine ⟨hindex, ?_⟩
    intro next hnext
    exact Operation.run_of_same_ahead hafter hparts hindex hnext

/-- A chain whose last link needs more digits than there are, after a match and an extension that succeed; and the chain
that needs one digit less. -/
theorem chain_all_or_nothing_too_few_digits :
    let t : Text := ⟨['é', '+', '1'], by decide⟩
    let links (min : Nat) : List ExtendOp := [.whileHolds (.equals '+'), .whileBounded 0 min .digit]
    let failed : ChainEnd := ⟨false, ofText t, ["é", "+", "1"]⟩
    Reachable t (ofText t) ∧
      ((ofText t).chain (.char 'é') (links 2) = .ok failed ∧ failed.cursor.index = 0 ∧
        ∀ next : Operation, next.beginsAnew = true → ∃ o o', next.run failed.cursor = .ok o ∧
          next.run (ofText t) = .ok o' ∧ o.reply = o'.reply ∧ o.cursor.index = o'.cursor.index) ∧
      ∃ e, (ofText t).chain (.char 'é') (links 1) = .ok e ∧ e.holds = true ∧ e.runs = ["é", "+", "1"] ∧
        e.cursor.start = 0 ∧ e.cursor.index = 4 ∧ e.cursor.result = .ok "é+1" := by
  intro t links failed
  have hreached : Reachable t (ofText t) := .ofText
  have hfails : (ofText t).chain (.char 'é') (links 2) = .ok failed := rfl
  have hholds : (ofText t).chain (.char 'é') (links 1) = .ok ⟨true, ⟨t, 0, 4⟩, ["é", "+", "1"]⟩ := rfl
  obtain ⟨e, hchain, -, hgivenUp⟩ := chain_all_or_nothing hreached (.char 'é') (links 2)
  obtain rfl : e = failed := Except.ok.inj (hchain.symm.trans hfails)
  obtain ⟨e', hchain', hall, -⟩ := chain_all_or_nothing hreached (.char 'é') (links 1)
  obtain rfl := Except.ok.inj (hchain'.symm.trans hholds)
  obtain ⟨hstart, -, hresult⟩ := hall rfl
  obtain ⟨hindex, hnext⟩ := hgivenUp rfl
  exact ⟨hreached, ⟨hfails, hindex, hnext⟩, _, hholds, rfl, rfl, hstart, rfl, hresult⟩

end Cursor

end TextCursor
