import Mathlib.Data.List.Forall2
import TextCursor.Proofs.Cursor.Reachability
import TextCursor.Proofs.Cursor.Succession

/-!
# Trying again from the same place

A cursor keeps two offsets, but an operation that begins a new result looks at only one of them. What it finds, a
`Finding`, is fixed by the characters ahead and the index they stand at (`Operation.exists_finding`): the run it takes if
it succeeds, its answer, the notes of its tests and the records it leaves. The start is where the old result began,
which a success replaces and a failure leaves alone. So two cursors at one place of a text serve equally well, for one
operation or for a run of them (`Cursor.Reachable.interchangeable`).

It follows that a result can be taken back and tried for again. Going back moves the index to the start, which after a
success is where the index was. The start from before is not restored, and need not be: the second try has the same
outcome as the first, to the last record (`Cursor.Reachable.run_reverted`). Going back several times is going back once.
-/

set_option autoImplicit false

namespace TextCursor

/-- Whether the operation takes a new result at the index, if any. -/
def Operation.beginsAnew : Operation → Bool
  | tryMatch _ | skip _ | skipCount _ | nextChar => true
  | extend _ | setStart _ | setIndex _ | revert => false

/-- Whether the answer is that of an operation that has gone well. -/
def Reply.isSuccess : Reply → Bool
  | flag b => b
  | failure _ => false
  | unit | char _ | text _ | count _ | integer _ => true

/-- What an operation that begins a new result finds: what its attempt on the characters ahead comes to, the answer to
it and the records left. -/
structure Finding extends Attempt where
  reply : Reply
  log : List Record
  isSuccess_reply : reply.isSuccess = taken?.isSome

/-- Two outcomes that do not differ, but for the start after a failure. -/
structure Outcome.Agrees (o o' : Outcome Reply) : Prop where
  reply_eq : o.reply = o'.reply
  index_eq : o.cursor.index = o'.cursor.index
  start_eq : o.reply.isSuccess = true → o.cursor.start = o'.cursor.start
  asked_eq : o.asked = o'.asked
  log_eq : o.log = o'.log

def Finding.ofAttempt (a : Attempt) : Finding :=
  ⟨a, .flag a.taken?.isSome, [], rfl⟩

theorem Finding.exists_taken {f : Finding} (hsuccess : f.reply.isSuccess = true) : ∃ taken, f.taken? = some taken := by
  rwa [f.isSuccess_reply, Option.isSome_iff_exists] at hsuccess

namespace Cursor

def acceptIfAny (c : Cursor) : Option (List Char) → Cursor
  | some taken => c.acceptTo (c.index + Utf8.width taken)
  | none => c

/-- The outcome of an operation, from what it found. -/
def conclude (c : Cursor) (f : Finding) : Outcome Reply :=
  ⟨f.reply, c.acceptIfAny f.taken?, f.asked, f.log⟩

variable {c c' : Cursor} {f : Finding}

theorem settle_eq_conclude (c : Cursor) (a : Attempt) : (c.settle a).map .flag = c.conclude (.ofAttempt a) := by
  obtain ⟨taken?, asked⟩ := a
  cases taken? <;> rfl

/-- A run that is taken begins where the index was. -/
theorem start_conclude (c : Cursor) (hsuccess : f.reply.isSuccess = true) : (c.conclude f).cursor.start = c.index := by
  obtain ⟨taken, htaken⟩ := f.exists_taken hsuccess
  rw [conclude, htaken]
  rfl

/-- A run that is taken leaves nothing of the old start. -/
theorem conclude_eq_of_isSuccess (htext : c.text = c'.text) (hindex : c.index = c'.index)
    (hsuccess : f.reply.isSuccess = true) : c.conclude f = c'.conclude f := by
  obtain ⟨taken, htaken⟩ := f.exists_taken hsuccess
  rw [conclude, conclude, htaken, acceptIfAny, acceptIfAny, acceptTo, acceptTo, htext, hindex]

theorem agrees_conclude (hindex : c.index = c'.index) (f : Finding) : (c.conclude f).Agrees (c'.conclude f) where
  reply_eq := rfl
  index_eq := by
    unfold conclude
    cases f.taken? with
    | none => exact hindex
    | some taken => exact congrArg (· + Utf8.width taken) hindex
  start_eq hsuccess := by rw [c.start_conclude hsuccess, c'.start_conclude hsuccess, hindex]
  asked_eq := rfl
  log_eq := rfl

end Cursor

/-- What an operation that begins a new result finds is fixed by what stands ahead and where: with any cursor that has
these characters ahead at this index, that is what its outcome comes from. -/
theorem Operation.exists_finding {op : Operation} (hop : op.beginsAnew = true) (ahead : List Char) (index : Nat) :
    ∃ f : Finding, ∀ {c : Cursor} {before run : List Char}, c.Parts before run ahead → c.index = index →
      op.run c = .ok (c.conclude f) := by
  cases op with
  | tryMatch op =>
    refine ⟨.ofAttempt (op.attempt ahead), ?_⟩
    intro c before run h _
    rw [run_tryMatch_eq op h, c.settle_eq_conclude]
  | skip op => exact ⟨⟨⟨some (op.taken ahead), op.asked ahead⟩, .unit, [], rfl⟩, fun h _ => run_skip_eq op h⟩
  | skipCount n =>
    by_cases hfew : ahead.length < n
    · refine ⟨⟨⟨none, []⟩, .failure (.indexOutOfRange (Offset.addSaturating index n) (index + Utf8.width ahead)),
        [.skipTooFar n (index + Utf8.width ahead)], rfl⟩, ?_⟩
      rintro c before run h rfl
      rw [run_skipCount_eq n h, if_pos hfew, h.length_eq_index_add]
      rfl
    · refine ⟨⟨⟨some (ahead.take n), []⟩, .unit, [.skipped index (index + Utf8.width (ahead.take n))], rfl⟩, ?_⟩
      rintro c before run h rfl
      rw [run_skipCount_eq n h, if_neg hfew]
      rfl
  | nextChar =>
    cases ahead with
    | nil =>
      refine ⟨⟨⟨none, []⟩, .failure (.indexOutOfRange index (index + Utf8.width [])), [.noNextChar index], rfl⟩, ?_⟩
      rintro c before run h rfl
      rw [run_nextChar_eq h, h.length_eq_index_add]
      rfl
    | cons ch rest => exact ⟨⟨⟨some [ch], []⟩, .char ch, [], rfl⟩, fun h _ => run_nextChar_eq h⟩
  | extend | setStart | setIndex | revert => cases hop

namespace Cursor

/-- Whatever begins a new result comes out alike from both cursors. -/
structure Interchangeable (c c' : Cursor) : Prop where
  operations : ∀ op : Operation, op.beginsAnew = true →
    ∃ o o', op.run c = .ok o ∧ op.run c' = .ok o' ∧ o.Agrees o'
  successions : ∀ ops : List Operation, (∀ op ∈ ops, op.beginsAnew = true) →
    ∃ os os' last last', c.inSuccession (ops.map Operation.run) = .ok (os, last) ∧
      c'.inSuccession (ops.map Operation.run) = .ok (os', last') ∧ List.Forall₂ Outcome.Agrees os os' ∧
      last.index = last'.index
  /-- The searches over bytes may be any functions. -/
  searches : ∀ search : Utf8.ByteSearch, (∀ ch, c.skipToCharBy search ch = c'.skipToCharBy search ch) ∧
    ∀ literal, c.skipToLiteralBy search literal = c'.skipToLiteralBy search literal

namespace Reachable

variable {t : Text} {c c' : Cursor}

/-- Two cursors at the same place of a text differ in their starts at most. -/
theorem eq_of_index_eq (h : Reachable t c) (h' : Reachable t c') (hindex : c.index = c'.index) :
    c' = { c with start := c'.start } := by
  obtain ⟨rfl, -⟩ := reachable_iff.1 h
  obtain ⟨htext, -⟩ := reachable_iff.1 h'
  rw [hindex, ← htext]

/-- All cursors at one place of a text find the same. -/
theorem exists_finding (h : Reachable t c) {op : Operation} (hop : op.beginsAnew = true) :
    ∃ f : Finding, ∀ {c' : Cursor}, Reachable t c' → c.index = c'.index → op.run c' = .ok (c'.conclude f) := by
  obtain ⟨before, run, ahead, hparts⟩ := wellFormed_iff_exists_parts.1 (reachable_iff.1 h).2
  obtain ⟨f, hfinds⟩ := Operation.exists_finding hop ahead c.index
  refine ⟨f, ?_⟩
  intro c' h' hindex
  obtain ⟨before', run', ahead', hparts'⟩ := wellFormed_iff_exists_parts.1 (reachable_iff.1 h').2
  have hrest : c'.rest = c.rest := by
    rw [h.eq_of_index_eq h' hindex]
    rfl
  rw [hparts.rest_eq, hparts'.rest_eq] at hrest
  obtain rfl : ahead' = ahead := Except.ok.inj hrest
  exact hfinds hparts' hindex.symm

theorem exists_agreeing_runs (h : Reachable t c) (h' : Reachable t c') (hindex : c.index = c'.index) {op : Operation}
    (hop : op.beginsAnew = true) : ∃ o o', op.run c = .ok o ∧ op.run c' = .ok o' ∧ o.Agrees o' := by
  obtain ⟨f, hfinds⟩ := h.exists_finding hop
  exact ⟨_, _, hfinds h rfl, hfinds h' hindex, agrees_conclude hindex f⟩

/-- A run of both: each operation leaves the two at one place again, even if their starts still differ. -/
theorem exists_agreeing_successions {ops : List Operation} (hops : ∀ op ∈ ops, op.beginsAnew = true)
    (h : Reachable t c) (h' : Reachable t c') (hindex : c.index = c'.index) :
    ∃ os os' last last', c.inSuccession (ops.map Operation.run) = .ok (os, last) ∧
      c'.inSuccession (ops.map Operation.run) = .ok (os', last') ∧ List.Forall₂ Outcome.Agrees os os' ∧
      last.index = last'.index := by
  induction ops generalizing c c' with
  | nil => exact ⟨[], [], c, c', rfl, rfl, .nil, hindex⟩
  | cons op ops ih =>
    obtain ⟨hop, hops⟩ := List.forall_mem_cons.1 hops
    obtain ⟨o, o', hrun, hrun', hagrees⟩ := h.exists_agreeing_runs h' hindex hop
    obtain ⟨os, os', last, last', hos, hos', hall, hlast⟩ := ih hops (h.step hrun) (h'.step hrun') hagrees.index_eq
    exact ⟨_, _, last, last', inSuccession_cons hrun hos, inSuccession_cons hrun' hos', .cons hagrees hall, hlast⟩

theorem interchangeable (h : Reachable t c) (h' : Reachable t c') (hindex : c.index = c'.index) :
    c.Interchangeable c' where
  operations op hop := h.exists_agreeing_runs h' hindex hop
  successions ops hops := exists_agreeing_successions hops h h' hindex
  searches search := by
    rw [h.eq_of_index_eq h' hindex]
    exact ⟨fun _ => rfl, fun _ => rfl⟩

theorem reverted (h : Reachable t c) : Reachable t c.revert.cursor := by
  have hrun : Operation.revert.run c = .ok (c.revert.map fun _ => .unit) := rfl
  exact h.step hrun

/-- Going back after a success leads to the place of the first try, where the second has the same outcome. -/
theorem run_reverted (h : Reachable t c) {op : Operation} (hop : op.beginsAnew = true) {o : Outcome Reply}
    (hrun : op.run c = .ok o) (hsuccess : o.reply.isSuccess = true) :
    c.Interchangeable o.cursor.revert.cursor ∧ op.run o.cursor.revert.cursor = .ok o := by
  have hreached : Reachable t o.cursor := h.step hrun
  obtain ⟨f, hfinds⟩ := h.exists_finding hop
  obtain rfl : c.conclude f = o := Except.ok.inj ((hfinds h rfl).symm.trans hrun)
  have htext : (c.conclude f).cursor.text = c.text := by rw [(reachable_iff.1 hreached).1, (reachable_iff.1 h).1]
  have hindex : (c.conclude f).cursor.start = c.index := c.start_conclude hsuccess
  refine ⟨h.interchangeable hreached.reverted hindex.symm, ?_⟩
  rw [hfinds hreached.reverted hindex.symm]
  exact congrArg Except.ok (conclude_eq_of_isSuccess htext hindex hsuccess)

end Reachable

/-- Going back any number of times is going back once. -/
theorem after_reverts (c : Cursor) (n : Nat) : c.after (List.replicate (n + 1) .revert) = .ok c.revert.cursor := by
  induction n generalizing c with
  | zero => rfl
  | succ n ih =>
    have hstep : c.after (List.replicate (n + 2) .revert) =
        c.revert.cursor.after (List.replicate (n + 1) .revert) := rfl
    -- the index is at the start then, and goes back to where it is
    rw [hstep, ih]
    rfl

/-- From any place that can be reached. With a cursor at the same index of the text, wherever its start is, every
operation that begins a new result gives the same answer and leads to the same index, and to the same start if it
succeeds. After a success, going back leads to such a cursor, and doing the operation again has the same outcome, both
offsets and so the result included. Going back any number of times is going back once. -/
theorem outcomes_depend_on_index {t : Text} {c : Cursor} (h : Reachable t c) :
    (∀ c', Reachable t c' → c.index = c'.index → c.Interchangeable c') ∧
    (∀ op : Operation, op.beginsAnew = true → ∃ o, op.run c = .ok o ∧
      (o.reply.isSuccess = true → ∃ result, o.cursor.result = .ok result ∧
        c.Interchangeable o.cursor.revert.cursor ∧ op.run o.cursor.revert.cursor = .ok o)) ∧
    ∀ n, c.after (List.replicate (n + 1) .revert) = .ok c.revert.cursor := by
  refine ⟨fun c' h' hindex => h.interchangeable h' hindex, ?_, c.after_reverts⟩
  intro op hop
  obtain ⟨o, hrun, -, -⟩ := op.exists_run (reachable_iff.1 h).2
  refine ⟨o, hrun, ?_⟩
  intro hsuccess
  have hwell : o.cursor.WellFormed := (reachable_iff.1 (h.step hrun)).2
  obtain ⟨result, hresult, -⟩ := hwell.yields_result
  exact ⟨result, hresult, h.run_reverted hop hrun hsuccess⟩

/-- Two digits are matched, given back and matched again, behind two letters of which one or both are the result. The
probe is asked about them again. -/
theorem outcomes_depend_on_index_behind_letters :
    let t : Text := ⟨['a', 'é', '1', '2'], by decide⟩
    let op : Operation := .tryMatch (.whileHolds (.probe "digit" .digit))
    let o : Outcome Reply := ⟨.flag true, ⟨t, 3, 5⟩, [⟨"digit", '1'⟩, ⟨"digit", '2'⟩], []⟩
    Reachable t ⟨t, 1, 3⟩ ∧ Reachable t ⟨t, 0, 3⟩ ∧ Interchangeable ⟨t, 1, 3⟩ ⟨t, 0, 3⟩ ∧
      op.run ⟨t, 1, 3⟩ = .ok o ∧ op.run o.cursor.revert.cursor = .ok o ∧
      ∀ n, (⟨t, 1, 3⟩ : Cursor).after (List.replicate (n + 1) .revert) = .ok ⟨t, 1, 1⟩ := by
  intro t op o
  have hreached : Reachable t ⟨t, 1, 3⟩ := reachable_iff.2 ⟨rfl, by decide, by decide, by decide⟩
  have hlonger : Reachable t ⟨t, 0, 3⟩ := reachable_iff.2 ⟨rfl, by decide, by decide, by decide⟩
  obtain ⟨hplaces, hretry, hback⟩ := outcomes_depend_on_index hreached
  have hrun : op.run ⟨t, 1, 3⟩ = .ok o := rfl
  obtain ⟨o', hrun', hagain⟩ := hretry op rfl
  obtain rfl : o' = o := Except.ok.inj (hrun'.symm.trans hrun)
  obtain ⟨-, -, -, hagain⟩ := hagain rfl
  exact ⟨hreached, hlonger, hplaces _ hlonger rfl, hrun, hagain, hback⟩

end Cursor

end TextCursor
