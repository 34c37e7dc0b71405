import TextCursor.Proofs.Cursor.Chain

/-!
# What each family of operations promises

A cursor can fail in three ways, and no operation mixes them. A match that fails changes nothing; an extension that
fails goes back to the start; an operation that is asked for an offset or a number of characters and is refused answers
with an error, changes nothing and leaves one record for debugging. A skip cannot fail.

`AfterMatch`, `AfterExtension`, `AfterSkip`, `AfterRequest` and `AfterTracedRequest` say this of one outcome. Every
operation keeps the promise of its family, from every place that can be reached and for all arguments
(`Cursor.families_keep_promises`). Going back to the start by `revert` belongs to no family.
-/

set_option autoImplicit false

namespace TextCursor

/-- There is one record, and it has the given level. -/
def LoggedOnce (level : Level) (log : List Record) : Prop :=
  ∃ record, log = [record] ∧ record.level = level

namespace Cursor

/-- A match that fails changes nothing. One that succeeds makes a run that stood at the old index the result. -/
structure AfterMatch (c : Cursor) (o : Outcome Bool) : Prop where
  unchanged : o.reply = false → o.cursor = c
  start_eq : o.reply = true → o.cursor.start = c.index
  index_le : o.reply = true → c.index ≤ o.cursor.index
  result_isPrefix : o.reply = true →
    ∃ result rest, o.cursor.result = .ok result ∧ c.rest = .ok rest ∧ result.toList <+: rest
  silent : o.log = []

/-- An extension never moves the start. One that fails goes back to it, and one that needs no character cannot fail. -/
structure AfterExtension (c : Cursor) (min : Nat) (o : Outcome Bool) : Prop where
  start_eq : o.cursor.start = c.start
  index_le : o.reply = true → c.index ≤ o.cursor.index
  index_eq : o.reply = false → o.cursor.index = c.start
  succeeds : min = 0 → o.reply = true
  silent : o.log = []

/-- A skip takes what lies between the old index and the new one. -/
structure AfterSkip (c : Cursor) (o : Outcome Unit) : Prop where
  start_eq : o.cursor.start = c.index
  index_le : c.index ≤ o.cursor.index
  silent : o.log = []

/-- A request that is refused changes nothing, and is recorded once for debugging. -/
structure AfterRequest {α : Type} (c : Cursor) (o : Outcome (Except ScanError α)) : Prop where
  unchanged : ∀ e, o.reply = .error e → o.cursor = c
  refused : ∀ e, o.reply = .error e → LoggedOnce .debug o.log

/-- A request that is traced when it is granted. -/
structure AfterTracedRequest {α : Type} (c : Cursor) (o : Outcome (Except ScanError α)) : Prop
    extends AfterRequest c o where
  granted : ∀ a, o.reply = .ok a → LoggedOnce .trace o.log

/-- Every operation is carried out and keeps the promise of its family. -/
structure KeepsPromises (c : Cursor) : Prop where
  tryMatch : ∀ op : MatchOp, ∃ o, op.run c = .ok o ∧ c.AfterMatch o
  extend : ∀ op : ExtendOp, ∃ o, op.run c = .ok o ∧ c.AfterExtension op.min o
  skip : ∀ op : SkipOp, ∃ o, op.run c = .ok o ∧ c.AfterSkip o
  skipCount : ∀ n, ∃ o, c.skipCount n = .ok o ∧ c.AfterTracedRequest o
  nextChar : ∃ o, c.nextChar = .ok o ∧ c.AfterRequest o
  setStart : ∀ start, c.AfterTracedRequest (c.setStart start)
  setIndex : ∀ index, c.AfterTracedRequest (c.setIndex index)

section

variable {c : Cursor} {α : Type}

/-- Being refused: the error comes with the cursor as it was and one record. -/
theorem AfterTracedRequest.of_refused {e : ScanError} {record : Record} (hlevel : record.level = .debug) :
    c.AfterTracedRequest (⟨.error e, c, [], [record]⟩ : Outcome (Except ScanError α)) where
  unchanged _ _ := rfl
  refused _ _ := ⟨record, rfl, hlevel⟩
  granted _ hreply := nomatch hreply

theorem AfterTracedRequest.of_granted {a : α} {next : Cursor} {record : Record} (hlevel : record.level = .trace) :
    c.AfterTracedRequest (⟨.ok a, next, [], [record]⟩ : Outcome (Except ScanError α)) where
  unchanged _ hreply := nomatch hreply
  refused _ hreply := nomatch hreply
  granted _ _ := ⟨record, rfl, hlevel⟩

/-- Whatever is wrong with an offset, the record of it is for debugging. -/
theorem level_of_offsetFault? {offset : Nat} {e : ScanError} {record : Record}
    (h : c.offsetFault? offset = some (e, record)) : record.level = .debug := by
  unfold offsetFault? at h
  split at h
  · cases h
    rfl
  · split at h
    · cases h
      rfl
    · cases h

theorem afterTracedRequest_moveTo {offset : Nat} {next : Cursor} {record : Record} (hlevel : record.level = .trace) :
    c.AfterTracedRequest (c.moveTo offset next record) := by
  unfold moveTo
  split
  next hfault => exact .of_refused (level_of_offsetFault? hfault)
  next => exact .of_granted hlevel

theorem afterExtension_of_few {min : Nat} {asked : List Inquiry} (hmin : min ≠ 0) :
    c.AfterExtension min ⟨false, { c with index := c.start }, asked, []⟩ where
  start_eq := rfl
  index_le hreply := nomatch hreply
  index_eq _ := rfl
  succeeds hzero := absurd hzero hmin
  silent := rfl

theorem afterExtension_of_enough {min stop : Nat} {asked : List Inquiry} (hle : c.index ≤ stop) :
    c.AfterExtension min ⟨true, { c with index := stop }, asked, []⟩ where
  start_eq := rfl
  index_le _ := hle
  index_eq hreply := nomatch hreply
  succeeds _ := rfl
  silent := rfl

/-- A run may be too short only if it has to have some characters. -/
theorem afterExtension_settleExtension (c : Cursor) (max min : Nat) (t : CharTest) (ahead : List Char) :
    c.AfterExtension min (c.settleExtension (.bounded max min t ahead)) := by
  rcases Nat.lt_or_ge (t.taken max ahead).length min with hfew | henough
  · rw [settleExtension_bounded_of_few c hfew]
    have hmin : min ≠ 0 := by omega
    exact afterExtension_of_few hmin
  · rw [settleExtension_bounded_of_enough c henough]
    exact afterExtension_of_enough (Nat.le_add_right _ _)

theorem afterMatch_of_refused {asked : List Inquiry} : c.AfterMatch ⟨false, c, asked, []⟩ where
  unchanged _ := rfl
  start_eq hreply := nomatch hreply
  index_le hreply := nomatch hreply
  result_isPrefix hreply := nomatch hreply
  silent := rfl

end

namespace Parts

variable {c : Cursor} {before run ahead : List Char}

theorem afterMatch_of_taken {taken : List Char} (h : c.Parts before run (taken ++ ahead)) {asked : List Inquiry} :
    c.AfterMatch ⟨true, c.acceptTo (c.index + Utf8.width taken), asked, []⟩ where
  unchanged hreply := nomatch hreply
  start_eq _ := rfl
  index_le _ := Nat.le_add_right _ _
  result_isPrefix _ := by
    refine ⟨_, _, h.parts_acceptTo.result_eq, h.rest_eq, ?_⟩
    rw [String.toList_ofList]
    exact List.prefix_append taken ahead
  silent := rfl

theorem afterMatch_settle (h : c.Parts before run ahead) {a : Attempt} (ha : a.Sound ahead) :
    c.AfterMatch (c.settle a) := by
  cases hfound : a.taken? with
  | none =>
    have hsettle : c.settle a = ⟨false, c, a.asked, []⟩ := by rw [settle, hfound]; rfl
    rw [hsettle]
    exact afterMatch_of_refused
  | some taken =>
    have hsettle : c.settle a = ⟨true, c.acceptTo (c.index + Utf8.width taken), a.asked, []⟩ := by rw [settle, hfound]
    rw [hsettle]
    obtain ⟨rest, rfl⟩ := ha taken hfound
    exact h.afterMatch_of_taken

theorem exists_afterRequest_skipCount (h : c.Parts before run ahead) (n : Nat) :
    ∃ o, c.skipCount n = .ok o ∧ c.AfterTracedRequest o := by
  refine ⟨_, h.skipCount_eq n, ?_⟩
  split
  · exact .of_refused rfl
  · exact .of_granted rfl

theorem exists_afterRequest_nextChar (h : c.Parts before run ahead) : ∃ o, c.nextChar = .ok o ∧ c.AfterRequest o := by
  refine ⟨_, h.nextChar_eq, ?_⟩
  cases ahead with
  | nil => exact (AfterTracedRequest.of_refused rfl).toAfterRequest
  | cons ch rest =>
    constructor
    · intro e hreply
      cases hreply
    · intro e hreply
      cases hreply

theorem keepsPromises_of_parts (h : c.Parts before run ahead) : c.KeepsPromises where
  tryMatch op := ⟨_, op.run_eq h, h.afterMatch_settle (op.sound_attempt ahead)⟩
  extend op := by
    refine ⟨_, op.run_eq h, ?_⟩
    rw [op.attempt_eq]
    exact afterExtension_settleExtension c op.max op.min op.test ahead
  skip op := ⟨_, op.run_eq h, { start_eq := rfl, index_le := Nat.le_add_right _ _, silent := rfl }⟩
  skipCount n := h.exists_afterRequest_skipCount n
  nextChar := h.exists_afterRequest_nextChar
  setStart _ := afterTracedRequest_moveTo rfl
  setIndex _ := afterTracedRequest_moveTo rfl

end Parts

/-- From any place that can be reached, every operation keeps the promise of its family, whatever its arguments. -/
theorem families_keep_promises {t : Text} {c : Cursor} (h : Reachable t c) : c.KeepsPromises := by
  obtain ⟨-, hwell⟩ := reachable_iff.1 h
  obtain ⟨before, run, ahead, hparts⟩ := wellFormed_iff_exists_parts.1 hwell
  exact hparts.keepsPromises_of_parts

/-- A place with a digit as its result, a letter of two bytes behind it and one of four ahead. The letter ahead can be
matched; an extension by a digit gives the result up, and an offset inside that letter is refused. -/
theorem families_keep_promises_midway :
    let t : Text := ⟨['é', '1', '😀'], by decide⟩
    let c : Cursor := ⟨t, 2, 3⟩
    Reachable t c ∧ c.KeepsPromises ∧ (MatchOp.char '😀').run c = .ok ⟨true, ⟨t, 3, 7⟩, [], []⟩ ∧
      (ExtendOp.whileBounded 0 1 .digit).run c = .ok ⟨false, ⟨t, 2, 2⟩, [], []⟩ ∧
      c.setIndex 5 = ⟨.error (.notCharBoundary 5), c, [], [.offsetInside 5]⟩ := by
  intro t c
  have hreached : Reachable t c := reachable_iff.2 ⟨rfl, by decide, by decide, by decide⟩
  exact ⟨hreached, families_keep_promises hreached, rfl, rfl, rfl⟩

end Cursor

end TextCursor
