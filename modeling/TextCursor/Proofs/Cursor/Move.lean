import TextCursor.Proofs.Cursor.Effect

/-!
# How operations move a cursor

Apart from the two setters there are four ways in which an operation can move a cursor, and its answer tells which
(`Operation.move`). It takes what stands ahead as the new result; it extends the result by what stands ahead; it gives
the result up, so that the same characters stand ahead again; or it stays. `Move.LeadsTo` says what each way does to the
three parts into which a cursor cuts its text, and `Operation.exists_move` that every operation but the setters is
carried out and moves the cursor in the way that its answer tells.

No way loses a character or takes one twice: the three parts always join to the same text.
-/

set_option autoImplicit false

namespace TextCursor

/-- What an operation does to the result. -/
inductive Move where
  | take | extend | giveUp | stay
deriving DecidableEq, Repr

namespace Operation

/-- Whether the operation sets an offset that its caller chooses. -/
def isSetter : Operation → Bool
  | setStart _ | setIndex _ => true
  | tryMatch _ | extend _ | skip _ | skipCount _ | nextChar | revert => false

/-- The way in which an operation with the given answer has moved the cursor. -/
def move : Operation → Reply → Move
  | tryMatch _, .flag true | skip _, _ | skipCount _, .unit | nextChar, .char _ => .take
  | extend _, .flag true => .extend
  | extend _, _ | revert, _ => .giveUp
  | tryMatch _, _ | skipCount _, _ | nextChar, _ | setStart _, _ | setIndex _, _ => .stay

end Operation

/-- Where a move leads from a cursor with the given parts. -/
def Move.LeadsTo (m : Move) (before run ahead : List Char) (c next : Cursor) : Prop :=
  match m with
  | take => ∃ taken rest, ahead = taken ++ rest ∧ next.Parts (before ++ run) taken rest
  | extend => ∃ taken rest, ahead = taken ++ rest ∧ next.Parts before (run ++ taken) rest
  | giveUp => next.Parts before [] (run ++ ahead)
  | stay => next = c

namespace Cursor

variable {c : Cursor} {before run ahead : List Char}

namespace Parts

/-- Moving the index alone adds what it moves over to the result. -/
theorem parts_extend {taken : List Char} (h : c.Parts before run (taken ++ ahead)) :
    ({ c with index := c.index + Utf8.width taken } : Cursor).Parts before (run ++ taken) ahead where
  chars_eq := by simp [h.chars_eq]
  start_eq := h.start_eq
  index_eq := by simp [h.index_eq, Nat.add_assoc]

/-- Going back to the start gives the whole result up, and what stands ahead begins with it. -/
theorem parts_giveUp (h : c.Parts before run ahead) :
    ({ c with index := c.start } : Cursor).Parts before [] (run ++ ahead) where
  chars_eq := by simp [h.chars_eq]
  start_eq := h.start_eq
  index_eq := by simp [h.start_eq]

theorem leadsTo_acceptTo (h : c.Parts before run ahead) {taken : List Char} (htaken : taken <+: ahead) :
    Move.take.LeadsTo before run ahead c (c.acceptTo (c.index + Utf8.width taken)) := by
  obtain ⟨rest, rfl⟩ := htaken
  exact ⟨taken, rest, rfl, h.parts_acceptTo⟩

theorem leadsTo_extend (h : c.Parts before run ahead) {taken : List Char} (htaken : taken <+: ahead) :
    Move.extend.LeadsTo before run ahead c { c with index := c.index + Utf8.width taken } := by
  obtain ⟨rest, rfl⟩ := htaken
  exact ⟨taken, rest, rfl, h.parts_extend⟩

/-- A match takes what it found, or stays. -/
theorem leadsTo_settle (h : c.Parts before run ahead) {a : Attempt} (ha : a.Sound ahead) (op : MatchOp) :
    ((Operation.tryMatch op).move (.flag (c.settle a).reply)).LeadsTo before run ahead c (c.settle a).cursor := by
  unfold settle
  split
  next taken htaken => exact h.leadsTo_acceptTo (ha taken htaken)
  next => rfl

/-- An extension goes on with what it found, or gives everything up. -/
theorem leadsTo_settleExtension (h : c.Parts before run ahead) {a : Attempt} (ha : a.Sound ahead) (op : ExtendOp) :
    ((Operation.extend op).move (.flag (c.settleExtension a).reply)).LeadsTo before run ahead c
      (c.settleExtension a).cursor := by
  unfold settleExtension
  split
  next taken htaken => exact h.leadsTo_extend (ha taken htaken)
  next => exact h.parts_giveUp

end Parts

end Cursor

/-- One step: from a cursor with given parts every operation that sets no offset is carried out, and moves the cursor in
the way that its answer tells. -/
theorem Operation.exists_move {c : Cursor} {before run ahead : List Char} (h : c.Parts before run ahead)
    {op : Operation} (hop : op.isSetter = false) :
    ∃ o, op.run c = .ok o ∧ (op.move o.reply).LeadsTo before run ahead c o.cursor := by
  cases op with
  | tryMatch op => exact ⟨_, Operation.run_tryMatch_eq op h, h.leadsTo_settle (op.sound_attempt ahead) op⟩
  | extend op => exact ⟨_, Operation.run_extend_eq op h, h.leadsTo_settleExtension (op.sound_attempt ahead) op⟩
  | skip op => exact ⟨_, Operation.run_skip_eq op h, h.leadsTo_acceptTo (op.taken_isPrefix ahead)⟩
  | skipCount n =>
    refine ⟨_, Operation.run_skipCount_eq n h, ?_⟩
    split
    · rfl
    · exact h.leadsTo_acceptTo (ahead.take_prefix n)
  | nextChar =>
    refine ⟨_, Operation.run_nextChar_eq h, ?_⟩
    cases ahead with
    | nil => rfl
    | cons ch rest =>
      have hone : [ch] <+: ch :: rest := ⟨rest, rfl⟩
      exact h.leadsTo_acceptTo hone
  | revert => exact ⟨_, rfl, h.parts_giveUp⟩
  | setStart start => cases hop
  | setIndex index => cases hop

end TextCursor
