import TextCursor.Operation
import TextCursor.Proofs.Cursor.Loops
import TextCursor.Proofs.Utf8.Occurrence

/-!
# The effect of an operation, on characters

Operations compute with offsets and bytes. What they do depends on the characters ahead of the cursor alone, and this
module says what that is: `MatchOp.attempt` and `ExtendOp.attempt` are what a match or an extension finds there,
`SkipOp.taken` is what a skip takes. From a cursor that cuts its text into parts, every operation is carried out, and
its outcome is that of the definition on characters (`MatchOp.run_eq`, `ExtendOp.run_eq`, `SkipOp.run_eq`,
`Cursor.Parts.skipCount_eq`, `Cursor.Parts.nextChar_eq`).

No operation looks at what lies behind the index, except that a failed extension goes back to the start.
-/

set_option autoImplicit false

namespace TextCursor

/-- What a test of the characters ahead comes to: the run it takes, unless it fails, and the notes taken. -/
structure Attempt where
  taken? : Option (List Char)
  asked : List Inquiry

namespace Attempt

/-- One character that passes. At the end nothing is asked. -/
def one (passes : Char → Bool) (notes : Char → List Inquiry) : List Char → Attempt
  | [] => ⟨none, []⟩
  | ch :: _ => ⟨if passes ch then some [ch] else none, notes ch⟩

def literal (cs ahead : List Char) : Attempt :=
  ⟨if cs.isPrefixOf ahead then some cs else none, []⟩

/-- A run that the test accepts, at most `max` characters (0 is no bound) and at least `min`. -/
def bounded (max min : Nat) (t : CharTest) (ahead : List Char) : Attempt :=
  ⟨if (t.taken max ahead).length < min then none else some (t.taken max ahead), t.notes (window max 0 ahead)⟩

/-- The run taken stands at the front of the characters ahead. -/
def Sound (a : Attempt) (ahead : List Char) : Prop :=
  ∀ taken, a.taken? = some taken → taken <+: ahead

theorem sound_one (passes : Char → Bool) (notes : Char → List Inquiry) (ahead : List Char) :
    (one passes notes ahead).Sound ahead := by
  intro taken h
  cases ahead with
  | nil => cases h
  | cons ch ahead =>
    simp only [one] at h
    split at h
    · cases h
      exact List.cons_prefix_cons.2 ⟨rfl, List.nil_prefix⟩
    · cases h

theorem sound_literal (cs ahead : List Char) : (literal cs ahead).Sound ahead := by
  intro taken h
  simp only [literal] at h
  split at h
  next hprefix =>
    cases h
    exact List.isPrefixOf_iff_prefix.1 hprefix
  next => cases h

theorem sound_bounded (max min : Nat) (t : CharTest) (ahead : List Char) :
    (bounded max min t ahead).Sound ahead := by
  intro taken h
  simp only [bounded] at h
  split at h
  · cases h
  · cases h
    exact t.taken_isPrefix max ahead

end Attempt

/-- What a match finds in the characters ahead. -/
def MatchOp.attempt : MatchOp → List Char → Attempt
  | char ch => .one (· == ch) fun _ => []
  | literal s => .literal s.toList
  | charIf t => .one t.accepts fun ch => (t.ask ch).asked
  | anyOf set => .one (· ∈ set.toList) fun _ => []
  | whileHolds t => .bounded 0 1 t
  | whileMax max t => .bounded max 1 t
  | whileBounded max min t => .bounded max min t
  | decimal => .bounded 0 1 .digit
  | decimalMax max => .bounded max 1 .digit
  | decimalBounded max min => .bounded max min .digit
  | hex => .bounded 0 1 .hexDigit
  | hexMax max => .bounded max 1 .hexDigit
  | hexBounded max min => .bounded max min .hexDigit

def ExtendOp.attempt : ExtendOp → List Char → Attempt
  | whileHolds t => .bounded 0 0 t
  | whileMax max t => .bounded max 0 t
  | whileBounded max min t => .bounded max min t

def SkipOp.taken : SkipOp → List Char → List Char
  | anyOf set, ahead => ahead.takeWhile (· ∈ set.toList)
  | whileHolds t, ahead => t.taken 0 ahead
  | char ch, ahead => (CharTest.equals ch).taken 0 ahead
  | toChar ch, ahead => (Utf8.charsBefore? [ch] ahead).getD ahead
  | toLiteral literal, ahead => (Utf8.charsBefore? literal.toList ahead).getD ahead
  | toEnd, ahead => ahead

def SkipOp.asked : SkipOp → List Char → List Inquiry
  | whileHolds t, ahead => t.notes (window 0 0 ahead)
  | char ch, ahead => (CharTest.equals ch).notes (window 0 0 ahead)
  | anyOf _, _ | toChar _, _ | toLiteral _, _ | toEnd, _ => []

theorem MatchOp.sound_attempt (op : MatchOp) (ahead : List Char) : (op.attempt ahead).Sound ahead := by
  cases op with
  | char | charIf | anyOf => exact Attempt.sound_one _ _ _
  | literal => exact Attempt.sound_literal _ _
  | _ => exact Attempt.sound_bounded _ _ _ _

theorem ExtendOp.sound_attempt (op : ExtendOp) (ahead : List Char) : (op.attempt ahead).Sound ahead := by
  cases op <;> exact Attempt.sound_bounded _ _ _ _

theorem SkipOp.taken_isPrefix (op : SkipOp) (ahead : List Char) : op.taken ahead <+: ahead := by
  have hsearch (literal : List Char) : (Utf8.charsBefore? literal ahead).getD ahead <+: ahead := by
    cases hfound : Utf8.charsBefore? literal ahead with
    | none => exact List.prefix_rfl
    | some before => exact Utf8.charsBefore?_isPrefix hfound
  cases op with
  | anyOf => exact List.takeWhile_prefix _
  | whileHolds | char => exact CharTest.taken_isPrefix _ _ _
  | toChar | toLiteral => exact hsearch _
  | toEnd => exact List.prefix_rfl

namespace Cursor

/-- The outcome of a match, from what it found. -/
def settle (c : Cursor) (a : Attempt) : Outcome Bool :=
  match a.taken? with
  | some taken => ⟨true, c.acceptTo (c.index + Utf8.width taken), a.asked, []⟩
  | none => c.refuse a.asked

/-- The outcome of an extension, from what it found. -/
def settleExtension (c : Cursor) (a : Attempt) : Outcome Bool :=
  match a.taken? with
  | some taken => ⟨true, { c with index := c.index + Utf8.width taken }, a.asked, []⟩
  | none => ⟨false, { c with index := c.start }, a.asked, []⟩

section

variable {max min : Nat} {t : CharTest} {ahead : List Char}

theorem settle_bounded_of_few (c : Cursor) (hfew : (t.taken max ahead).length < min) :
    c.settle (.bounded max min t ahead) = c.refuse (t.notes (window max 0 ahead)) := by
  rw [Attempt.bounded, if_pos hfew, settle]

theorem settle_bounded_of_enough (c : Cursor) (henough : min ≤ (t.taken max ahead).length) :
    c.settle (.bounded max min t ahead) =
      ⟨true, c.acceptTo (c.index + Utf8.width (t.taken max ahead)), t.notes (window max 0 ahead), []⟩ := by
  rw [Attempt.bounded, if_neg (Nat.not_lt.2 henough), settle]

theorem settleExtension_bounded_of_few (c : Cursor) (hfew : (t.taken max ahead).length < min) :
    c.settleExtension (.bounded max min t ahead) =
      ⟨false, { c with index := c.start }, t.notes (window max 0 ahead), []⟩ := by
  rw [Attempt.bounded, if_pos hfew, settleExtension]

theorem settleExtension_bounded_of_enough (c : Cursor) (henough : min ≤ (t.taken max ahead).length) :
    c.settleExtension (.bounded max min t ahead) =
      ⟨true, { c with index := c.index + Utf8.width (t.taken max ahead) }, t.notes (window max 0 ahead), []⟩ := by
  rw [Attempt.bounded, if_neg (Nat.not_lt.2 henough), settleExtension]

end

namespace Parts

variable {c : Cursor} {before run ahead : List Char}

theorem ofText (t : Text) : (Cursor.ofText t).Parts [] [] t.chars :=
  ⟨by simp [Cursor.ofText], rfl, rfl⟩

theorem isAtEnd_eq (h : c.Parts before run ahead) : c.isAtEnd = ahead.isEmpty := by
  have hlength := h.length_eq_index_add
  cases ahead with
  | nil => simp [isAtEnd, hlength]
  | cons ch ahead =>
    have hpos := ch.utf8Size_pos
    simp only [isAtEnd, hlength, Utf8.width_cons, List.isEmpty_cons, decide_eq_false_iff_not]
    omega

/-- An offset within what stands ahead fits a word. -/
theorem add_width_eq_ok (h : c.Parts before run ahead) {taken : List Char} (htaken : taken <+: ahead) :
    Offset.add c.index (Utf8.width taken) = .ok (c.index + Utf8.width taken) := by
  obtain ⟨rest, rfl⟩ := htaken
  have hfits := h.index_add_width_lt
  rw [Utf8.width_append] at hfits
  exact Offset.add_eq_ok (by omega)

theorem accept_eq_of_isPrefix (h : c.Parts before run ahead) {taken : List Char} (htaken : taken <+: ahead) :
    c.accept taken = .ok (c.acceptTo (c.index + Utf8.width taken)) := by
  obtain ⟨rest, rfl⟩ := htaken
  exact h.accept_eq

theorem matchLiteral_eq (h : c.Parts before run ahead) (literal : String) :
    c.matchLiteral literal = .ok (c.settle (.literal literal.toList ahead)) := by
  have hfront : (Utf8.encode literal.toList).isPrefixOf (Utf8.encode ahead) = literal.toList.isPrefixOf ahead := by
    rw [Bool.eq_iff_iff, List.isPrefixOf_iff_prefix, List.isPrefixOf_iff_prefix]
    exact Utf8.encode_isPrefix_iff
  simp only [matchLiteral, h.rest_eq, hfront, bind, Except.bind, pure, Except.pure]
  cases hprefix : literal.toList.isPrefixOf ahead with
  | false => simp [settle, Attempt.literal, hprefix]
  | true =>
    have hadd := h.add_width_eq_ok (List.isPrefixOf_iff_prefix.1 hprefix)
    simp [settle, Attempt.literal, hprefix, Utf8.length_encode, hadd]

/-- A match of a literal that stands ahead. -/
theorem matchLiteral_of_stands {literal : String} {rest : List Char}
    (h : c.Parts before run (literal.toList ++ rest)) :
    c.matchLiteral literal = .ok ⟨true, c.acceptTo (c.index + Utf8.width literal.toList), [], []⟩ := by
  have hfound : (Attempt.literal literal.toList (literal.toList ++ rest)).taken? = some literal.toList :=
    if_pos (List.isPrefixOf_iff_prefix.2 (List.prefix_append _ _))
  rw [h.matchLiteral_eq, settle, hfound]
  rfl

/-- A match of a literal that does not stand ahead. -/
theorem matchLiteral_of_not_isPrefix (h : c.Parts before run ahead) {literal : String}
    (hliteral : ¬ literal.toList <+: ahead) : c.matchLiteral literal = .ok (c.refuse []) := by
  have hfound : (Attempt.literal literal.toList ahead).taken? = none :=
    if_neg (mt List.isPrefixOf_iff_prefix.1 hliteral)
  rw [h.matchLiteral_eq, settle, hfound]
  rfl

theorem accept_head_eq {ch : Char} {rest : List Char} (h : c.Parts before run (ch :: rest)) :
    c.accept [ch] = .ok (c.acceptTo (c.index + Utf8.width [ch])) :=
  h.accept_eq_of_isPrefix ⟨rest, rfl⟩

theorem matchChar_eq (h : c.Parts before run ahead) (ch : Char) :
    c.matchChar ch = .ok (c.settle (.one (· == ch) (fun _ => []) ahead)) := by
  cases ahead with
  | nil => simp [matchChar, h.peek_eq, settle, Attempt.one, bind, Except.bind, pure, Except.pure]
  | cons first rest =>
    by_cases heq : first = ch
    · subst heq
      simp [matchChar, h.peek_eq, h.accept_head_eq, settle, Attempt.one, bind, Except.bind, pure, Except.pure]
    · simp [matchChar, h.peek_eq, settle, Attempt.one, heq, bind, Except.bind, pure, Except.pure]

/-- A match of one character that stands ahead. -/
theorem exists_matchChar {ch : Char} {rest : List Char} (h : c.Parts before run (ch :: rest)) :
    ∃ o, c.matchChar ch = .ok o ∧ o.reply = true ∧ o.cursor.Parts (before ++ run) [ch] rest := by
  have hfound : (Attempt.one (· == ch) (fun _ => []) (ch :: rest)).taken? = some [ch] := if_pos (by simp)
  have hsettle : c.settle (Attempt.one (· == ch) (fun _ => []) (ch :: rest)) =
      ⟨true, c.acceptTo (c.index + Utf8.width [ch]), [], []⟩ := by
    rw [settle, hfound]
    rfl
  have hsplit : c.Parts before run ([ch] ++ rest) := h
  exact ⟨_, (h.matchChar_eq ch).trans (congrArg Except.ok hsettle), rfl, hsplit.parts_acceptTo⟩

/-- A match of one character that does not stand ahead. -/
theorem matchChar_of_head?_ne (h : c.Parts before run ahead) {ch : Char} (hahead : ahead.head? ≠ some ch) :
    ∃ o, c.matchChar ch = .ok o ∧ o.reply = false ∧ o.cursor = c := by
  have hfound : (Attempt.one (· == ch) (fun _ => []) ahead).taken? = none := by
    cases ahead with
    | nil => rfl
    | cons first ahead =>
      have hne : (first == ch) = false := beq_false_of_ne fun heq => hahead (by rw [heq]; rfl)
      exact if_neg (by simp [hne])
  refine ⟨_, h.matchChar_eq ch, ?_⟩
  rw [settle, hfound]
  exact ⟨rfl, rfl⟩

theorem matchAnyOf_eq (h : c.Parts before run ahead) (set : String) :
    c.matchAnyOf set = .ok (c.settle (.one (· ∈ set.toList) (fun _ => []) ahead)) := by
  cases ahead with
  | nil => simp [matchAnyOf, h.peek_eq, settle, Attempt.one, bind, Except.bind, pure, Except.pure]
  | cons first rest =>
    by_cases hmem : first ∈ set.toList
    · simp [matchAnyOf, h.peek_eq, h.accept_head_eq, settle, Attempt.one, hmem, bind, Except.bind, pure, Except.pure]
    · simp [matchAnyOf, h.peek_eq, settle, Attempt.one, hmem, bind, Except.bind, pure, Except.pure]

theorem matchCharIf_eq (h : c.Parts before run ahead) (t : CharTest) :
    c.matchCharIf t = .ok (c.settle (.one t.accepts (fun ch => (t.ask ch).asked) ahead)) := by
  cases ahead with
  | nil => simp [matchCharIf, h.peek_eq, settle, Attempt.one, bind, Except.bind, pure, Except.pure]
  | cons first rest =>
    cases haccept : t.accepts first with
    | true =>
      simp [matchCharIf, h.peek_eq, h.accept_head_eq, settle, Attempt.one, haccept, bind, Except.bind, pure,
        Except.pure]
    | false => simp [matchCharIf, h.peek_eq, settle, Attempt.one, haccept, bind, Except.bind, pure, Except.pure]

theorem matchWhileBounded_eq (h : c.Parts before run ahead) (max min : Nat) (t : CharTest) :
    c.matchWhileBounded max min t = .ok (c.settle (.bounded max min t ahead)) := by
  by_cases hfew : (t.taken max ahead).length < min <;>
    simp [matchWhileBounded, h.scan_eq, settle, Attempt.bounded, hfew, bind, Except.bind, pure, Except.pure]

theorem extendWhileBounded_eq (h : c.Parts before run ahead) (max min : Nat) (t : CharTest) :
    c.extendWhileBounded max min t = .ok (c.settleExtension (.bounded max min t ahead)) := by
  by_cases hfew : (t.taken max ahead).length < min <;>
    simp [extendWhileBounded, h.scan_eq, settleExtension, Attempt.bounded, hfew, bind, Except.bind, pure, Except.pure]

theorem skipWhile_eq (h : c.Parts before run ahead) (t : CharTest) :
    c.skipWhile t =
      .ok (skipped (c.acceptTo (c.index + Utf8.width (t.taken 0 ahead))) (t.notes (window 0 0 ahead))) := by
  simp [skipWhile, h.scan_eq, bind, Except.bind, pure, Except.pure]

/-- Accepting nothing makes the empty run at the index the result. -/
theorem parts_accept_nothing (h : c.Parts before run ahead) :
    (c.acceptTo c.index).Parts (before ++ run) [] ahead := by
  have hnothing : c.Parts before run ([] ++ ahead) := h
  exact hnothing.parts_acceptTo

theorem skipAnyOf_eq (h : c.Parts before run ahead) (set : String) :
    c.skipAnyOf set =
      .ok (skipped (c.acceptTo (c.index + Utf8.width (ahead.takeWhile (· ∈ set.toList)))) []) := by
  have hloop := h.parts_accept_nothing.advanceOver_eq set.toList
  simp only [skipAnyOf, hloop, bind, Except.bind, pure, Except.pure]
  rfl

theorem bytesFrom_eq (h : c.Parts before run ahead) : c.text.bytesFrom c.index = .ok (Utf8.encode ahead) := by
  have hle : c.index ≤ c.text.length := by
    rw [← length, h.length_eq_index_add]
    exact Nat.le_add_right _ _
  have hdrop : (Utf8.encode c.text.chars).drop c.index = Utf8.encode ahead := by
    rw [h.chars_eq, Utf8.encode_append, h.index_eq, ← Utf8.length_encode, List.drop_left]
  rw [Text.bytesFrom, if_pos hle, hdrop]

/-- A search over bytes for a literal accepts the characters in front of it, or all of them. -/
theorem acceptFound_eq (h : c.Parts before run ahead) (literal : List Char) :
    c.acceptFound ((Utf8.charsBefore? literal ahead).map Utf8.width) =
      .ok (c.acceptTo (c.index + Utf8.width ((Utf8.charsBefore? literal ahead).getD ahead))) := by
  cases hfound : Utf8.charsBefore? literal ahead with
  | none => simp [acceptFound, h.length_eq_index_add, pure, Except.pure]
  | some front =>
    have hadd := h.add_width_eq_ok (Utf8.charsBefore?_isPrefix hfound)
    simp [acceptFound, hadd, bind, Except.bind, pure, Except.pure]

/-- The search for one byte and the search for several come to the same: the first place of the character. -/
theorem skipToChar_eq (h : c.Parts before run ahead) (ch : Char) :
    c.skipToChar ch =
      .ok (skipped (c.acceptTo (c.index + Utf8.width ((Utf8.charsBefore? [ch] ahead).getD ahead))) []) := by
  have hbytes : Utf8.findBytes? (String.utf8EncodeChar ch) (Utf8.encode ahead) =
      (Utf8.charsBefore? [ch] ahead).map Utf8.width := by
    rw [← Utf8.findBytes?_encode (by simp)]
    simp
  have hbyte : ch.toNat < 128 → Utf8.findByte? (UInt8.ofNat ch.toNat) (Utf8.encode ahead) =
      (Utf8.charsBefore? [ch] ahead).map Utf8.width := by
    intro hascii
    rw [Utf8.findByte?_eq_findBytes?, ← hbytes, Utf8.utf8EncodeChar_of_ascii hascii]
  unfold skipToChar skipToCharBy Utf8.ByteSearch.least
  by_cases hascii : ch.toNat < 128
  · simp [h.bytesFrom_eq, hascii, hbyte hascii, h.acceptFound_eq, bind, Except.bind, pure, Except.pure]
  · simp [h.bytesFrom_eq, hascii, hbytes, h.acceptFound_eq, bind, Except.bind, pure, Except.pure]

theorem skipToLiteral_eq (h : c.Parts before run ahead) (literal : String) :
    c.skipToLiteral literal =
      .ok (skipped (c.acceptTo (c.index + Utf8.width ((Utf8.charsBefore? literal.toList ahead).getD ahead))) []) := by
  unfold skipToLiteral skipToLiteralBy
  split
  next hempty =>
    cases ahead <;> simp [hempty, Utf8.charsBefore?]
  next ch hone => rw [hone, ← skipToChar, h.skipToChar_eq]
  next cs hempty hone =>
    have hbytes : Utf8.ByteSearch.least.bytes? (Utf8.encode literal.toList) (Utf8.encode ahead) =
        (Utf8.charsBefore? literal.toList ahead).map Utf8.width := Utf8.findBytes?_encode hempty ahead
    simp [h.bytesFrom_eq, hbytes, h.acceptFound_eq, bind, Except.bind, pure, Except.pure]

/-- Skipping a number of characters takes that many, or leaves everything as it is if there are fewer. -/
theorem skipCount_eq (h : c.Parts before run ahead) (n : Nat) :
    c.skipCount n = .ok (
      if ahead.length < n then
        ⟨.error (.indexOutOfRange (Offset.addSaturating c.index n) c.length), c, [],
          [.skipTooFar n (c.index + Utf8.width ahead)]⟩
      else
        ⟨.ok (), c.acceptTo (c.index + Utf8.width (ahead.take n)), [],
          [.skipped c.index (c.index + Utf8.width (ahead.take n))]⟩) := by
  have hcount := countOff_eq (n := n) h.index_add_width_lt
  by_cases hfew : ahead.length < n <;>
    simp [skipCount, h.rest_eq, hcount, hfew, bind, Except.bind, pure, Except.pure]

theorem nextChar_eq (h : c.Parts before run ahead) :
    c.nextChar = .ok (
      match ahead with
      | ch :: _ => ⟨.ok ch, c.acceptTo (c.index + Utf8.width [ch]), [], []⟩
      | [] => ⟨.error (.indexOutOfRange c.index c.length), c, [], [.noNextChar c.index]⟩) := by
  cases ahead with
  | nil => simp [nextChar, h.peek_eq, bind, Except.bind, pure, Except.pure]
  | cons ch rest => simp [nextChar, h.peek_eq, h.accept_head_eq, bind, Except.bind, pure, Except.pure]

end Parts

end Cursor

section

variable {c : Cursor} {before run ahead : List Char}

theorem MatchOp.run_eq (op : MatchOp) (h : c.Parts before run ahead) :
    op.run c = .ok (c.settle (op.attempt ahead)) := by
  cases op with
  | char ch => exact h.matchChar_eq ch
  | literal s => exact h.matchLiteral_eq s
  | charIf t => exact h.matchCharIf_eq t
  | anyOf set => exact h.matchAnyOf_eq set
  | _ => exact h.matchWhileBounded_eq _ _ _

theorem ExtendOp.run_eq (op : ExtendOp) (h : c.Parts before run ahead) :
    op.run c = .ok (c.settleExtension (op.attempt ahead)) := by
  cases op <;> exact h.extendWhileBounded_eq _ _ _

theorem SkipOp.run_eq (op : SkipOp) (h : c.Parts before run ahead) :
    op.run c = .ok (Cursor.skipped (c.acceptTo (c.index + Utf8.width (op.taken ahead))) (op.asked ahead)) := by
  cases op with
  | anyOf set => exact h.skipAnyOf_eq set
  | whileHolds t => exact h.skipWhile_eq t
  | char ch => exact h.skipWhile_eq _
  | toChar ch => exact h.skipToChar_eq ch
  | toLiteral literal => exact h.skipToLiteral_eq literal
  | toEnd => simp [SkipOp.run, Cursor.skipToEnd, SkipOp.taken, SkipOp.asked, h.length_eq_index_add]

theorem Operation.run_tryMatch_eq (op : MatchOp) (h : c.Parts before run ahead) :
    (Operation.tryMatch op).run c = .ok ((c.settle (op.attempt ahead)).map .flag) := by
  rw [Operation.run, op.run_eq h]
  rfl

theorem Operation.run_extend_eq (op : ExtendOp) (h : c.Parts before run ahead) :
    (Operation.extend op).run c = .ok ((c.settleExtension (op.attempt ahead)).map .flag) := by
  rw [Operation.run, op.run_eq h]
  rfl

theorem Operation.run_skip_eq (op : SkipOp) (h : c.Parts before run ahead) :
    (Operation.skip op).run c =
      .ok ⟨.unit, c.acceptTo (c.index + Utf8.width (op.taken ahead)), op.asked ahead, []⟩ := by
  rw [Operation.run, op.run_eq h]
  rfl

theorem Operation.run_skipCount_eq (n : Nat) (h : c.Parts before run ahead) :
    (Operation.skipCount n).run c = .ok (
      if ahead.length < n then
        ⟨.failure (.indexOutOfRange (Offset.addSaturating c.index n) c.length), c, [],
          [.skipTooFar n (c.index + Utf8.width ahead)]⟩
      else
        ⟨.unit, c.acceptTo (c.index + Utf8.width (ahead.take n)), [],
          [.skipped c.index (c.index + Utf8.width (ahead.take n))]⟩) := by
  rw [Operation.run, h.skipCount_eq]
  by_cases hfew : ahead.length < n
  · rw [if_pos hfew, if_pos hfew]
    rfl
  · rw [if_neg hfew, if_neg hfew]
    rfl

theorem Operation.run_nextChar_eq (h : c.Parts before run ahead) :
    Operation.nextChar.run c = .ok (
      match ahead with
      | ch :: _ => ⟨.char ch, c.acceptTo (c.index + Utf8.width [ch]), [], []⟩
      | [] => ⟨.failure (.indexOutOfRange c.index c.length), c, [], [.noNextChar c.index]⟩) := by
  rw [Operation.run, h.nextChar_eq]
  cases ahead <;> rfl

end

end TextCursor
