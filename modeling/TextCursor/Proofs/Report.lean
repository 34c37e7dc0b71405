import TextCursor.Proofs.Cursor.Digits
import TextCursor.Proofs.Session
import TextCursor.Proofs.Span

/-!
# What reports say of a text

An error that names an offset, a range or a length says something about the characters that were asked: those of the
text, or of the span that was looked at. `ScanError.Truthful` is what it says: an index out of range is not before the
end, a range out of bounds is the range asked for, and inverted or too long, and an offset that is no boundary lies
inside a character.

All reports are truthful but one. Counting off characters fails when there are too few, and what is reported then is the
index moved by the number of *characters*, as if each had one byte. Where characters have more, that offset can lie
within the text. `Session.Reached.reports_truthful_iff` says so for every command of every session: the report is
truthful unless it comes from such a count, and then exactly if the sum is not within the text. There is a case in which
it is (`Session.skipCount_reports_within_text`).
-/

set_option autoImplicit false

namespace TextCursor

/-- What an error says of the characters that were asked, and of the range that was asked for, if any was. -/
def ScanError.Truthful (cs : List Char) (range? : Option (Nat × Nat)) : ScanError → Prop
  | indexOutOfRange index length => length = Utf8.width cs ∧ length ≤ index
  | rangeOutOfBounds first last length =>
    range? = some (first, last) ∧ length = Utf8.width cs ∧ (last < first ∨ length < last)
  | notCharBoundary offset => offset < Utf8.width cs ∧ Utf8.IsInside cs offset
  | invalidArgument _ | number _ | write _ => True

namespace ScanError

variable {cs : List Char} {offset first last : Nat} {range? : Option (Nat × Nat)} {e : ScanError}

theorem truthful_of_not_isBoundary (hle : offset ≤ Utf8.width cs) (h : ¬ Utf8.IsBoundary cs offset) :
    (notCharBoundary offset).Truthful cs range? := by
  have hne : offset ≠ Utf8.width cs := by
    intro heq
    exact h (heq ▸ Utf8.isBoundary_width cs)
  exact ⟨Nat.lt_of_le_of_ne hle hne, Utf8.isInside_of_not_isBoundary hle h⟩

theorem truthful_of_charAt (h : Access.charAt cs offset = .ok (.error e)) : e.Truthful cs range? := by
  by_cases hend : Utf8.width cs ≤ offset
  · rw [Access.charAt, if_pos hend] at h
    cases h
    exact ⟨rfl, hend⟩
  · rcases Access.charAt_cases (Nat.not_le.1 hend) with ⟨ch, hch⟩ | ⟨hreported, hboundary⟩
    · cases hch.symm.trans h
    · cases hreported.symm.trans h
      exact truthful_of_not_isBoundary (Nat.le_of_not_le hend) hboundary

theorem truthful_of_rangeFault? (h : Access.rangeFault? cs first last = some e) :
    e.Truthful cs (some (first, last)) := by
  unfold Access.rangeFault? at h
  split at h
  next hrange =>
    cases h
    exact ⟨rfl, rfl, hrange⟩
  next hrange =>
    split at h
    next hfirst =>
      cases h
      exact truthful_of_not_isBoundary (by omega) hfirst
    next =>
      split at h
      next hlast =>
        cases h
        exact truthful_of_not_isBoundary (by omega) hlast
      next => cases h

/-- What is wrong with a number is that the digits could not be had, or that they are no number. -/
theorem truthful_of_reading {α : Type} {digits : Except ScanError String} {parse : String → Except Numeral.Error α}
    (hdigits : ∀ cause, digits = .error cause → cause.Truthful cs range?)
    (h : (digits.bind fun ds => (parse ds).mapError .number) = .error e) : e.Truthful cs range? := by
  cases digits with
  | error cause =>
    cases h
    exact hdigits _ rfl
  | ok ds =>
    dsimp only [Except.bind] at h
    cases hparse : parse ds with
    | ok n =>
      rw [hparse] at h
      cases h
    | error fault =>
      rw [hparse] at h
      cases h
      trivial

end ScanError

theorem Reply.eq_error_of_ofExcept {α : Type} {reply : α → Reply} {x : Except ScanError α} {e : ScanError}
    (h : ofExcept reply x = failure e) (hreply : ∀ a, reply a ≠ failure e) : x = .error e := by
  cases x with
  | error cause =>
    cases h
    rfl
  | ok a => exact absurd h (hreply a)

/-- A failure that is shown in place of what was looked up is what the look-up ended in. -/
theorem Outcome.eq_error_of_shown {α : Type} (reply : α → Reply) {x : Except Breach (Except ScanError α)} {c : Cursor}
    {o : Outcome Reply} {e : ScanError} (hrun : (do return ofReply c (Reply.ofExcept reply (← x))) = .ok o)
    (he : o.reply = .failure e) (hreply : ∀ a, reply a ≠ .failure e) : x = .ok (.error e) := by
  obtain ⟨found, hfound, ho⟩ := bind_eq_ok_iff.1 hrun
  cases ho
  rw [hfound, Reply.eq_error_of_ofExcept he hreply]

/-- What is wrong with a part of a span is what is wrong with the range, in the characters of the span. -/
theorem Span.fault_of_sub {v : Span} {first last : Nat} {e : ScanError} (h : v.sub first last = .ok (.error e)) :
    ∃ run, v.chars = .ok run ∧ Access.rangeFault? run first last = some e := by
  obtain ⟨run, hrun, hsub⟩ := bind_eq_ok_iff.1 h
  refine ⟨run, hrun, ?_⟩
  split at hsub
  next hfault =>
    cases hsub
    exact hfault
  next =>
    obtain ⟨start, -, hsub⟩ := bind_eq_ok_iff.1 hsub
    obtain ⟨stop, -, hsub⟩ := bind_eq_ok_iff.1 hsub
    obtain ⟨w, -, hsub⟩ := bind_eq_ok_iff.1 hsub
    cases hsub

namespace Cursor

variable {c : Cursor} {first last offset : Nat} {e : ScanError}

theorem truthful_of_offsetFault? {record : Record} (h : c.offsetFault? offset = some (e, record)) :
    e.Truthful c.text.chars none := by
  unfold offsetFault? at h
  split at h
  next hbeyond =>
    cases h
    exact ⟨rfl, Nat.le_of_lt hbeyond⟩
  next hbeyond =>
    split at h
    next hinside =>
      cases h
      exact ScanError.truthful_of_not_isBoundary (Nat.not_lt.1 hbeyond) hinside
    next => cases h

theorem truthful_of_moveTo {next : Cursor} {record : Record} (h : (c.moveTo offset next record).reply = .error e) :
    e.Truthful c.text.chars none := by
  unfold moveTo at h
  split at h
  next hfault =>
    cases h
    exact truthful_of_offsetFault? hfault
  next => cases h

theorem truthful_of_resultChar {range? : Option (Nat × Nat)} (h : c.resultChar = .ok (.error e)) :
    e.Truthful c.text.chars range? := by
  unfold resultChar at h
  split at h
  next hend =>
    cases h
    exact ⟨rfl, hend⟩
  next => exact ScanError.truthful_of_charAt h

theorem truthful_of_substring (h : c.substring first last = .ok (.error e)) :
    e.Truthful c.text.chars (some (first, last)) := by
  unfold substring at h
  split at h
  next hfault =>
    cases h
    exact ScanError.truthful_of_rangeFault? hfault
  next =>
    obtain ⟨run, -, hmade⟩ := bind_eq_ok_iff.1 h
    cases hmade

theorem truthful_of_substringSpan (h : c.substringSpan first last = .ok (.error e)) :
    e.Truthful c.text.chars (some (first, last)) := by
  rw [substringSpan_eq, Except.ok.injEq, Access.unlessFault_eq_error_iff] at h
  exact ScanError.truthful_of_rangeFault? h

theorem truthful_of_appendSubstring {sink : Sink} {written : Written ScanError}
    (h : c.appendSubstring sink first last = .ok written) (he : written.result = .error e) :
    e.Truthful c.text.chars (some (first, last)) := by
  obtain ⟨content, hcontent, hwrite⟩ := bind_eq_ok_iff.1 h
  cases content with
  | error cause =>
    cases hwrite
    cases he
    exact truthful_of_substring hcontent
  | ok content =>
    dsimp only at hwrite
    split at hwrite
    next =>
      cases hwrite
      cases he
    next =>
      cases hwrite
      cases he
      trivial

/-- A snapshot shows the first character of the result as it is asked for. -/
theorem resultChar_of_snapshot {shot : Snapshot} (h : c.snapshot = .ok shot) :
    c.resultChar = .ok shot.resultChar := by
  obtain ⟨span, -, h⟩ := bind_eq_ok_iff.1 h
  obtain ⟨content, -, h⟩ := bind_eq_ok_iff.1 h
  obtain ⟨length, -, h⟩ := bind_eq_ok_iff.1 h
  obtain ⟨first, hfirst, h⟩ := bind_eq_ok_iff.1 h
  obtain ⟨report, -, h⟩ := bind_eq_ok_iff.1 h
  cases h
  exact hfirst

theorem truthful_of_numeral (h : c.numeral first last = .ok (.error e)) :
    e.Truthful c.text.chars (some (first, last)) := by
  unfold numeral at h
  split at h
  next =>
    cases h
    trivial
  next => exact truthful_of_substring h

theorem truthful_of_number {α : Type} {parse : String → Except Numeral.Error α}
    {refused : String → Numeral.Error → Record} {digits : Except ScanError String} {range? : Option (Nat × Nat)}
    {o : Outcome (Except ScanError α)} (hdigits : c.numeral first last = .ok digits)
    (hcause : ∀ cause, digits = .error cause → cause.Truthful c.text.chars range?)
    (hrun : c.number parse refused first last = .ok o) (he : o.reply = .error e) :
    e.Truthful c.text.chars range? := by
  cases (number_eq hdigits parse refused).symm.trans hrun
  exact ScanError.truthful_of_reading hcause he

/-- The offset reported for a count of characters is not within the text exactly if the sum is not: a sum that does not
fit a word is beyond every text. -/
theorem truthful_indexOutOfRange_iff {n : Nat} {range? : Option (Nat × Nat)} :
    (ScanError.indexOutOfRange (Offset.addSaturating c.index n) c.length).Truthful c.text.chars range? ↔
      c.length ≤ c.index + n := by
  have hfits : c.length < Offset.wordCount := c.text.length_lt_wordCount
  constructor
  · intro h
    obtain ⟨-, hle⟩ := h
    unfold Offset.addSaturating at hle
    omega
  · intro hle
    refine ⟨rfl, ?_⟩
    unfold Offset.addSaturating
    omega

/-- The digits between two offsets, and what stands in their place if they cannot be had. -/
theorem exists_numeral (c : Cursor) (first last : Nat) :
    ∃ digits, c.numeral first last = .ok digits ∧
      ∀ cause, digits = .error cause → cause.Truthful c.text.chars (some (first, last)) := by
  obtain ⟨digits, hdigits, -⟩ := c.yields_numeral first last
  refine ⟨digits, hdigits, ?_⟩
  intro cause hcause
  exact truthful_of_numeral (hcause ▸ hdigits)

/-- The digits of the result can always be had, but there may be none. -/
theorem WellFormed.exists_resultNumeral (h : c.WellFormed) :
    ∃ digits, c.numeral c.start c.index = .ok digits ∧
      ∀ cause, digits = .error cause → cause.Truthful c.text.chars none := by
  obtain ⟨before, run, ahead, hparts⟩ := wellFormed_iff_exists_parts.1 h
  refine ⟨_, hparts.numeral_result_eq, ?_⟩
  intro cause hcause
  split at hcause
  next =>
    cases hcause
    trivial
  next => cases hcause

end Cursor

def Query.range? : Query → Option (Nat × Nat)
  | substring first last | decimal _ _ first last | hex _ first last => some (first, last)
  | isAtEnd | charAt _ | result | resultLength | resultChar | resultDecimal _ _ | resultHex _ => none

/-- What a query reports of the text is so. -/
theorem Query.truthful {c : Cursor} (hwell : c.WellFormed) {q : Query} {o : Outcome Reply} {e : ScanError}
    (hrun : q.run c = .ok o) (he : o.reply = .failure e) : e.Truthful c.text.chars q.range? := by
  cases q with
  | isAtEnd =>
    cases hrun
    cases he
  | charAt offset => exact ScanError.truthful_of_charAt (Outcome.eq_error_of_shown .char hrun he fun _ h => by cases h)
  | result =>
    obtain ⟨content, -, ho⟩ := bind_eq_ok_iff.1 hrun
    cases ho
    cases he
  | resultLength =>
    obtain ⟨length, -, ho⟩ := bind_eq_ok_iff.1 hrun
    cases ho
    cases he
  | resultChar => exact Cursor.truthful_of_resultChar (Outcome.eq_error_of_shown .char hrun he fun _ h => by cases h)
  | substring first last =>
    exact Cursor.truthful_of_substring (Outcome.eq_error_of_shown .text hrun he fun _ h => by cases h)
  | decimal _ _ first last | hex _ first last =>
    obtain ⟨digits, hdigits, hcause⟩ := c.exists_numeral first last
    obtain ⟨number, hnumber, ho⟩ := bind_eq_ok_iff.1 hrun
    cases ho
    exact Cursor.truthful_of_number hdigits hcause hnumber (Reply.eq_error_of_ofExcept he fun _ h => by cases h)
  | resultDecimal | resultHex =>
    obtain ⟨digits, hdigits, hcause⟩ := hwell.exists_resultNumeral
    obtain ⟨number, hnumber, ho⟩ := bind_eq_ok_iff.1 hrun
    cases ho
    exact Cursor.truthful_of_number hdigits hcause hnumber (Reply.eq_error_of_ofExcept he fun _ h => by cases h)

/-- What an operation reports of the text is so, except that a count of characters reports the sum of a byte offset and
a number of characters. -/
theorem Operation.truthful_iff {c : Cursor} (hwell : c.WellFormed) {op : Operation} {o : Outcome Reply} {e : ScanError}
    (hrun : op.run c = .ok o) (he : o.reply = .failure e) :
    e.Truthful c.text.chars none ↔ ∀ n, op = skipCount n → c.length ≤ c.index + n := by
  obtain ⟨before, run, ahead, hparts⟩ := Cursor.wellFormed_iff_exists_parts.1 hwell
  cases op with
  | tryMatch op =>
    rw [run_tryMatch_eq op hparts] at hrun
    cases hrun
    cases he
  | extend op =>
    rw [run_extend_eq op hparts] at hrun
    cases hrun
    cases he
  | skip op =>
    rw [run_skip_eq op hparts] at hrun
    cases hrun
    cases he
  | skipCount n =>
    obtain ⟨skipped, hskipped, ho⟩ := bind_eq_ok_iff.1 hrun
    cases ho
    have hreply := Reply.eq_error_of_ofExcept he (fun _ h => by cases h)
    rw [hparts.skipCount_eq] at hskipped
    cases hskipped
    split at hreply
    next =>
      cases hreply
      exact Cursor.truthful_indexOutOfRange_iff.trans ⟨fun h m hm => by cases hm; exact h, fun h => h n rfl⟩
    next => cases hreply
  | nextChar =>
    obtain ⟨next, hnext, ho⟩ := bind_eq_ok_iff.1 hrun
    cases ho
    have hreply := Reply.eq_error_of_ofExcept he (fun _ h => by cases h)
    rw [hparts.nextChar_eq] at hnext
    cases ahead with
    | cons ch rest =>
      cases hnext
      cases hreply
    | nil =>
      cases hnext
      cases hreply
      have hend : c.length = c.index := by rw [hparts.length_eq, hparts.index_eq, List.append_nil]
      exact iff_of_true ⟨rfl, Nat.le_of_eq hend⟩ (fun n hn => by cases hn)
  | setStart | setIndex =>
    cases hrun
    have hreply := Reply.eq_error_of_ofExcept he (fun _ h => by cases h)
    exact iff_of_true (Cursor.truthful_of_moveTo hreply) (fun n hn => by cases hn)
  | revert =>
    cases hrun
    cases he

def Answer.error? : Answer → Option ScanError
  | reply (.failure e) | rangeRefused e _ => some e
  | snapshot s =>
    match s.resultChar with
    | .error e => some e
    | .ok _ => none
  | _ => none

def Command.range? : Command → Option (Nat × Nat)
  | ask q => q.range?
  | keepRange _ first last | keepPart _ _ first last | appendSubstring first last => some (first, last)
  | _ => none

namespace Session

/-- The characters that a command looks at: those of the span that it names an offset or a range of, or the text. -/
def subject (s : Session) : Command → Except SessionFault (List Char)
  | .keepPart name _ _ _ | .spanCharAt name _ => do guard (← s.span name).chars
  | _ => .ok s.cursor.text.chars

variable {s : Session} {t : Text} {r : Reaction} {e : ScanError}

theorem error_of_keep {name : String} {made : Except ScanError Span} (h : s.keep name made = .ok r)
    (he : r.answer.error? = some e) : made = .error e := by
  cases made with
  | error cause =>
    cases h
    cases he
    rfl
  | ok v =>
    obtain ⟨report, -, hr⟩ := bind_eq_ok_iff.1 h
    cases hr
    cases he

theorem failure_of_reply {reply : Reply} (he : (Answer.reply reply).error? = some e) : reply = .failure e := by
  cases reply with
  | failure cause =>
    cases he
    rfl
  | _ => cases he

/-- What a command reports of its subject is so, if it is none that moves the cursor. -/
theorem WellFormed.truthful (h : s.WellFormed t) {command : Command} (hact : ∀ op, command ≠ .act op)
    (hstep : s.step command = .ok r) (he : r.answer.error? = some e) :
    ∃ cs, s.subject command = .ok cs ∧ e.Truthful cs command.range? := by
  cases command with
  | act op => exact absurd rfl (hact op)
  | ask q =>
    obtain ⟨o, ho, hr⟩ := bind_eq_ok_iff.1 hstep
    cases hr
    exact ⟨_, rfl, Query.truthful h.cursor_wellFormed (guard_eq_ok_iff.1 ho) (failure_of_reply he)⟩
  | keepResult name =>
    obtain ⟨v, -, hkeep⟩ := bind_eq_ok_iff.1 (guard_eq_ok_iff.1 hstep)
    cases error_of_keep hkeep he
  | keepRange name first last =>
    obtain ⟨made, hmade, hkeep⟩ := bind_eq_ok_iff.1 (guard_eq_ok_iff.1 hstep)
    obtain rfl := error_of_keep hkeep he
    exact ⟨_, rfl, Cursor.truthful_of_substringSpan hmade⟩
  | keepPart source name first last =>
    obtain ⟨v, hv, hpart⟩ := bind_eq_ok_iff.1 hstep
    obtain ⟨made, hmade, hkeep⟩ := bind_eq_ok_iff.1 (guard_eq_ok_iff.1 hpart)
    obtain rfl := error_of_keep hkeep he
    obtain ⟨run, hrun, hfault⟩ := Span.fault_of_sub hmade
    exact ⟨run, bind_eq_ok_iff.2 ⟨v, hv, guard_eq_ok_iff.2 hrun⟩, ScanError.truthful_of_rangeFault? hfault⟩
  | spanCharAt name offset =>
    obtain ⟨v, hv, hlook⟩ := bind_eq_ok_iff.1 hstep
    obtain ⟨found, hfound, hr⟩ := bind_eq_ok_iff.1 hlook
    cases hr
    obtain rfl := Reply.eq_error_of_ofExcept (failure_of_reply he) (fun _ h => by cases h)
    obtain ⟨run, hrun, hcharAt⟩ := bind_eq_ok_iff.1 (guard_eq_ok_iff.1 hfound)
    exact ⟨run, bind_eq_ok_iff.2 ⟨v, hv, guard_eq_ok_iff.2 hrun⟩, ScanError.truthful_of_charAt hcharAt⟩
  | appendSubstring first last =>
    obtain ⟨written, hwritten, hr⟩ := bind_eq_ok_iff.1 hstep
    cases hr
    cases hresult : written.result with
    | ok u =>
      rw [showing, hresult] at he
      cases he
    | error cause =>
      rw [showing, hresult] at he
      cases he
      exact ⟨_, rfl, Cursor.truthful_of_appendSubstring (guard_eq_ok_iff.1 hwritten) hresult⟩
  | snapshot =>
    obtain ⟨shot, hshot, hr⟩ := bind_eq_ok_iff.1 hstep
    cases hr
    cases hchar : shot.resultChar with
    | ok ch =>
      rw [showing, Answer.error?, hchar] at he
      cases he
    | error cause =>
      rw [showing, Answer.error?, hchar] at he
      cases he
      have hshown := Cursor.resultChar_of_snapshot (guard_eq_ok_iff.1 hshot)
      rw [hchar] at hshown
      exact ⟨_, rfl, Cursor.truthful_of_resultChar hshown⟩
  | showSpan name =>
    obtain ⟨v, -, hreport⟩ := bind_eq_ok_iff.1 hstep
    obtain ⟨report, -, hr⟩ := bind_eq_ok_iff.1 hreport
    cases hr
    cases he
  | spanChars name =>
    obtain ⟨v, -, hchars⟩ := bind_eq_ok_iff.1 hstep
    obtain ⟨chars, -, hr⟩ := bind_eq_ok_iff.1 hchars
    cases hr
    cases he
  | spansEqual left right =>
    obtain ⟨v, -, hright⟩ := bind_eq_ok_iff.1 hstep
    obtain ⟨w, -, hr⟩ := bind_eq_ok_iff.1 hright
    cases hr
    cases he
  | spanReads name content =>
    obtain ⟨v, -, hreads⟩ := bind_eq_ok_iff.1 hstep
    obtain ⟨same, -, hr⟩ := bind_eq_ok_iff.1 hreads
    cases hr
    cases he
  | appendResult =>
    obtain ⟨written, -, hr⟩ := bind_eq_ok_iff.1 hstep
    cases hr
    cases hresult : written.result with
    | ok u =>
      rw [showing, hresult] at he
      cases he
    | error cause =>
      rw [showing, hresult] at he
      cases he
  | write content =>
    cases hstep
    cases he
  | save name =>
    cases hstep
    cases he
  | restore name =>
    obtain ⟨c, -, hr⟩ := bind_eq_ok_iff.1 hstep
    cases hr
    cases he

/-- What a command of a session reports of the characters it looks at is so. The exception is a count of characters that
finds too few: what it reports is so exactly if the index moved by as many *bytes* does not lie within the text. -/
theorem Reached.reports_truthful_iff (h : s.Reached t) {command : Command} (hstep : s.step command = .ok r)
    (he : r.answer.error? = some e) :
    ∃ cs, s.subject command = .ok cs ∧ (e.Truthful cs command.range? ↔
      ∀ n, command = .act (.skipCount n) → s.cursor.length ≤ s.cursor.index + n) := by
  have hwell := h.wellFormed
  by_cases hact : ∃ op, command = .act op
  · obtain ⟨op, rfl⟩ := hact
    obtain ⟨o, ho, hr⟩ := bind_eq_ok_iff.1 hstep
    cases hr
    have htruthful := Operation.truthful_iff hwell.cursor_wellFormed (guard_eq_ok_iff.1 ho) (failure_of_reply he)
    refine ⟨_, rfl, htruthful.trans ?_⟩
    simp only [Command.act.injEq]
  · obtain ⟨cs, hcs, htruthful⟩ := hwell.truthful (fun op hop => hact ⟨op, hop⟩) hstep he
    exact ⟨cs, hcs, iff_of_true htruthful (fun n hn => absurd ⟨_, hn⟩ hact)⟩

/-- An offset inside the letter that a span consists of, counted from the start of the span. -/
theorem reports_truthful_iff_inside_letter :
    let t : Text := ⟨['a', 'é'], by decide⟩
    let s : Session := ⟨.ofText t, [], [("letter", ⟨t, 1, 3⟩)], .empty none⟩
    s.Reached t ∧ ∃ r, s.step (.spanCharAt "letter" 1) = .ok r ∧ r.answer.error? = some (.notCharBoundary 1) ∧
      s.subject (.spanCharAt "letter" 1) = .ok ['é'] ∧ (ScanError.notCharBoundary 1).Truthful ['é'] none := by
  intro t s
  have hstart : (ofCursor (.ofText t) none).Reached t := .start .ofText
  have hkept : ∃ report, (ofCursor (.ofText t) none).step (.keepRange "letter" 1 3) = .ok (s.showing report) := ⟨_, rfl⟩
  obtain ⟨report, hkept⟩ := hkept
  have hreached : s.Reached t := hstart.step hkept
  have hstep : s.step (.spanCharAt "letter" 1) = .ok (s.showing (.reply (.failure (.notCharBoundary 1)))) := rfl
  have hsubject : s.subject (.spanCharAt "letter" 1) = .ok ['é'] := rfl
  obtain ⟨cs, hcs, htruthful⟩ := hreached.reports_truthful_iff hstep rfl
  cases hsubject.symm.trans hcs
  exact ⟨hreached, _, hstep, rfl, hsubject, htruthful.2 (fun n hn => by cases hn)⟩

/-- In two letters of two bytes each there are no three characters. What is reported is the offset 3, which lies before
the end. -/
theorem skipCount_reports_within_text :
    let t : Text := ⟨['é', 'é'], by decide⟩
    let s : Session := ofCursor (.ofText t) none
    s.Reached t ∧ ∃ r, s.step (.act (.skipCount 3)) = .ok r ∧ r.answer.error? = some (.indexOutOfRange 3 4) ∧
      s.subject (.act (.skipCount 3)) = .ok t.chars ∧ ¬ (ScanError.indexOutOfRange 3 4).Truthful t.chars none := by
  intro t s
  refine ⟨.start .ofText, _, rfl, rfl, rfl, ?_⟩
  intro htruthful
  obtain ⟨-, hle⟩ := htruthful
  exact absurd hle (by decide)

end Session

end TextCursor
