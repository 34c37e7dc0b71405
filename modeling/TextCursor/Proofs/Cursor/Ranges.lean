import TextCursor.Proofs.Cursor.Contract
import TextCursor.Proofs.Cursor.Digits

/-!
# Ranges of the text, and numbers in them

There are several ways to a range of the text: it can be taken as a string, as a span that is read afterwards, written to
a sink, or read as a number. All of them check the range, some in more than one place, and they agree on what is wrong
with it. `Access.Reads` says it once, independently of the functions that check: ends out of order or beyond the end,
then a first end inside a character, then a last one.

A number is checked for one thing before its range is: that there is something to read, which between inverted ends there
is not, wherever they are. And it is checked for one thing after, its digits; only a number that is refused for them leaves
a record. `Cursor.range_accessors_agree` says this of all of them. The current result is a range with nothing wrong with
it, so that reading it as a number can only fail for its digits.
-/

set_option autoImplicit false

namespace TextCursor

namespace Access

/-- What a range of the characters reads as. -/
inductive Reads (cs : List Char) (first last : Nat) : Except ScanError String → Prop where
  | outOfBounds : last < first ∨ Utf8.width cs < last →
      Reads cs first last (.error (.rangeOutOfBounds first last (Utf8.width cs)))
  | firstInside : first ≤ last → last ≤ Utf8.width cs → Utf8.IsInside cs first →
      Reads cs first last (.error (.notCharBoundary first))
  | lastInside : first ≤ last → last ≤ Utf8.width cs → ¬ Utf8.IsInside cs first → Utf8.IsInside cs last →
      Reads cs first last (.error (.notCharBoundary last))
  | between {before run after : List Char} : cs = before ++ run ++ after → Utf8.width before = first →
      Utf8.width (before ++ run) = last → Reads cs first last (.ok (String.ofList run))

variable {cs : List Char} {first last : Nat} {answer : Except ScanError String}

/-- Every range reads as something. -/
theorem exists_reads (cs : List Char) (first last : Nat) : ∃ answer, Reads cs first last answer := by
  by_cases hbounds : last < first ∨ Utf8.width cs < last
  · exact ⟨_, .outOfBounds hbounds⟩
  have hle : first ≤ last := by omega
  have hwithin : last ≤ Utf8.width cs := by omega
  by_cases hfirst : Utf8.IsInside cs first
  · exact ⟨_, .firstInside hle hwithin hfirst⟩
  by_cases hlast : Utf8.IsInside cs last
  · exact ⟨_, .lastInside hle hwithin hfirst hlast⟩
  have hbefore := Utf8.isBoundary_of_not_isInside (Nat.le_trans hle hwithin) hfirst
  have hrun := Utf8.isBoundary_of_not_isInside hwithin hlast
  obtain ⟨before, run, after, hcs, hbefore, hrun⟩ := hbefore.exists_parts hrun hle
  exact ⟨_, .between hcs hbefore.symm hrun.symm⟩

/-- Where something is wrong with the range, it is not about a number. -/
theorem Reads.ne_number (h : Reads cs first last answer) (cause : Numeral.Error) : answer ≠ .error (.number cause) := by
  cases h <;> nofun

/-- What is read between two different offsets is not nothing. -/
theorem Reads.exists_of_ok {content : String} (h : Reads cs first last (.ok content)) (hlt : first < last) :
    ∃ run, content = String.ofList run ∧ run ≠ [] := by
  generalize hanswer : (Except.ok content : Except ScanError String) = answer at h
  cases h with
  | outOfBounds | firstInside | lastInside => cases hanswer
  | @between before run after hcs hfirst hlast =>
    refine ⟨run, Except.ok.inj hanswer, ?_⟩
    rintro rfl
    rw [List.append_nil] at hlast
    omega

end Access

/-- What reading a number from a range comes to, where `answer` is what the range reads as. -/
structure ReadsNumber {α : Type} (c : Cursor) (first last : Nat) (answer : Except ScanError String)
    (parse : String → Except Numeral.Error α) (o : Outcome (Except ScanError α)) : Prop where
  cursor_eq : o.cursor = c
  empty_iff : o.reply = .error (.number .empty) ↔ last ≤ first
  faulty : first < last → ∀ e, answer = .error e → o.reply = .error e
  converted : first < last → ∀ digits, answer = .ok digits → o.reply = (parse digits).mapError .number
  recorded_iff : LoggedOnce .debug o.log ↔
    first < last ∧ ∃ digits cause, answer = .ok digits ∧ parse digits = .error cause
  silent : ¬ LoggedOnce .debug o.log → o.log = []

/-- What writing a range to a sink comes to: one write or none. -/
structure WritesRange (sink : Sink) (answer : Except ScanError String) (w : Written ScanError) : Prop where
  faulty : ∀ e, answer = .error e → w.result = .error e ∧ w.sink = sink
  writes_eq : ∀ content, answer = .ok content → w.sink.writes = sink.writes + 1
  accepted : ∀ content, answer = .ok content → sink.hasRoom content = true →
    w.result = .ok () ∧ w.sink.content = sink.content ++ content
  refused : ∀ content, answer = .ok content → sink.hasRoom content = false →
    w.result = .error (.write .refused) ∧ w.sink.content = sink.content

structure ReadsResult {α : Type} (c : Cursor) (result : String) (parse : String → Except Numeral.Error α)
    (o : Outcome (Except ScanError α)) : Prop where
  cursor_eq : o.cursor = c
  reply_eq : o.reply = (parse result).mapError .number
  in_range : ∀ e, o.reply = .error e → e.kind ≠ .outOfRange

/-- Nothing is no record. -/
theorem not_loggedOnce_nil (level : Level) : ¬ LoggedOnce level [] :=
  fun ⟨_, hlog, _⟩ => nomatch hlog

namespace ReadsNumber

variable {α : Type} {c : Cursor} {first last : Nat} {parse : String → Except Numeral.Error α}

/-- There is nothing to read between ends that are not in order, whatever else is wrong with them. -/
theorem of_empty (hle : last ≤ first) (answer : Except ScanError String) :
    ReadsNumber c first last answer parse ⟨.error (.number .empty), c, [], []⟩ where
  cursor_eq := rfl
  empty_iff := iff_of_true rfl hle
  faulty hlt := absurd hle (Nat.not_le.2 hlt)
  converted hlt := absurd hle (Nat.not_le.2 hlt)
  recorded_iff := iff_of_false (not_loggedOnce_nil _) fun h => absurd hle (Nat.not_le.2 h.1)
  silent _ := rfl

theorem of_faulty (hlt : first < last) {e : ScanError} (hne : e ≠ .number .empty) :
    ReadsNumber c first last (.error e) parse ⟨.error e, c, [], []⟩ where
  cursor_eq := rfl
  empty_iff := iff_of_false (fun h => hne (Except.error.inj h)) (Nat.not_le.2 hlt)
  faulty _ _ he := congrArg Except.error (Except.error.inj he)
  converted _ _ hdigits := nomatch hdigits
  recorded_iff := iff_of_false (not_loggedOnce_nil _) nofun
  silent _ := rfl

theorem of_converted (hlt : first < last) {digits : String} {n : α} (hparse : parse digits = .ok n) :
    ReadsNumber c first last (.ok digits) parse ⟨.ok n, c, [], []⟩ where
  cursor_eq := rfl
  empty_iff := iff_of_false nofun (Nat.not_le.2 hlt)
  faulty _ _ hanswer := nomatch hanswer
  converted _ ds hds := by
    cases hds
    rw [hparse]
    rfl
  recorded_iff := by
    refine iff_of_false (not_loggedOnce_nil _) ?_
    rintro ⟨-, ds, cause, hds, hcause⟩
    cases hds
    cases hparse.symm.trans hcause
  silent _ := rfl

theorem of_refused (hlt : first < last) {digits : String} {cause : Numeral.Error}
    (hparse : parse digits = .error cause) (hne : cause ≠ .empty) {record : Record} (hlevel : record.level = .debug) :
    ReadsNumber c first last (.ok digits) parse ⟨.error (.number cause), c, [], [record]⟩ where
  cursor_eq := rfl
  empty_iff := by
    refine iff_of_false ?_ (Nat.not_le.2 hlt)
    intro hreply
    cases hreply
    exact hne rfl
  faulty _ _ hanswer := nomatch hanswer
  converted _ ds hds := by
    cases hds
    rw [hparse]
    rfl
  recorded_iff := iff_of_true ⟨record, rfl, hlevel⟩ ⟨hlt, digits, cause, rfl, hparse⟩
  silent hnot := absurd ⟨record, rfl, hlevel⟩ hnot

/-- Digits that are there are read as `parse` reads them, and a record is left if it refuses them. -/
theorem of_digits (hlt : first < last) {digits : String} (hne : parse digits ≠ .error .empty)
    {refused : String → Numeral.Error → Record} (hlevel : ∀ ds cause, (refused ds cause).level = .debug) :
    ReadsNumber c first last (.ok digits) parse
      ⟨(parse digits).mapError .number, c, [], Cursor.recordsOf parse refused (.ok digits)⟩ := by
  cases hparse : parse digits with
  | ok n =>
    have hlog : Cursor.recordsOf parse refused (.ok digits) = [] := by rw [Cursor.recordsOf, hparse]
    rw [hlog]
    exact of_converted hlt hparse
  | error cause =>
    have hlog : Cursor.recordsOf parse refused (.ok digits) = [refused digits cause] := by rw [Cursor.recordsOf, hparse]
    have hcause : cause ≠ .empty := fun heq => hne (heq ▸ hparse)
    rw [hlog]
    exact of_refused hlt hparse hcause (hlevel digits cause)

end ReadsNumber

namespace Cursor

/-- A range of the text, taken as a span that is read. -/
def substringOfSpan (c : Cursor) (first last : Nat) : Except Breach (Except ScanError String) := do
  match ← c.substringSpan first last with
  | .error e => return .error e
  | .ok v => return .ok (← v.content)

/-- All the ways to a range agree that it reads as `answer`. -/
structure AgreeOnRange (c : Cursor) (first last : Nat) (answer : Except ScanError String) : Prop where
  substring_eq : c.substring first last = .ok answer
  substringOfSpan_eq : c.substringOfSpan first last = .ok answer
  appendSubstring : ∀ sink, ∃ w, c.appendSubstring sink first last = .ok w ∧ WritesRange sink answer w
  decimal : ∀ size negative, ∃ o, c.decimal size negative first last = .ok o ∧
    ReadsNumber c first last answer (Numeral.Decimal.parse size negative) o
  hex : ∀ size, ∃ o, c.hex size first last = .ok o ∧
    ReadsNumber c first last answer (Numeral.Hexadecimal.parse size) o

variable {c : Cursor} {first last : Nat} {answer : Except ScanError String}

/-- The check follows the rules. -/
theorem substring_of_reads (h : Access.Reads c.text.chars first last answer) : c.substring first last = .ok answer := by
  cases h with
  | outOfBounds hbounds => rw [substring, Access.rangeFault?, if_pos hbounds]
  | firstInside hle hwithin hfirst =>
    have hbounds : ¬ (last < first ∨ Utf8.width c.text.chars < last) := by omega
    rw [substring, Access.rangeFault?, if_neg hbounds, if_pos (Utf8.not_isBoundary_of_isInside hfirst)]
  | lastInside hle hwithin hfirst hlast =>
    have hbounds : ¬ (last < first ∨ Utf8.width c.text.chars < last) := by omega
    have hbefore := Utf8.isBoundary_of_not_isInside (Nat.le_trans hle hwithin) hfirst
    rw [substring, Access.rangeFault?, if_neg hbounds, if_neg (not_not_intro hbefore),
      if_pos (Utf8.not_isBoundary_of_isInside hlast)]
  | between hcs hfirst hlast =>
    subst hfirst hlast
    exact substring_of_parts hcs

theorem substring_eq_ok_iff : c.substring first last = .ok answer ↔ Access.Reads c.text.chars first last answer := by
  constructor
  · intro h
    obtain ⟨other, hother⟩ := Access.exists_reads c.text.chars first last
    cases h.symm.trans (substring_of_reads hother)
    exact hother
  · exact substring_of_reads

/-- A span that passes the check cuts the same characters. -/
theorem substringOfSpan_eq_substring (c : Cursor) (first last : Nat) :
    c.substringOfSpan first last = c.substring first last := by
  rw [substringOfSpan, substringSpan_eq, substring]
  cases Access.rangeFault? c.text.chars first last with
  | some e => rfl
  | none =>
    dsimp only [bind, Except.bind, Access.unlessFault, Span.content, Span.chars]
    cases Utf8.slice c.text.chars first last with
    | ok run => rfl
    | error breach => rfl

theorem appendSubstring_of_error {e : ScanError} (h : c.substring first last = .ok (.error e)) (sink : Sink) :
    c.appendSubstring sink first last = .ok ⟨.error e, sink⟩ := by
  rw [appendSubstring, h]
  rfl

theorem appendSubstring_of_ok {content : String} (h : c.substring first last = .ok (.ok content)) (sink : Sink) :
    c.appendSubstring sink first last =
      .ok ⟨(sink.write content).result.mapError .write, (sink.write content).sink⟩ := by
  rw [appendSubstring, h]
  dsimp only [bind, Except.bind]
  cases (sink.write content).result with
  | ok => rfl
  | error e => rfl

theorem writesRange_of_error (sink : Sink) (e : ScanError) : WritesRange sink (.error e) ⟨.error e, sink⟩ where
  faulty _ hanswer := by
    cases hanswer
    exact ⟨rfl, rfl⟩
  writes_eq _ hanswer := nomatch hanswer
  accepted _ hanswer := nomatch hanswer
  refused _ hanswer := nomatch hanswer

theorem writesRange_of_ok (sink : Sink) (content : String) :
    WritesRange sink (.ok content) ⟨(sink.write content).result.mapError .write, (sink.write content).sink⟩ where
  faulty _ hanswer := nomatch hanswer
  writes_eq _ hanswer := by
    cases hanswer
    exact sink.writes_write content
  accepted _ hanswer hroom := by
    cases hanswer
    rw [Sink.write_of_hasRoom hroom]
    exact ⟨rfl, rfl⟩
  refused _ hanswer hroom := by
    cases hanswer
    rw [Sink.write_of_not_hasRoom hroom]
    exact ⟨rfl, rfl⟩

/-- What is written is what the range reads as. -/
theorem exists_appendSubstring (h : c.substring first last = .ok answer) (sink : Sink) :
    ∃ w, c.appendSubstring sink first last = .ok w ∧ WritesRange sink answer w := by
  cases answer with
  | error e => exact ⟨_, appendSubstring_of_error h sink, writesRange_of_error sink e⟩
  | ok content => exact ⟨_, appendSubstring_of_ok h sink, writesRange_of_ok sink content⟩

/-- A number is read from a range as its digits are. -/
theorem exists_readsNumber {α : Type} {parse : String → Except Numeral.Error α}
    {refused : String → Numeral.Error → Record} (h : Access.Reads c.text.chars first last answer)
    (hne : ∀ cs, cs ≠ [] → parse (String.ofList cs) ≠ .error .empty)
    (hlevel : ∀ ds cause, (refused ds cause).level = .debug) :
    ∃ o, c.number parse refused first last = .ok o ∧ ReadsNumber c first last answer parse o := by
  rcases Nat.lt_or_ge first last with hlt | hle
  · have hnumeral : c.numeral first last = .ok answer := by
      rw [numeral, if_neg (Nat.not_le.2 hlt), substring_of_reads h]
    refine ⟨_, number_eq hnumeral parse refused, ?_⟩
    cases answer with
    | error e => exact .of_faulty hlt fun he => h.ne_number .empty (congrArg Except.error he)
    | ok digits =>
      obtain ⟨run, rfl, hrun⟩ := h.exists_of_ok hlt
      exact .of_digits hlt (hne run hrun) hlevel
  · have hnumeral : c.numeral first last = .ok (.error (.number .empty)) := if_pos hle
    exact ⟨_, number_eq hnumeral parse refused, .of_empty hle answer⟩

theorem agreeOnRange (h : Access.Reads c.text.chars first last answer) : c.AgreeOnRange first last answer where
  substring_eq := substring_of_reads h
  substringOfSpan_eq := (c.substringOfSpan_eq_substring first last).trans (substring_of_reads h)
  appendSubstring := exists_appendSubstring (substring_of_reads h)
  decimal size negative := exists_readsNumber h (fun _ => Numeral.Decimal.parse_ne_empty size negative) fun _ _ => rfl
  hex size := exists_readsNumber h (fun _ => Numeral.Hexadecimal.parse_ne_empty size) fun _ _ => rfl

/-- A number that is read without a range is never refused for one. -/
theorem readsResult_of_reply_eq {α : Type} {parse : String → Except Numeral.Error α} {result : String}
    {o : Outcome (Except ScanError α)} (hcursor : o.cursor = c) (hreply : o.reply = (parse result).mapError .number) :
    ReadsResult c result parse o := by
  refine ⟨hcursor, hreply, ?_⟩
  intro e he
  rw [hreply] at he
  cases hparse : parse result with
  | ok n =>
    rw [hparse] at he
    cases he
  | error cause =>
    rw [hparse] at he
    cases he
    nofun

/-- From any place that can be reached, and for all offsets. A range reads as one thing, by the rules of its check, and all
the ways to it agree on that. The current result reads as a number as the string that it is. -/
theorem range_accessors_agree {t : Text} {c : Cursor} (h : Reachable t c) :
    (∀ first last, ∃ answer, (∀ other, Access.Reads t.chars first last other ↔ other = answer) ∧
      c.AgreeOnRange first last answer) ∧
    ∃ result, c.result = .ok result ∧
      (∀ size negative, ∃ o, c.resultDecimal size negative = .ok o ∧
        ReadsResult c result (Numeral.Decimal.parse size negative) o) ∧
      ∀ size, ∃ o, c.resultHex size = .ok o ∧ ReadsResult c result (Numeral.Hexadecimal.parse size) o := by
  obtain ⟨rfl, hwell⟩ := reachable_iff.1 h
  refine ⟨?_, ?_⟩
  · intro first last
    obtain ⟨answer, hanswer⟩ := Access.exists_reads c.text.chars first last
    refine ⟨answer, ?_, agreeOnRange hanswer⟩
    intro other
    rw [← substring_eq_ok_iff, substring_of_reads hanswer, Except.ok.injEq, eq_comm]
  · obtain ⟨before, run, ahead, hparts⟩ := wellFormed_iff_exists_parts.1 hwell
    refine ⟨_, hparts.result_eq, ?_, ?_⟩
    · intro size negative
      obtain ⟨o, hrun, hcursor, hreply⟩ := hparts.exists_resultNumber (Numeral.Decimal.parse size negative) .decimalRefused rfl
      exact ⟨o, hrun, readsResult_of_reply_eq hcursor hreply⟩
    · intro size
      obtain ⟨o, hrun, hcursor, hreply⟩ := hparts.exists_resultNumber (Numeral.Hexadecimal.parse size) .hexRefused rfl
      exact ⟨o, hrun, readsResult_of_reply_eq hcursor hreply⟩

/-- Between a letter of two bytes and one that is no digit stands the result, a number. A range from within the first
letter is empty as a number before it is found to begin there, and an inverted one before it is found to be; the range up
to the end is fine, but no number. -/
theorem range_accessors_agree_behind_letter :
    let t : Text := ⟨['é', '4', '2', 'x'], by decide⟩
    let c : Cursor := ⟨t, 2, 4⟩
    Reachable t c ∧ c.AgreeOnRange 1 1 (.error (.notCharBoundary 1)) ∧
      c.AgreeOnRange 4 1 (.error (.rangeOutOfBounds 4 1 5)) ∧ c.AgreeOnRange 2 5 (.ok "42x") ∧
      (∃ o, c.decimal .word32 false 2 5 = .ok o ∧ o.reply = .error (.number (.invalidDigit 'x')) ∧
        LoggedOnce .debug o.log) ∧
      ∃ o, c.resultDecimal .word32 true = .ok o ∧ o.reply = .ok (-42) ∧
        ReadsResult c "42" (Numeral.Decimal.parse .word32 true) o := by
  intro t c
  have hreached : Reachable t c := reachable_iff.2 ⟨rfl, by decide, by decide, by decide⟩
  obtain ⟨hranges, result, hresult, hdecimal, -⟩ := range_accessors_agree hreached
  have hagree {first last : Nat} {answer : Except ScanError String} (h : c.substring first last = .ok answer) :
      c.AgreeOnRange first last answer := by
    obtain ⟨other, -, hother⟩ := hranges first last
    cases h.symm.trans hother.substring_eq
    exact hother
  have hdigits : c.AgreeOnRange 2 5 (.ok "42x") := hagree rfl
  obtain ⟨o, hrun, hnumber⟩ := hdigits.decimal .word32 false
  have hrefused : Numeral.Decimal.parse .word32 false "42x" = .error (.invalidDigit 'x') := rfl
  have hreply := hnumber.converted (by decide) "42x" rfl
  rw [hrefused] at hreply
  have hrecorded := hnumber.recorded_iff.2 ⟨by decide, "42x", _, rfl, hrefused⟩
  have hfortyTwo : c.result = .ok "42" := rfl
  cases hresult.symm.trans hfortyTwo
  obtain ⟨p, hrun', hnumber'⟩ := hdecimal .word32 true
  exact ⟨hreached, hagree rfl, hagree rfl, hdigits, ⟨o, hrun, hreply, hrecorded⟩, p, hrun', hnumber'.reply_eq, hnumber'⟩

end Cursor

end TextCursor
