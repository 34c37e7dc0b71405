import TextCursor.Proofs.AsciiKey
import TextCursor.Proofs.Cursor.Reachability
import TextCursor.Proofs.Observation
import TextCursor.Session

/-!
# Sessions never break off

A step of a session has three ends: an answer, an unknown name, or a breach. A breach stands for whatever could stop an
operation in the middle: a cut whose ends are out of order, out of range or inside a character, a sum or a difference of
offsets that does not fit a word, a span over ends that are not in order.

Here the third is ruled out, for every session that a run of commands leads to. The invariant is `Session.WellFormed`:
the cursor and all its copies are where a run of operations on the text leads, and every span lies in the text. A
command whose names are known is carried out and keeps the invariant (`Session.WellFormed.yields_step`); one that names
something unknown is told so (`Session.step_of_not_knows`). Offsets in commands may be any numbers.
-/

set_option autoImplicit false

namespace TextCursor

namespace Session

/-- What is kept under the names of a session, and its cursor, are places in one text. -/
structure WellFormed (s : Session) (t : Text) : Prop where
  cursor : Cursor.Reachable t s.cursor
  saved : ∀ entry ∈ s.saved, Cursor.Reachable t entry.2
  spans : ∀ entry ∈ s.spans, entry.2.LiesIn t

def hasSpan (s : Session) (name : String) : Bool :=
  (s.spans.lookup name).isSome

def hasCopy (s : Session) (name : String) : Bool :=
  (s.saved.lookup name).isSome

/-- Whether the session has all that a command asks for by name. -/
def knows (s : Session) : Command → Bool
  | .keepPart source _ _ _ => s.hasSpan source
  | .showSpan name | .spanCharAt name _ | .spanChars name | .spanReads name _ => s.hasSpan name
  | .spansEqual left right => s.hasSpan left && s.hasSpan right
  | .restore name => s.hasCopy name
  | _ => true

/-- The sessions that runs of commands lead to, from a cursor opened on the text. -/
inductive Reached (t : Text) : Session → Prop where
  | start {c : Cursor} {capacity : Option Nat} : Cursor.Begins t c → Reached t (ofCursor c capacity)
  | step {s : Session} {command : Command} {r : Reaction} :
      Reached t s → s.step command = .ok r → Reached t r.session

/-- What is found under a name is one of the entries. -/
theorem mem_of_lookup {α : Type} {entries : List (String × α)} {name : String} {a : α}
    (h : entries.lookup name = some a) : (name, a) ∈ entries := by
  obtain ⟨front, back, rfl, -⟩ := List.lookup_eq_some_iff.1 h
  exact List.mem_append_right front List.mem_cons_self

theorem yields_guard {α : Type} {x : Except Breach α} {P : α → Prop} (h : Yields x P) : Yields (guard x) P := by
  obtain ⟨a, rfl, ha⟩ := h
  exact .pure ha

theorem guard_eq_ok_iff {α : Type} {x : Except Breach α} {a : α} : guard x = .ok a ↔ x = .ok a := by
  cases x with
  | ok b => simp [guard]
  | error breach => simp [guard]

variable {s : Session} {t : Text}

namespace WellFormed

theorem ofCursor {c : Cursor} (h : Cursor.Reachable t c) (capacity : Option Nat) :
    (ofCursor c capacity).WellFormed t where
  cursor := h
  saved _ hentry := absurd hentry List.not_mem_nil
  spans _ hentry := absurd hentry List.not_mem_nil

theorem cursor_wellFormed (h : s.WellFormed t) : s.cursor.WellFormed :=
  (Cursor.reachable_iff.1 h.cursor).2

theorem cursor_text (h : s.WellFormed t) : s.cursor.text = t :=
  (Cursor.reachable_iff.1 h.cursor).1

theorem yields_span (h : s.WellFormed t) {name : String} (hname : s.hasSpan name = true) :
    Yields (s.span name) fun v => v.LiesIn t := by
  obtain ⟨v, hv⟩ := Option.isSome_iff_exists.1 hname
  rw [span, hv]
  exact .pure (h.spans _ (mem_of_lookup hv))

theorem yields_copy (h : s.WellFormed t) {name : String} (hname : s.hasCopy name = true) :
    Yields (s.copy name) fun c => Cursor.Reachable t c := by
  obtain ⟨c, hc⟩ := Option.isSome_iff_exists.1 hname
  rw [copy, hc]
  exact .pure (h.saved _ (mem_of_lookup hc))

/-- Moving the cursor within its text. -/
theorem setCursor (h : s.WellFormed t) {c : Cursor} (hc : Cursor.Reachable t c) :
    ({ s with cursor := c } : Session).WellFormed t :=
  ⟨hc, h.saved, h.spans⟩

/-- Keeping a span of the text under a name, or no span at all. -/
theorem yields_keep (h : s.WellFormed t) (name : String) {made : Except ScanError Span}
    (hmade : ∀ v, made = .ok v → v.LiesIn t) : Yields (s.keep name made) fun r => r.session.WellFormed t := by
  cases made with
  | error e => exact .pure h
  | ok v =>
    have hv := hmade v rfl
    apply hv.yields_report.bind
    intro report _
    refine .pure ⟨h.cursor, h.saved, ?_⟩
    intro entry hentry
    rcases List.mem_cons.1 hentry with rfl | hentry
    · exact hv
    · exact h.spans entry hentry

/-- One step: a command whose names are known is carried out, and leaves cursors and spans in the text. -/
theorem yields_step (h : s.WellFormed t) {command : Command} (hknows : s.knows command = true) :
    Yields (s.step command) fun r => r.session.WellFormed t := by
  have hcursor := h.cursor_wellFormed
  cases command with
  | act op =>
    obtain ⟨o, hrun, htext, hnext⟩ := op.exists_run hcursor
    have hreached : Cursor.Reachable t o.cursor := h.cursor.step hrun
    simp only [Session.step, hrun]
    exact .pure (h.setCursor hreached)
  | ask q =>
    apply (yields_guard (q.yields_run hcursor)).bind
    intro o ho
    refine .pure (h.setCursor ?_)
    rw [ho]
    exact h.cursor
  | keepResult name =>
    apply yields_guard
    apply hcursor.yields_resultSpan.bind
    intro v hv
    apply h.yields_keep
    intro w hw
    cases hw
    rwa [h.cursor_text] at hv
  | keepRange name first last =>
    apply yields_guard
    apply (s.cursor.yields_substringSpan first last).bind
    intro made hmade
    rw [h.cursor_text] at hmade
    exact h.yields_keep name hmade
  | keepPart source name first last =>
    apply (h.yields_span hknows).bind
    intro v hv
    apply yields_guard
    apply (hv.yields_sub first last).bind
    intro made hmade
    exact h.yields_keep name hmade
  | showSpan name =>
    apply (h.yields_span hknows).bind
    intro v hv
    apply (yields_guard hv.yields_report).bind
    intro report _
    exact .pure h
  | spanCharAt name offset =>
    apply (h.yields_span hknows).bind
    intro v hv
    apply (yields_guard (hv.yields_charAt offset)).bind
    intro found _
    exact .pure h
  | spanChars name =>
    apply (h.yields_span hknows).bind
    intro v hv
    apply (yields_guard hv.yields_chars).bind
    intro chars _
    exact .pure h
  | spansEqual left right =>
    obtain ⟨hleft, hright⟩ := Bool.and_eq_true_iff.1 hknows
    apply (h.yields_span hleft).bind
    intro v _
    apply (h.yields_span hright).bind
    intro w _
    exact .pure h
  | spanReads name content =>
    apply (h.yields_span hknows).bind
    intro v hv
    apply (yields_guard (hv.yields_reads content)).bind
    intro same _
    exact .pure h
  | appendResult =>
    apply (yields_guard (hcursor.yields_appendResult s.sink)).bind
    intro written _
    exact .pure ⟨h.cursor, h.saved, h.spans⟩
  | appendSubstring first last =>
    apply (yields_guard (s.cursor.yields_appendSubstring s.sink first last)).bind
    intro written _
    exact .pure ⟨h.cursor, h.saved, h.spans⟩
  | write content => exact .pure ⟨h.cursor, h.saved, h.spans⟩
  | save name =>
    refine .pure ⟨h.cursor, ?_, h.spans⟩
    intro entry hentry
    rcases List.mem_cons.1 hentry with rfl | hentry
    · exact h.cursor
    · exact h.saved entry hentry
  | restore name =>
    apply (h.yields_copy hknows).bind
    intro c hc
    exact .pure (h.setCursor hc)
  | snapshot =>
    apply (yields_guard hcursor.yields_snapshot).bind
    intro shot _
    exact .pure h

end WellFormed

theorem span_of_not_hasSpan {name : String} (h : s.hasSpan name = false) :
    s.span name = .error (.unknownSpan name) := by
  rw [hasSpan, Option.isSome_eq_false_iff, Option.isNone_iff_eq_none] at h
  rw [span, h]

theorem copy_of_not_hasCopy {name : String} (h : s.hasCopy name = false) :
    s.copy name = .error (.unknownCursor name) := by
  rw [hasCopy, Option.isSome_eq_false_iff, Option.isNone_iff_eq_none] at h
  rw [copy, h]

/-- One step: a command that names something unknown ends in that name, before anything else is looked at. -/
theorem step_of_not_knows {command : Command} (hknows : s.knows command = false) :
    ∃ name, s.step command = .error (.unknownSpan name) ∨ s.step command = .error (.unknownCursor name) := by
  have hspan {name : String} {f : Span → Except SessionFault Reaction} (hname : s.hasSpan name = false) :
      (s.span name >>= f) = .error (.unknownSpan name) := by
    rw [span_of_not_hasSpan hname]
    rfl
  cases command with
  | keepPart source _ _ _ => exact ⟨source, .inl (hspan hknows)⟩
  | showSpan name | spanCharAt name _ | spanChars name | spanReads name _ => exact ⟨name, .inl (hspan hknows)⟩
  | spansEqual left right =>
    cases hleft : s.hasSpan left with
    | false => exact ⟨left, .inl (hspan hleft)⟩
    | true =>
      have hright : s.hasSpan right = false := by simpa [knows, hleft] using hknows
      obtain ⟨v, hv⟩ := Option.isSome_iff_exists.1 hleft
      refine ⟨right, .inl ?_⟩
      rw [step, span, hv]
      exact hspan hright
  | restore name =>
    refine ⟨name, .inr ?_⟩
    rw [step, copy_of_not_hasCopy hknows]
    rfl
  | _ => cases hknows

/-- A run: from a session in good order no list of commands ends in a breach. -/
theorem WellFormed.run_ne_breach (h : s.WellFormed t) (commands : List Command) (b : Breach) :
    s.run commands ≠ .error (.breach b) := by
  induction commands generalizing s with
  | nil => exact nofun
  | cons command commands ih =>
    cases hknows : s.knows command with
    | false =>
      -- the run ends here, in a name and not in a breach
      obtain ⟨name, hstep | hstep⟩ := step_of_not_knows hknows
      · rw [run, hstep]
        exact nofun
      · rw [run, hstep]
        exact nofun
    | true =>
      obtain ⟨r, hstep, hnext⟩ := h.yields_step hknows
      rw [run, hstep]
      intro hrun
      cases htail : r.session.run commands with
      | error fault =>
        have hfault : fault = .breach b := by simpa [htail, bind, Except.bind] using hrun
        exact ih hnext (by rw [htail, hfault])
      | ok reactions => simp [htail, bind, Except.bind, pure, Except.pure] at hrun

theorem Reached.wellFormed (h : s.Reached t) : s.WellFormed t := by
  induction h with
  | start hbegins =>
    rw [hbegins.eq_ofText]
    exact .ofCursor .ofText _
  | @step s command r _ hstep ih =>
    cases hknows : s.knows command with
    | false =>
      obtain ⟨name, hfault | hfault⟩ := step_of_not_knows hknows
      · cases hfault.symm.trans hstep
      · cases hfault.symm.trans hstep
    | true =>
      obtain ⟨r', hstep', hnext⟩ := ih.yields_step hknows
      obtain rfl : r' = r := Except.ok.inj (hstep'.symm.trans hstep)
      exact hnext

/-- Whatever commands led to a session, its places lie in the text, no further commands end in a breach, and every
command whose names are known is carried out. Nor does a character ever miss a table or a word that it is the key of. -/
theorem Reached.never_breaks_off (h : s.Reached t) :
    s.WellFormed t ∧ (∀ commands b, s.run commands ≠ .error (.breach b)) ∧
      (∀ command, s.knows command = true → ∃ r, s.step command = .ok r) ∧ ∀ ch, AsciiKeysFit ch := by
  have hwell := h.wellFormed
  refine ⟨hwell, hwell.run_ne_breach, ?_, asciiKeysFit⟩
  intro command hknows
  obtain ⟨r, hstep, -⟩ := hwell.yields_step hknows
  exact ⟨r, hstep⟩

/-- A session that keeps the last letter of two as a span; an offset inside that letter can be asked for, and is
reported. -/
theorem never_breaks_off_inside_letter :
    let t : Text := ⟨['a', 'é'], by decide⟩
    let s : Session := ⟨.ofText t, [], [("letter", ⟨t, 1, 3⟩)], .empty none⟩
    s.Reached t ∧ s.WellFormed t ∧ (∀ commands b, s.run commands ≠ .error (.breach b)) ∧
      (∀ command, s.knows command = true → ∃ r, s.step command = .ok r) ∧ (∀ ch, AsciiKeysFit ch) ∧
      s.step (.spanCharAt "letter" 1) = .ok (s.showing (.reply (.failure (.notCharBoundary 1)))) := by
  intro t s
  have hstart : (ofCursor (.ofText t) none).Reached t := .start .ofText
  have hkept : ∃ report, (ofCursor (.ofText t) none).step (.keepRange "letter" 1 3) = .ok (s.showing report) := ⟨_, rfl⟩
  obtain ⟨report, hkept⟩ := hkept
  have hreached : s.Reached t := hstart.step hkept
  obtain ⟨hwell, hruns, hknown, hkeys⟩ := hreached.never_breaks_off
  exact ⟨hreached, hwell, hruns, hknown, hkeys, rfl⟩

end Session

end TextCursor
