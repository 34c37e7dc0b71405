import TextCursor.Cursor.Snapshot
import TextCursor.Operation
import TextCursor.Proofs.Utf8.Boundary

/-!
# Looking never fails

`Yields x P` says that a computation goes through and that its value has the property `P`. Everything that looks at a
text without moving over it yields an answer, whatever offsets it is asked for: access to a character or a range,
the results and numbers of a well-formed cursor, and all that is done with a span. Offsets that do not fit are reported
as an error in the answer, which is not a failure of the computation.

A span made from a span that lies in a text lies in the same text (`Span.LiesIn.yields_sub`).
-/

set_option autoImplicit false

namespace TextCursor

/-- The computation goes through, and its value has the property. -/
def Yields {ε α : Type} (x : Except ε α) (P : α → Prop) : Prop :=
  ∃ a, x = .ok a ∧ P a

namespace Yields

variable {ε α β : Type} {x : Except ε α} {f : α → Except ε β} {P P' : α → Prop} {Q : β → Prop}

theorem pure {a : α} (h : P a) : Yields (Except.ok a : Except ε α) P :=
  ⟨a, rfl, h⟩

theorem bind (hx : Yields x P) (hf : ∀ a, P a → Yields (f a) Q) : Yields (x >>= f) Q := by
  obtain ⟨a, rfl, ha⟩ := hx
  exact hf a ha

theorem mono (hx : Yields x P) (h : ∀ a, P a → P' a) : Yields x P' := by
  obtain ⟨a, rfl, ha⟩ := hx
  exact ⟨a, rfl, h a ha⟩

end Yields

/-- The other way round: a step in a computation that goes through. -/
theorem bind_eq_ok_iff {ε α β : Type} {x : Except ε α} {f : α → Except ε β} {b : β} :
    (x >>= f) = .ok b ↔ ∃ a, x = .ok a ∧ f a = .ok b := by
  cases x with
  | error fault => simp [bind, Except.bind]
  | ok a => simp [bind, Except.bind]

namespace Access

variable {cs : List Char} {offset : Nat} {ch : Char}

/-- The character at an offset is the one that begins there. -/
theorem charAt_eq_ok_iff :
    charAt cs offset = .ok (.ok ch) ↔ ∃ before rest, cs = before ++ ch :: rest ∧ Utf8.width before = offset := by
  constructor
  · intro h
    unfold charAt at h
    split at h
    · cases h
    · split at h
      · cases h
      · split at h
        next first rest hslice =>
          cases h
          obtain ⟨before, hcs, hwidth⟩ := Utf8.sliceFrom_eq_ok_iff.1 hslice
          exact ⟨before, rest, hcs, hwidth⟩
        next => cases h
        next => cases h
  · rintro ⟨before, rest, rfl, rfl⟩
    have hpos := ch.utf8Size_pos
    have hlt : ¬ Utf8.width (before ++ ch :: rest) ≤ Utf8.width before := by
      rw [Utf8.width_append, Utf8.width_cons]
      omega
    have hboundary : Utf8.IsBoundary (before ++ ch :: rest) (Utf8.width before) := ⟨before, ch :: rest, rfl, rfl⟩
    have hslice : Utf8.sliceFrom (before ++ ch :: rest) (Utf8.width before) = .ok (ch :: rest) :=
      Utf8.sliceFrom_eq_ok_iff.2 ⟨before, rfl, rfl⟩
    rw [charAt, if_neg hlt, if_neg (not_not_intro hboundary), hslice]

/-- At every offset within the characters there is either a character or an offset inside one to report. -/
theorem charAt_cases (h : offset < Utf8.width cs) :
    (∃ ch, charAt cs offset = .ok (.ok ch)) ∨
      charAt cs offset = .ok (.error (.notCharBoundary offset)) ∧ ¬ Utf8.IsBoundary cs offset := by
  by_cases hboundary : Utf8.IsBoundary cs offset
  · obtain ⟨before, after, rfl, rfl⟩ := hboundary
    cases after with
    | nil => simp at h
    | cons ch rest => exact .inl ⟨ch, charAt_eq_ok_iff.2 ⟨before, rest, rfl, rfl⟩⟩
  · refine .inr ⟨?_, hboundary⟩
    rw [charAt, if_neg (Nat.not_le.2 h), if_pos hboundary]

theorem yields_charAt (cs : List Char) (offset : Nat) : Yields (charAt cs offset) fun _ => True := by
  by_cases hend : Utf8.width cs ≤ offset
  · rw [charAt, if_pos hend]
    exact .pure trivial
  · rcases charAt_cases (Nat.not_le.1 hend) with ⟨ch, hch⟩ | ⟨hreported, -⟩
    · exact ⟨_, hch, trivial⟩
    · exact ⟨_, hreported, trivial⟩

/-- What is made of a range, unless something is wrong with it. -/
def unlessFault {α : Type} (fault? : Option ScanError) (made : α) : Except ScanError α :=
  match fault? with
  | some e => .error e
  | none => .ok made

theorem unlessFault_eq_ok_iff {α : Type} {fault? : Option ScanError} {made a : α} :
    unlessFault fault? made = .ok a ↔ a = made ∧ fault? = none := by
  cases fault? with
  | some e => simp [unlessFault]
  | none => simp [unlessFault, eq_comm]

theorem unlessFault_eq_error_iff {α : Type} {fault? : Option ScanError} {made : α} {e : ScanError} :
    unlessFault fault? made = .error e ↔ fault? = some e := by
  cases fault? with
  | some cause => simp [unlessFault]
  | none => simp [unlessFault]

end Access

namespace Span

/-- The span is a part of the text: its ends are boundaries of it, in order. -/
structure LiesIn (v : Span) (t : Text) : Prop where
  text_eq : v.text = t
  start_le_stop : v.start ≤ v.stop
  start_isBoundary : Utf8.IsBoundary t.chars v.start
  stop_isBoundary : Utf8.IsBoundary t.chars v.stop

/-- Making a span between two boundaries in order. -/
theorem yields_ofOffsets {t : Text} {start stop : Nat} (hle : start ≤ stop) (hstart : Utf8.IsBoundary t.chars start)
    (hstop : Utf8.IsBoundary t.chars stop) :
    Yields (ofOffsets t start stop) fun v => v.LiesIn t ∧ v.start = start ∧ v.stop = stop := by
  rw [ofOffsets, if_pos ⟨hle, hstop.le_width⟩]
  exact .pure ⟨⟨rfl, hle, hstart, hstop⟩, rfl, rfl⟩

namespace LiesIn

variable {v : Span} {t : Text}

theorem exists_parts (h : v.LiesIn t) :
    ∃ before run after, t.chars = before ++ run ++ after ∧ v.start = Utf8.width before ∧
      v.stop = Utf8.width (before ++ run) :=
  h.start_isBoundary.exists_parts h.stop_isBoundary h.start_le_stop

/-- The characters of a span are those between its ends. -/
theorem yields_chars (h : v.LiesIn t) :
    Yields v.chars fun run => ∃ before after, t.chars = before ++ run ++ after ∧ v.start = Utf8.width before ∧
      v.stop = Utf8.width (before ++ run) := by
  obtain ⟨before, run, after, hchars, hstart, hstop⟩ := h.exists_parts
  refine ⟨run, ?_, before, after, hchars, hstart, hstop⟩
  rw [Span.chars, h.text_eq]
  exact Utf8.slice_eq_ok_iff.2 ⟨before, after, hchars, hstart.symm, hstop.symm⟩

theorem yields_content (h : v.LiesIn t) : Yields v.content fun _ => True :=
  h.yields_chars.bind fun _ _ => .pure trivial

theorem yields_length (h : v.LiesIn t) : Yields v.length fun _ => True :=
  ⟨_, Offset.sub_eq_ok h.start_le_stop, trivial⟩

theorem yields_inspect (h : v.LiesIn t) : Yields v.inspect fun _ => True :=
  h.yields_content.bind fun _ _ => .pure trivial

theorem yields_report (h : v.LiesIn t) : Yields v.report fun _ => True := by
  unfold report
  apply h.yields_length.bind
  intro length _
  apply h.yields_content.bind
  intro content _
  apply h.yields_inspect.bind
  intro inspected _
  exact .pure trivial

theorem yields_charAt (h : v.LiesIn t) (offset : Nat) : Yields (v.charAt offset) fun _ => True :=
  h.yields_chars.bind fun run _ => Access.yields_charAt run offset

theorem yields_reads (h : v.LiesIn t) (content : String) : Yields (v.reads content) fun _ => True :=
  h.yields_content.bind fun _ _ => .pure trivial

/-- The boundaries of the characters of a span are those of the text that do not lie behind the span, counted from its
start. -/
theorem isBoundary_iff (h : v.LiesIn t) {run : List Char} (hrun : v.chars = .ok run) {offset : Nat} :
    Utf8.IsBoundary run offset ↔ offset ≤ v.stop - v.start ∧ Utf8.IsBoundary t.chars (v.start + offset) := by
  rw [Span.chars, h.text_eq] at hrun
  obtain ⟨before, after, hchars, hstart, hstop⟩ := Utf8.slice_eq_ok_iff.1 hrun
  have hwidth : v.stop - v.start = Utf8.width run := by
    rw [← hstop, ← hstart, Utf8.width_append]
    omega
  rw [hwidth, hchars, ← hstart]
  exact Utf8.isBoundary_part_iff

/-- A part of a span: the range is checked against the characters of the span, and what passes the check is a span of
the text. -/
theorem sub_eq (h : v.LiesIn t) {run : List Char} (hrun : v.chars = .ok run) (first last : Nat) :
    v.sub first last =
      .ok (Access.unlessFault (Access.rangeFault? run first last) ⟨t, v.start + first, v.start + last⟩) := by
  rw [sub, hrun]
  dsimp only [bind, Except.bind]
  cases hfault : Access.rangeFault? run first last with
  | some e => rfl
  | none =>
    obtain ⟨hle, hfirst, hlast⟩ := Access.rangeFault?_eq_none_iff.1 hfault
    obtain ⟨-, hfirst⟩ := (h.isBoundary_iff hrun).1 hfirst
    obtain ⟨-, hlast⟩ := (h.isBoundary_iff hrun).1 hlast
    -- the sums fit a word because they are offsets into the text
    have hfits (offset : Nat) (hboundary : Utf8.IsBoundary t.chars offset) : offset < Offset.wordCount :=
      Nat.lt_of_le_of_lt hboundary.le_width t.length_lt_wordCount
    have hmade : ofOffsets t (v.start + first) (v.start + last) = .ok ⟨t, v.start + first, v.start + last⟩ :=
      if_pos ⟨Nat.add_le_add_left hle v.start, hlast.le_width⟩
    rw [h.text_eq, Offset.add_eq_ok (hfits _ hfirst), Offset.add_eq_ok (hfits _ hlast)]
    dsimp only
    rw [hmade]
    rfl

theorem yields_sub (h : v.LiesIn t) (first last : Nat) :
    Yields (v.sub first last) fun made => ∀ w, made = .ok w → w.LiesIn t := by
  obtain ⟨run, hrun, -⟩ := h.yields_chars
  rw [h.sub_eq hrun]
  apply Yields.pure
  intro w hw
  obtain ⟨rfl, hfault⟩ := Access.unlessFault_eq_ok_iff.1 hw
  obtain ⟨hle, hfirst, hlast⟩ := Access.rangeFault?_eq_none_iff.1 hfault
  exact ⟨rfl, Nat.add_le_add_left hle v.start, ((h.isBoundary_iff hrun).1 hfirst).2,
    ((h.isBoundary_iff hrun).1 hlast).2⟩

end LiesIn

end Span

namespace Cursor

variable {c : Cursor}

namespace WellFormed

theorem yields_resultChars (h : c.WellFormed) : Yields c.resultChars fun _ => True := by
  obtain ⟨run, hrun⟩ := Utf8.exists_slice_iff.2 ⟨h.start_le_index, h.start_isBoundary, h.index_isBoundary⟩
  exact ⟨run, hrun, trivial⟩

theorem yields_result (h : c.WellFormed) : Yields c.result fun _ => True :=
  h.yields_resultChars.bind fun _ _ => .pure trivial

theorem yields_resultSpan (h : c.WellFormed) : Yields c.resultSpan fun v => v.LiesIn c.text :=
  (Span.yields_ofOffsets h.start_le_index h.start_isBoundary h.index_isBoundary).mono fun _ hv => hv.1

theorem yields_resultLength (h : c.WellFormed) : Yields c.resultLength fun _ => True :=
  ⟨_, Offset.sub_eq_ok h.start_le_index, trivial⟩

end WellFormed

theorem Parts.resultLength_eq {before run ahead : List Char} (h : c.Parts before run ahead) :
    c.resultLength = .ok (Utf8.width run) := by
  have hindex : c.index - c.start = Utf8.width run := by
    rw [h.index_eq, h.start_eq, Utf8.width_append]
    omega
  have hle : c.start ≤ c.index := by
    rw [h.index_eq, h.start_eq, Utf8.width_append]
    omega
  rw [resultLength, Offset.sub_eq_ok hle, hindex]

theorem yields_resultChar (c : Cursor) : Yields c.resultChar fun _ => True := by
  unfold resultChar
  split
  · exact .pure trivial
  · exact Access.yields_charAt _ _

theorem yields_substring (c : Cursor) (first last : Nat) : Yields (c.substring first last) fun _ => True := by
  unfold substring
  split
  · exact .pure trivial
  next hfault =>
    obtain ⟨run, hrun⟩ := Utf8.exists_slice_iff.2 (Access.rangeFault?_eq_none_iff.1 hfault)
    rw [hrun]
    exact .pure trivial

/-- A range between two places in the parts of a text. -/
theorem substring_of_parts {c : Cursor} {first middle last : List Char} (h : c.text.chars = first ++ middle ++ last) :
    c.substring (Utf8.width first) (Utf8.width (first ++ middle)) = .ok (.ok (String.ofList middle)) := by
  have hslice : Utf8.slice c.text.chars (Utf8.width first) (Utf8.width (first ++ middle)) = .ok middle :=
    Utf8.slice_eq_ok_iff.2 ⟨first, last, h, rfl, rfl⟩
  have hfault : Access.rangeFault? c.text.chars (Utf8.width first) (Utf8.width (first ++ middle)) = none :=
    Access.rangeFault?_eq_none_iff.2 (Utf8.exists_slice_iff.1 ⟨middle, hslice⟩)
  rw [substring, hfault, hslice]
  rfl

/-- A range of a text: what passes the check is a span. -/
theorem substringSpan_eq (c : Cursor) (first last : Nat) :
    c.substringSpan first last =
      .ok (Access.unlessFault (Access.rangeFault? c.text.chars first last) ⟨c.text, first, last⟩) := by
  unfold substringSpan
  cases hfault : Access.rangeFault? c.text.chars first last with
  | some e => rfl
  | none =>
    obtain ⟨hle, -, hlast⟩ := Access.rangeFault?_eq_none_iff.1 hfault
    have hmade : Span.ofOffsets c.text first last = .ok ⟨c.text, first, last⟩ := if_pos ⟨hle, hlast.le_width⟩
    rw [hmade]
    rfl

theorem yields_substringSpan (c : Cursor) (first last : Nat) :
    Yields (c.substringSpan first last) fun made => ∀ v, made = .ok v → v.LiesIn c.text := by
  rw [substringSpan_eq]
  apply Yields.pure
  intro v hv
  obtain ⟨rfl, hfault⟩ := Access.unlessFault_eq_ok_iff.1 hv
  obtain ⟨hle, hfirst, hlast⟩ := Access.rangeFault?_eq_none_iff.1 hfault
  exact ⟨rfl, hle, hfirst, hlast⟩

theorem yields_numeral (c : Cursor) (first last : Nat) : Yields (c.numeral first last) fun _ => True := by
  unfold numeral
  split
  · exact .pure trivial
  · exact c.yields_substring first last

/-- The record of a numeral that was refused for its digits, where there were digits to look at. -/
def recordsOf {α : Type} (parse : String → Except Numeral.Error α) (refused : String → Numeral.Error → Record) :
    Except ScanError String → List Record
  | .error _ => []
  | .ok digits =>
    match parse digits with
    | .ok _ => []
    | .error cause => [refused digits cause]

/-- Reading a number is reading its digits. The cursor stays where it is, no test is asked, and only a record may be
left. -/
theorem number_eq {c : Cursor} {α : Type} {first last : Nat} {digits : Except ScanError String}
    (h : c.numeral first last = .ok digits) (parse : String → Except Numeral.Error α)
    (refused : String → Numeral.Error → Record) :
    c.number parse refused first last =
      .ok ⟨digits.bind fun ds => (parse ds).mapError .number, c, [], recordsOf parse refused digits⟩ := by
  unfold number
  rw [h]
  cases digits with
  | error e => rfl
  | ok ds =>
    dsimp only [bind, Except.bind, recordsOf]
    cases parse ds with
    | ok n => rfl
    | error e => rfl

theorem yields_number {α : Type} (c : Cursor) (parse : String → Except Numeral.Error α)
    (refused : String → Numeral.Error → Record) (first last : Nat) :
    Yields (c.number parse refused first last) fun o => o.cursor = c := by
  obtain ⟨digits, hdigits, -⟩ := c.yields_numeral first last
  exact ⟨_, number_eq hdigits parse refused, rfl⟩

/-- What is written is the result, or nothing if a range was refused; the sink decides the rest. -/
theorem WellFormed.yields_appendResult (h : c.WellFormed) (sink : Sink) :
    Yields (c.appendResult sink) fun _ => True := by
  apply h.yields_result.bind
  intro content _
  exact .pure trivial

theorem yields_appendSubstring (c : Cursor) (sink : Sink) (first last : Nat) :
    Yields (c.appendSubstring sink first last) fun _ => True := by
  unfold appendSubstring
  apply (c.yields_substring first last).bind
  intro content _
  cases content with
  | error e => exact .pure trivial
  | ok content =>
    dsimp only
    split
    · exact .pure trivial
    · exact .pure trivial

theorem WellFormed.yields_snapshot (h : c.WellFormed) : Yields c.snapshot fun _ => True := by
  unfold snapshot
  apply h.yields_resultSpan.bind
  intro span hspan
  apply h.yields_result.bind
  intro content _
  apply h.yields_resultLength.bind
  intro length _
  apply c.yields_resultChar.bind
  intro first _
  apply hspan.yields_report.bind
  intro report _
  exact .pure trivial

end Cursor

/-- Every query of a well-formed cursor has an answer, and leaves the cursor where it is. -/
theorem Query.yields_run {c : Cursor} (h : c.WellFormed) (q : Query) : Yields (q.run c) fun o => o.cursor = c := by
  cases q with
  | isAtEnd => exact .pure rfl
  | charAt offset => exact (Access.yields_charAt c.text.chars offset).bind fun _ _ => .pure rfl
  | result => exact h.yields_result.bind fun _ _ => .pure rfl
  | resultLength => exact h.yields_resultLength.bind fun _ _ => .pure rfl
  | resultChar => exact c.yields_resultChar.bind fun _ _ => .pure rfl
  | substring first last => exact (c.yields_substring first last).bind fun _ _ => .pure rfl
  | decimal _ _ first last | hex _ first last => exact (c.yields_number _ _ first last).bind fun _ ho => .pure ho
  | resultDecimal | resultHex => exact (c.yields_number _ _ c.start c.index).bind fun _ ho => .pure ho

end TextCursor
