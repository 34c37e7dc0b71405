import TextCursor.Proofs.Cursor.Reachability
import TextCursor.Proofs.Observation

/-!
# Parts of a text, and parts of parts

A span checks what it is asked for against its own characters, and then uses it against the whole text. That the two
agree is what this module is about. `Span.Obtained` are the spans that can be had of a text: the results of cursors, the
ranges that cursors make, and the parts of such spans, to any depth. They are the spans that lie in the text, no more
and no less (`Span.obtained_iff`).

`Span.FaithfulTo` says what such a span has in common with any cursor over the same text: it reads as the text between
its ends, its parts are the ranges of the cursor moved by its start, a part of a part is a part, and the characters at
its offsets are those of the cursor. `Span.Obtained.faithful` is the proof of it.
-/

set_option autoImplicit false

namespace TextCursor

namespace Access

variable {before run after : List Char} {offset : Nat} {ch : Char}

/-- The characters of a part are those of the whole, further back by what lies before the part. -/
theorem charAt_part_iff (h : offset < Utf8.width run) :
    charAt run offset = .ok (.ok ch) ↔
      charAt (before ++ run ++ after) (Utf8.width before + offset) = .ok (.ok ch) := by
  have hshift : ∀ other, charAt run offset = .ok (.ok other) →
      charAt (before ++ run ++ after) (Utf8.width before + offset) = .ok (.ok other) := by
    intro other hother
    obtain ⟨early, rest, rfl, rfl⟩ := charAt_eq_ok_iff.1 hother
    exact charAt_eq_ok_iff.2 ⟨before ++ early, rest ++ after, by simp, Utf8.width_append before early⟩
  constructor
  · exact hshift ch
  · intro hwhole
    obtain ⟨early, rest, hcs, hwidth⟩ := charAt_eq_ok_iff.1 hwhole
    have hboundary : Utf8.IsBoundary run offset :=
      Utf8.isBoundary_part_iff.2 ⟨Nat.le_of_lt h, early, ch :: rest, hcs, hwidth⟩
    rcases charAt_cases h with ⟨other, hother⟩ | ⟨-, hinside⟩
    · have hsame := (hshift other hother).symm.trans hwhole
      cases hsame
      exact hother
    · exact absurd hboundary hinside

end Access

/-- A range of the text is made exactly between two boundaries in order. -/
theorem Cursor.substringSpan_eq_ok_iff {c : Cursor} {first last : Nat} {v : Span} :
    c.substringSpan first last = .ok (.ok v) ↔
      v = ⟨c.text, first, last⟩ ∧ first ≤ last ∧ Utf8.IsBoundary c.text.chars first ∧
        Utf8.IsBoundary c.text.chars last := by
  rw [substringSpan_eq, Except.ok.injEq, Access.unlessFault_eq_ok_iff, Access.rangeFault?_eq_none_iff]

namespace Span

/-- The spans that can be had of a text. -/
inductive Obtained (t : Text) : Span → Prop where
  | result {c : Cursor} {v : Span} : c.Reachable t → c.resultSpan = .ok v → Obtained t v
  | range {c : Cursor} {first last : Nat} {v : Span} :
      c.Reachable t → c.substringSpan first last = .ok (.ok v) → Obtained t v
  | part {v w : Span} {first last : Nat} : Obtained t v → v.sub first last = .ok (.ok w) → Obtained t w

namespace LiesIn

variable {v w x : Span} {t : Text} {first last offset : Nat}

/-- A part is made exactly where the two offsets are in order, do not go beyond the span, and are boundaries of the text
when counted from its beginning. -/
theorem sub_eq_ok_iff (h : v.LiesIn t) :
    v.sub first last = .ok (.ok w) ↔
      w = ⟨t, v.start + first, v.start + last⟩ ∧ first ≤ last ∧ last ≤ v.stop - v.start ∧
        Utf8.IsBoundary t.chars (v.start + first) ∧ Utf8.IsBoundary t.chars (v.start + last) := by
  obtain ⟨run, hrun, -⟩ := h.yields_chars
  have hnone : Access.rangeFault? run first last = none ↔ first ≤ last ∧ last ≤ v.stop - v.start ∧
      Utf8.IsBoundary t.chars (v.start + first) ∧ Utf8.IsBoundary t.chars (v.start + last) := by
    rw [Access.rangeFault?_eq_none_iff, h.isBoundary_iff hrun, h.isBoundary_iff hrun]
    constructor
    · rintro ⟨hle, ⟨-, hfirst⟩, hwithin, hlast⟩
      exact ⟨hle, hwithin, hfirst, hlast⟩
    · rintro ⟨hle, hwithin, hfirst, hlast⟩
      exact ⟨hle, ⟨Nat.le_trans hle hwithin, hfirst⟩, hwithin, hlast⟩
  rw [h.sub_eq hrun, Except.ok.injEq, Access.unlessFault_eq_ok_iff, hnone]

/-- A part of a part is a part. -/
theorem sub_sub (h : v.LiesIn t) {first' last' : Nat} (hw : v.sub first last = .ok (.ok w))
    (hx : w.sub first' last' = .ok (.ok x)) : v.sub (first + first') (first + last') = .ok (.ok x) := by
  obtain ⟨made, hmade, hlies⟩ := h.yields_sub first last
  rw [hw] at hmade
  cases hmade
  obtain ⟨rfl, hle, hwithin, -, -⟩ := h.sub_eq_ok_iff.1 hw
  obtain ⟨rfl, hle', hwithin', hfirst', hlast'⟩ := (hlies _ rfl).sub_eq_ok_iff.1 hx
  rw [Nat.add_assoc] at hfirst' hlast' ⊢
  dsimp only at hwithin'
  refine h.sub_eq_ok_iff.2 ⟨?_, ?_, ?_, hfirst', hlast'⟩
  · rw [Nat.add_assoc]
  · omega
  · omega

/-- The character at an offset of a span is the character of the text there, and where there is none the offset is
reported. -/
theorem charAt_iff (h : v.LiesIn t) (hoffset : offset < v.stop - v.start) :
    (∀ ch, v.charAt offset = .ok (.ok ch) ↔ Access.charAt t.chars (v.start + offset) = .ok (.ok ch)) ∧
      ((∃ ch, v.charAt offset = .ok (.ok ch)) ∨ v.charAt offset = .ok (.error (.notCharBoundary offset))) := by
  obtain ⟨run, hrun, before, after, hchars, hstart, hstop⟩ := h.yields_chars
  have hwithin : offset < Utf8.width run := by
    rw [hstop, hstart, Utf8.width_append] at hoffset
    omega
  have hcharAt : v.charAt offset = Access.charAt run offset := by
    rw [charAt, hrun]
    rfl
  rw [hcharAt, hchars, hstart]
  constructor
  · intro ch
    exact Access.charAt_part_iff hwithin
  · rcases Access.charAt_cases hwithin with hch | ⟨hreported, -⟩
    · exact .inl hch
    · exact .inr hreported

end LiesIn

theorem Obtained.liesIn {v : Span} {t : Text} (h : v.Obtained t) : v.LiesIn t := by
  induction h with
  | @result c v hc hv =>
    obtain ⟨rfl, hwell⟩ := Cursor.reachable_iff.1 hc
    obtain ⟨made, hmade, hlies⟩ := hwell.yields_resultSpan
    cases hmade.symm.trans hv
    exact hlies
  | @range c first last v hc hv =>
    obtain ⟨rfl, -⟩ := Cursor.reachable_iff.1 hc
    obtain ⟨made, hmade, hlies⟩ := c.yields_substringSpan first last
    cases hmade.symm.trans hv
    exact hlies v rfl
  | @part v w first last hv hw ih =>
    obtain ⟨made, hmade, hlies⟩ := ih.yields_sub first last
    cases hmade.symm.trans hw
    exact hlies w rfl

/-- The spans that can be had of a text are those that lie in it. -/
theorem obtained_iff {v : Span} {t : Text} : v.Obtained t ↔ v.LiesIn t := by
  constructor
  · exact Obtained.liesIn
  · intro h
    -- every such span is a range of the cursor at the beginning
    have hmade : (Cursor.ofText t).substringSpan v.start v.stop = .ok (.ok v) := by
      refine Cursor.substringSpan_eq_ok_iff.2 ⟨?_, h.start_le_stop, h.start_isBoundary, h.stop_isBoundary⟩
      obtain ⟨text, start, stop⟩ := v
      obtain rfl := h.text_eq
      rfl
    exact .range .ofText hmade

/-- What a span has in common with a cursor over the same text. -/
structure FaithfulTo (v : Span) (c : Cursor) : Prop where
  text_eq : v.text = c.text
  start_le_stop : v.start ≤ v.stop
  stop_le_length : v.stop ≤ c.length
  start_isBoundary : Utf8.IsBoundary c.text.chars v.start
  stop_isBoundary : Utf8.IsBoundary c.text.chars v.stop
  length_eq : v.length = .ok (v.stop - v.start)
  content_eq : ∃ before run after, c.text.chars = before ++ run ++ after ∧ Utf8.width before = v.start ∧
    Utf8.width (before ++ run) = v.stop ∧ v.content = .ok (String.ofList run)
  sub_answers : ∀ first last, ∃ made, v.sub first last = .ok made
  sub_ok_iff : ∀ first last, (∃ w, v.sub first last = .ok (.ok w)) ↔
    first ≤ last ∧ last ≤ v.stop - v.start ∧
      Utf8.IsBoundary c.text.chars (v.start + first) ∧ Utf8.IsBoundary c.text.chars (v.start + last)
  sub_eq_range : ∀ first last w, v.sub first last = .ok (.ok w) →
    c.substringSpan (v.start + first) (v.start + last) = .ok (.ok w)
  sub_sub : ∀ first last w first' last' x, v.sub first last = .ok (.ok w) → w.sub first' last' = .ok (.ok x) →
    v.sub (first + first') (first + last') = .ok (.ok x)
  charAt_iff : ∀ offset, offset < v.stop - v.start → ∀ ch,
    v.charAt offset = .ok (.ok ch) ↔ c.charAt (v.start + offset) = .ok (.ok ch)
  charAt_reports : ∀ offset, offset < v.stop - v.start →
    (∃ ch, v.charAt offset = .ok (.ok ch)) ∨ v.charAt offset = .ok (.error (.notCharBoundary offset))

theorem LiesIn.faithfulTo {v : Span} {c : Cursor} (h : v.LiesIn c.text) : v.FaithfulTo c where
  text_eq := h.text_eq
  start_le_stop := h.start_le_stop
  stop_le_length := h.stop_isBoundary.le_width
  start_isBoundary := h.start_isBoundary
  stop_isBoundary := h.stop_isBoundary
  length_eq := Offset.sub_eq_ok h.start_le_stop
  content_eq := by
    obtain ⟨run, hrun, before, after, hchars, hstart, hstop⟩ := h.yields_chars
    exact ⟨before, run, after, hchars, hstart.symm, hstop.symm, by rw [content, hrun]; rfl⟩
  sub_answers first last := by
    obtain ⟨made, hmade, -⟩ := h.yields_sub first last
    exact ⟨made, hmade⟩
  sub_ok_iff first last := by
    simp only [h.sub_eq_ok_iff, exists_eq_left]
  sub_eq_range first last w hw := by
    obtain ⟨hw, hle, -, hfirst, hlast⟩ := h.sub_eq_ok_iff.1 hw
    exact Cursor.substringSpan_eq_ok_iff.2 ⟨hw, Nat.add_le_add_left hle v.start, hfirst, hlast⟩
  sub_sub _ _ _ _ _ _ hw hx := h.sub_sub hw hx
  charAt_iff offset hoffset := (h.charAt_iff hoffset).1
  charAt_reports offset hoffset := (h.charAt_iff hoffset).2

/-- Every span that can be had of a text, from whatever cursors and however deep, is faithful to every cursor over that
text. -/
theorem Obtained.faithful {t : Text} {v : Span} {c : Cursor} (hv : v.Obtained t) (hc : c.Reachable t) :
    v.FaithfulTo c := by
  obtain ⟨rfl, -⟩ := Cursor.reachable_iff.1 hc
  exact hv.liesIn.faithfulTo

/-- A part of a part of a range, which is a letter of three bytes behind one of two, and a cursor at another place. The
letter is found at the beginning of the span, and no letter at the byte behind. -/
theorem faithful_part_of_part :
    let t : Text := ⟨['a', 'é', '€', 'b'], by decide⟩
    let v : Span := ⟨t, 3, 6⟩
    let c : Cursor := ⟨t, 1, 3⟩
    v.Obtained t ∧ c.Reachable t ∧ v.FaithfulTo c ∧ v.content = .ok "€" ∧ c.charAt 3 = .ok (.ok '€') ∧
      v.charAt 0 = .ok (.ok '€') ∧ v.charAt 1 = .ok (.error (.notCharBoundary 1)) := by
  intro t v c
  have hrange : (Cursor.ofText t).substringSpan 1 7 = .ok (.ok ⟨t, 1, 7⟩) := rfl
  have hpart : (⟨t, 1, 7⟩ : Span).sub 0 5 = .ok (.ok ⟨t, 1, 6⟩) := rfl
  have hletter : (⟨t, 1, 6⟩ : Span).sub 2 5 = .ok (.ok v) := rfl
  have hobtained : v.Obtained t := ((Obtained.range .ofText hrange).part hpart).part hletter
  have hreached : c.Reachable t := Cursor.reachable_iff.2 ⟨rfl, by decide, by decide, by decide⟩
  have hfaithful := hobtained.faithful hreached
  have hchar : c.charAt 3 = .ok (.ok '€') := rfl
  have hfirst : v.charAt 0 = .ok (.ok '€') := (hfaithful.charAt_iff 0 (by decide) '€').2 hchar
  exact ⟨hobtained, hreached, hfaithful, rfl, hchar, hfirst, rfl⟩

end Span

end TextCursor
