import Mathlib.Data.List.Forall2
import TextCursor.Proofs.Cursor.Reachability
import TextCursor.Proofs.Cursor.Succession

/-!
# Counting off characters and taking them one by one

A number of characters can be skipped at once, or the next character can be taken that many times. The first counts in
characters what it adds up in bytes, and touches the cursor only when all of them have been found; the second moves the
cursor every time. They come to the same: both succeed or neither, at the same index, and the result of the skip is the
characters that were taken one by one (`Cursor.skipCount_counts_nextChar`).

Taken one by one, the characters ahead come in order, each as the result, and after the last of them the cursor stays
where it is however often it is asked. Two skips in a row are one skip over both numbers.
-/

set_option autoImplicit false

namespace TextCursor

/-- The character was handed out, and has become the result. -/
structure Outcome.Hands (ch : Char) (o : Outcome (Except ScanError Char)) : Prop where
  reply_eq : o.reply = .ok ch
  result_eq : o.cursor.result = .ok (String.singleton ch)

theorem Outcome.Hands.map_reply_eq {cs : List Char} {os : List (Outcome (Except ScanError Char))}
    (h : List.Forall₂ Outcome.Hands cs os) : os.map Outcome.reply = cs.map .ok := by
  induction h with
  | nil => rfl
  | cons hhands _ ih => rw [List.map_cons, List.map_cons, hhands.reply_eq, ih]

namespace Cursor

theorem exists_append_of_le_length {cs : List Char} {n : Nat} (h : n ≤ cs.length) :
    ∃ taken rest, cs = taken ++ rest ∧ n = taken.length :=
  ⟨cs.take n, cs.drop n, (List.take_append_drop n cs).symm, (List.length_take_of_le h).symm⟩

/-- A skip over `n` characters beside as many calls for the next one, whose outcomes are `os` and which end at `last`. -/
structure CountsOff (c : Cursor) (n : Nat) (ahead : List Char) (o : Outcome (Except ScanError Unit))
    (os : List (Outcome (Except ScanError Char))) (last : Cursor) : Prop where
  ok_iff_le_length : o.reply = .ok () ↔ n ≤ ahead.length
  ok_iff_each_ok : o.reply = .ok () ↔ ∀ p ∈ os, ∃ ch, p.reply = .ok ch
  start_eq : o.reply = .ok () → o.cursor.start = c.index
  index_eq : o.reply = .ok () → o.cursor.index = last.index
  result_eq : o.reply = .ok () → ∃ taken : List Char, taken.length = n ∧ os.map Outcome.reply = taken.map .ok ∧
    o.cursor.result = .ok (String.ofList taken)
  unchanged : ∀ e, o.reply = .error e → o.cursor = c

namespace Parts

variable {c : Cursor} {before run ahead taken rest : List Char}

/-- The characters that stand ahead are handed out in order, and what stands behind them is then ahead. -/
theorem exists_nextChars (h : c.Parts before run (taken ++ rest)) :
    ∃ os last, c.inSuccession (List.replicate taken.length nextChar) = .ok (os, last) ∧
      List.Forall₂ Outcome.Hands taken os ∧ last.index = c.index + Utf8.width taken ∧
      ∃ before' run', last.Parts before' run' rest := by
  induction taken generalizing c before run with
  | nil => exact ⟨[], c, rfl, .nil, rfl, before, run, h⟩
  | cons ch taken ih =>
    have hsplit : c.Parts before run ([ch] ++ (taken ++ rest)) := h
    have hnext := hsplit.parts_acceptTo
    obtain ⟨os, last, hos, hhands, hindex, hlast⟩ := ih hnext
    have hstep : c.nextChar = .ok ⟨.ok ch, c.acceptTo (c.index + Utf8.width [ch]), [], []⟩ := h.nextChar_eq
    refine ⟨_, last, inSuccession_cons hstep hos, .cons ⟨rfl, hnext.result_eq⟩ hhands, ?_, hlast⟩
    rw [hindex]
    simp [acceptTo, Nat.add_assoc]

/-- At the end no character is handed out, and the cursor stays. -/
theorem exists_nextChars_of_end (h : c.Parts before run []) (n : Nat) :
    ∃ os, c.inSuccession (List.replicate n nextChar) = .ok (os, c) ∧ os.length = n ∧
      ∀ o ∈ os, (∃ e, o.reply = .error e) ∧ o.cursor = c := by
  induction n with
  | zero => exact ⟨[], rfl, rfl, nofun⟩
  | succ n ih =>
    obtain ⟨os, hos, hlength, hrefused⟩ := ih
    have hstep := h.nextChar_eq
    exact ⟨_, inSuccession_cons hstep hos, by rw [List.length_cons, hlength],
      List.forall_mem_cons.2 ⟨⟨⟨_, rfl⟩, rfl⟩, hrefused⟩⟩

/-- All that stands ahead is handed out, and then nothing any more. -/
theorem exists_nextChars_to_end (h : c.Parts before run ahead) :
    ∃ os last, c.inSuccession (List.replicate ahead.length nextChar) = .ok (os, last) ∧
      List.Forall₂ Outcome.Hands ahead os ∧
      ∀ more, ∃ refused, c.inSuccession (List.replicate (ahead.length + more) nextChar) = .ok (os ++ refused, last) ∧
        refused.length = more ∧ ∀ o ∈ refused, (∃ e, o.reply = .error e) ∧ o.cursor = last := by
  have hsplit : c.Parts before run (ahead ++ []) := by rwa [List.append_nil]
  obtain ⟨os, last, hos, hhands, -, before', run', hlast⟩ := hsplit.exists_nextChars
  refine ⟨os, last, hos, hhands, ?_⟩
  intro more
  obtain ⟨refused, hrefused, hlength, hstays⟩ := hlast.exists_nextChars_of_end more
  refine ⟨refused, ?_, hlength, hstays⟩
  rw [← List.replicate_append_replicate]
  exact inSuccession_append hos hrefused

theorem skipCount_of_few (h : c.Parts before run ahead) {n : Nat} (hfew : ahead.length < n) :
    ∃ e log, c.skipCount n = .ok ⟨.error e, c, [], log⟩ := by
  have hskip := h.skipCount_eq n
  rw [if_pos hfew] at hskip
  exact ⟨_, _, hskip⟩

theorem skipCount_of_enough (h : c.Parts before run (taken ++ rest)) :
    ∃ log, c.skipCount taken.length = .ok ⟨.ok (), c.acceptTo (c.index + Utf8.width taken), [], log⟩ := by
  have hskip := h.skipCount_eq taken.length
  rw [if_neg (by simp), List.take_left] at hskip
  exact ⟨_, hskip⟩

/-- If there are too few characters, the skip leaves the cursor alone and one of the calls finds nothing. -/
theorem countsOff_of_few {n : Nat} (hfew : ahead.length < n) {e : ScanError} {log : List Record}
    {os : List (Outcome (Except ScanError Char))} {p : Outcome (Except ScanError Char)} (hp : p ∈ os)
    (hrefused : ∃ e, p.reply = .error e) (last : Cursor) : c.CountsOff n ahead ⟨.error e, c, [], log⟩ os last where
  ok_iff_le_length := by
    constructor
    · intro hok
      cases hok
    · intro hle
      omega
  ok_iff_each_ok := by
    constructor
    · intro hok
      cases hok
    · intro hall
      obtain ⟨ch, hch⟩ := hall p hp
      obtain ⟨e, he⟩ := hrefused
      cases hch.symm.trans he
  start_eq hok := nomatch hok
  index_eq hok := nomatch hok
  result_eq hok := nomatch hok
  unchanged _ _ := rfl

/-- If there are enough, both take them. -/
theorem countsOff_of_enough (h : c.Parts before run (taken ++ rest)) {log : List Record}
    {os : List (Outcome (Except ScanError Char))} (hhands : List.Forall₂ Outcome.Hands taken os) {last : Cursor}
    (hindex : last.index = c.index + Utf8.width taken) :
    c.CountsOff taken.length (taken ++ rest) ⟨.ok (), c.acceptTo (c.index + Utf8.width taken), [], log⟩ os last where
  ok_iff_le_length := iff_of_true rfl (by simp)
  ok_iff_each_ok := by
    refine iff_of_true rfl ?_
    intro p hp
    have hmem : p.reply ∈ taken.map .ok := Outcome.Hands.map_reply_eq hhands ▸ List.mem_map_of_mem hp
    obtain ⟨ch, -, hch⟩ := List.mem_map.1 hmem
    exact ⟨ch, hch.symm⟩
  start_eq _ := rfl
  index_eq _ := hindex.symm
  result_eq _ := ⟨taken, rfl, Outcome.Hands.map_reply_eq hhands, h.parts_acceptTo.result_eq⟩
  unchanged _ hreply := nomatch hreply

theorem exists_countsOff (h : c.Parts before run ahead) (n : Nat) :
    ∃ o os last, c.skipCount n = .ok o ∧ c.inSuccession (List.replicate n nextChar) = .ok (os, last) ∧
      c.CountsOff n ahead o os last := by
  rcases Nat.lt_or_ge ahead.length n with hfew | henough
  · obtain ⟨e, log, hskip⟩ := h.skipCount_of_few hfew
    obtain ⟨os, last, -, -, hbeyond⟩ := h.exists_nextChars_to_end
    obtain ⟨more, rfl⟩ := Nat.exists_eq_add_of_lt hfew
    obtain ⟨refused, hcalls, hlength, hrefused⟩ := hbeyond (more + 1)
    obtain ⟨first, hfirst⟩ := List.exists_mem_of_length_pos (by omega : 0 < refused.length)
    have hmem : first ∈ os ++ refused := List.mem_append_right os hfirst
    exact ⟨_, _, _, hskip, hcalls, countsOff_of_few hfew hmem (hrefused first hfirst).1 last⟩
  · obtain ⟨taken, rest, rfl, rfl⟩ := exists_append_of_le_length henough
    obtain ⟨log, hskip⟩ := h.skipCount_of_enough
    obtain ⟨os, last, hcalls, hhands, hindex, -⟩ := h.exists_nextChars
    exact ⟨_, _, _, hskip, hcalls, h.countsOff_of_enough hhands hindex⟩

/-- Two skips in a row go through exactly if one skip over both numbers does, and end where it ends. -/
theorem exists_skipCount_add (h : c.Parts before run ahead) (a b : Nat) :
    ∃ first second both, c.skipCount a = .ok first ∧ first.cursor.skipCount b = .ok second ∧
      c.skipCount (a + b) = .ok both ∧ (both.reply = .ok () ↔ first.reply = .ok () ∧ second.reply = .ok ()) ∧
      (both.reply = .ok () → second.cursor.index = both.cursor.index) := by
  -- by whether there are enough characters for the first skip and, behind those, for the second
  rcases Nat.lt_or_ge ahead.length a with hfew | henough
  · obtain ⟨e, log, hfirst⟩ := h.skipCount_of_few hfew
    obtain ⟨e', log', hboth⟩ := h.skipCount_of_few (Nat.lt_add_right b hfew)
    have hsecond := h.skipCount_eq b
    exact ⟨_, _, _, hfirst, hsecond, hboth, by simp, by simp⟩
  · obtain ⟨taken, rest, rfl, rfl⟩ := exists_append_of_le_length henough
    obtain ⟨log, hfirst⟩ := h.skipCount_of_enough
    have hbehind := h.parts_acceptTo
    rcases Nat.lt_or_ge rest.length b with hfew | henough
    · obtain ⟨e, log', hsecond⟩ := hbehind.skipCount_of_few hfew
      obtain ⟨e', log'', hboth⟩ := h.skipCount_of_few (n := taken.length + b) (by simp [hfew])
      exact ⟨_, _, _, hfirst, hsecond, hboth, by simp, by simp⟩
    · obtain ⟨more, rest, rfl, rfl⟩ := exists_append_of_le_length henough
      obtain ⟨log', hsecond⟩ := hbehind.skipCount_of_enough
      have hjoined : c.Parts before run ((taken ++ more) ++ rest) := by rwa [List.append_assoc]
      obtain ⟨log'', hboth⟩ := hjoined.skipCount_of_enough
      rw [List.length_append] at hboth
      exact ⟨_, _, _, hfirst, hsecond, hboth, by simp, by simp [acceptTo, Nat.add_assoc]⟩

end Parts

/-- From any place that can be reached. A skip over `n` characters succeeds exactly if there are so many, and exactly if
`n` calls for the next character do; its result is then the characters that the calls hand out, and otherwise it leaves
the cursor alone. Calls for the next character hand out what stands ahead, one after the other, and nothing behind it.
A skip over a sum is two skips. -/
theorem skipCount_counts_nextChar {t : Text} {c : Cursor} (h : Reachable t c) :
    ∃ ahead, c.rest = .ok ahead ∧
      (∀ n, ∃ o os last, c.skipCount n = .ok o ∧ c.inSuccession (List.replicate n nextChar) = .ok (os, last) ∧
        c.CountsOff n ahead o os last) ∧
      (∃ os last, c.inSuccession (List.replicate ahead.length nextChar) = .ok (os, last) ∧
        List.Forall₂ Outcome.Hands ahead os ∧
        ∀ more, ∃ refused,
          c.inSuccession (List.replicate (ahead.length + more) nextChar) = .ok (os ++ refused, last) ∧
          refused.length = more ∧ ∀ o ∈ refused, (∃ e, o.reply = .error e) ∧ o.cursor = last) ∧
      ∀ a b, ∃ first second both, c.skipCount a = .ok first ∧ first.cursor.skipCount b = .ok second ∧
        c.skipCount (a + b) = .ok both ∧ (both.reply = .ok () ↔ first.reply = .ok () ∧ second.reply = .ok ()) ∧
        (both.reply = .ok () → second.cursor.index = both.cursor.index) := by
  obtain ⟨-, hwell⟩ := reachable_iff.1 h
  obtain ⟨before, run, ahead, hparts⟩ := wellFormed_iff_exists_parts.1 hwell
  exact ⟨ahead, hparts.rest_eq, hparts.exists_countsOff, hparts.exists_nextChars_to_end, hparts.exists_skipCount_add⟩

/-- Ahead of the index stand letters of two and three bytes. Two characters can be skipped, in one step of five bytes, as
two calls hand them out; the greatest count that a word holds cannot. -/
theorem skipCount_counts_nextChar_mixed_widths :
    let t : Text := ⟨['a', 'é', '€'], by decide⟩
    let c : Cursor := ⟨t, 0, 1⟩
    Reachable t c ∧
      (∃ o os last, c.skipCount 2 = .ok o ∧ c.inSuccession [nextChar, nextChar] = .ok (os, last) ∧ o.reply = .ok () ∧
        o.cursor.index = 6 ∧ c.CountsOff 2 ['é', '€'] o os last) ∧
      ∃ o os last, c.skipCount (Offset.wordCount - 1) = .ok o ∧
        c.inSuccession (List.replicate (Offset.wordCount - 1) nextChar) = .ok (os, last) ∧ o.reply ≠ .ok () ∧
        c.CountsOff (Offset.wordCount - 1) ['é', '€'] o os last := by
  intro t c
  have hreached : Reachable t c := reachable_iff.2 ⟨rfl, by decide, by decide, by decide⟩
  obtain ⟨ahead, hrest, hcounts, -, -⟩ := skipCount_counts_nextChar hreached
  have hahead : c.rest = .ok ['é', '€'] := rfl
  obtain rfl : ahead = ['é', '€'] := Except.ok.inj (hrest.symm.trans hahead)
  have htwo : c.skipCount 2 = .ok ⟨.ok (), ⟨t, 1, 6⟩, [], [.skipped 1 6]⟩ := rfl
  obtain ⟨o, os, last, hskip, hcalls, hcount⟩ := hcounts 2
  obtain rfl := Except.ok.inj (hskip.symm.trans htwo)
  obtain ⟨o, os', last', hskip', hcalls', hcount'⟩ := hcounts (Offset.wordCount - 1)
  have hfails : o.reply ≠ .ok () := mt hcount'.ok_iff_le_length.1 (by decide)
  exact ⟨hreached, ⟨_, os, last, hskip, hcalls, rfl, rfl, hcount⟩, o, os', last', hskip', hcalls', hfails, hcount'⟩

end Cursor

end TextCursor
