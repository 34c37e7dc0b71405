import TextCursor.Cursor.Skip

/-!
# What the loops compute

Three operations of a cursor go over characters one by one: the scan, the skip over the characters of a set, and the
counting off of characters. Each carries an offset along and stops on conditions of its own. Here each is equal to a
closed form on the characters ahead: a longest leading part, cut to the bound, or a leading part of given length.

Offsets are machine words, so every equation has a bound on the end of what is gone over. For the characters ahead of a
cursor that bound is no assumption: the text fits a word (`Parts.index_add_width_lt`).
-/

set_option autoImplicit false

namespace TextCursor

/-- The part of the characters that a scan may still look at when it has taken `count` of them. -/
def window (max count : Nat) (cs : List Char) : List Char :=
  if max = 0 then cs else cs.take (max - count)

@[simp] theorem window_nil (max count : Nat) : window max count [] = [] := by
  simp [window]

theorem window_full {max count : Nat} (hmax : 0 < max) (hcount : count = max) (cs : List Char) :
    window max count cs = [] := by
  rw [window, if_neg (by omega), hcount]
  simp

theorem window_cons {max count : Nat} (h : ¬ (0 < max ∧ count = max)) (hcount : max = 0 ∨ count ≤ max) (ch : Char)
    (cs : List Char) : window max count (ch :: cs) = ch :: window max (count + 1) cs := by
  unfold window
  by_cases hmax : max = 0
  · rw [if_pos hmax, if_pos hmax]
  · obtain ⟨left, hleft⟩ : ∃ left, max - count = left + 1 := ⟨max - count - 1, by omega⟩
    have hnext : max - (count + 1) = left := by omega
    rw [if_neg hmax, if_neg hmax, hleft, hnext, List.take_succ_cons]

theorem window_isPrefix (max count : Nat) (cs : List Char) : window max count cs <+: cs := by
  unfold window
  split
  · exact List.prefix_rfl
  · exact List.take_prefix _ cs

namespace CharTest

/-- The run that a scan takes of the characters ahead: the longest leading part that the test accepts throughout, cut to
at most `max` characters, where 0 is no bound. -/
def taken (t : CharTest) (max : Nat) (ahead : List Char) : List Char :=
  (window max 0 ahead).takeWhile t.accepts

/-- The notes taken when the test is asked about one character after the other, up to the first that it rejects. -/
def notes (t : CharTest) (cs : List Char) : List Inquiry :=
  (cs.takeWhile t.accepts ++ (cs.dropWhile t.accepts).take 1).flatMap fun ch => (t.ask ch).asked

/-- It is the same whether the bound cuts the characters ahead or the run of those that pass. -/
theorem taken_eq (t : CharTest) (max : Nat) (ahead : List Char) :
    t.taken max ahead = if max = 0 then ahead.takeWhile t.accepts else (ahead.takeWhile t.accepts).take max := by
  unfold taken window
  split
  · rfl
  · rw [Nat.sub_zero, List.take_takeWhile]

theorem taken_isPrefix (t : CharTest) (max : Nat) (ahead : List Char) : t.taken max ahead <+: ahead :=
  (List.takeWhile_prefix _).trans (window_isPrefix max 0 ahead)

theorem accepts_of_mem_taken {t : CharTest} {max : Nat} {ahead : List Char} {ch : Char} (h : ch ∈ t.taken max ahead) :
    t.accepts ch = true :=
  List.all_eq_true.1 List.all_takeWhile ch h

theorem length_taken_le {t : CharTest} {max : Nat} {ahead : List Char} (hmax : 0 < max) :
    (t.taken max ahead).length ≤ max := by
  have hwindow : (window max 0 ahead).length ≤ max := by
    rw [window, if_neg (by omega)]
    exact List.length_take_le max ahead
  exact Nat.le_trans (List.takeWhile_sublist _).length_le hwindow

/-- A scan without a bound takes what passes, if what stands behind it does not. -/
theorem taken_append {t : CharTest} {run rest : List Char} (hrun : ∀ ch ∈ run, t.accepts ch = true)
    (hrest : ∀ ch ∈ rest.head?, t.accepts ch = false) : t.taken 0 (run ++ rest) = run := by
  have hstops : rest.takeWhile t.accepts = [] := by
    cases rest with
    | nil => rfl
    | cons ch rest =>
      have hreject : ¬ t.accepts ch = true := by simp [hrest ch rfl]
      exact List.takeWhile_cons_of_neg hreject
  rw [taken, window, if_pos rfl, List.takeWhile_append_of_pos hrun, hstops, List.append_nil]

@[simp] theorem notes_nil (t : CharTest) : t.notes [] = [] := rfl

theorem notes_cons_of_accepts {t : CharTest} {ch : Char} (h : t.accepts ch = true) (cs : List Char) :
    t.notes (ch :: cs) = (t.ask ch).asked ++ t.notes cs := by
  simp [notes, h]

theorem notes_cons_of_rejects {t : CharTest} {ch : Char} (h : t.accepts ch = false) (cs : List Char) :
    t.notes (ch :: cs) = (t.ask ch).asked := by
  simp [notes, h]

/-- The loop of a scan. The offset never falls behind the count, so the count fits a word as long as the offset does. -/
theorem scan_eq (t : CharTest) {max stop count : Nat} {cs : List Char} (hfits : stop + Utf8.width cs < Offset.wordCount)
    (hstop : count ≤ stop) (hmax : max = 0 ∨ count ≤ max) :
    t.scan max stop count cs =
      .ok ⟨stop + Utf8.width ((window max count cs).takeWhile t.accepts),
        count + ((window max count cs).takeWhile t.accepts).length, t.notes (window max count cs)⟩ := by
  induction cs generalizing stop count with
  | nil => simp [scan]
  | cons ch cs ih =>
    by_cases hfull : 0 < max ∧ count = max
    · -- the bound comes before the test, so the window is empty and nothing is noted
      rw [scan, if_pos hfull, window_full hfull.1 hfull.2]
      rfl
    · rw [scan, if_neg hfull, window_cons hfull hmax]
      cases haccept : t.accepts ch with
      | false =>
        simp [haccept, notes_cons_of_rejects haccept]
      | true =>
        have hpos := ch.utf8Size_pos
        simp only [Utf8.width_cons] at hfits
        have hstop' : Offset.add stop ch.utf8Size = .ok (stop + ch.utf8Size) := Offset.add_eq_ok (by omega)
        have hcount' : Offset.add count 1 = .ok (count + 1) := Offset.add_eq_ok (by omega)
        have htail := @ih (stop + ch.utf8Size) (count + 1) (by omega) (by omega) (by omega)
        simp [haccept, hstop', hcount', htail, bind, Except.bind, pure, Except.pure, notes_cons_of_accepts haccept,
          Nat.add_assoc, Nat.add_comm 1]

end CharTest

namespace Cursor

variable {c : Cursor} {before run ahead : List Char}

/-- What stands ahead of a cursor reaches to the end of the text. -/
theorem Parts.length_eq_index_add (h : c.Parts before run ahead) : c.length = c.index + Utf8.width ahead := by
  rw [h.length_eq, h.index_eq, Utf8.width_append]

/-- What stands ahead of a cursor ends at an offset that fits a word. -/
theorem Parts.index_add_width_lt (h : c.Parts before run ahead) :
    c.index + Utf8.width ahead < Offset.wordCount := by
  rw [← h.length_eq_index_add]
  exact c.text.length_lt_wordCount

/-- A scan takes the longest run that the test accepts, up to the bound, and asks about the character behind it unless
the bound or the end comes first. -/
theorem Parts.scan_eq (h : c.Parts before run ahead) (max : Nat) (t : CharTest) :
    c.scan max t =
      .ok ⟨c.index + Utf8.width (t.taken max ahead), (t.taken max ahead).length, t.notes (window max 0 ahead)⟩ := by
  have hloop : t.scan max c.index 0 ahead = _ := t.scan_eq h.index_add_width_lt (by omega) (by omega)
  rw [Cursor.scan, h.rest_eq]
  simpa [bind, Except.bind, CharTest.taken] using hloop

theorem advanceOver_of_end (set : List Char) (h : c.peek = .ok none) : advanceOver set c = .ok c := by
  rw [advanceOver]
  split <;> simp_all

theorem advanceOver_of_notMem {set : List Char} {ch : Char} (h : c.peek = .ok (some ch)) (hmem : ch ∉ set) :
    advanceOver set c = .ok c := by
  rw [advanceOver]
  split <;> simp_all

theorem advanceOver_of_mem {set : List Char} {ch : Char} {index : Nat} (h : c.peek = .ok (some ch)) (hmem : ch ∈ set)
    (hadd : Offset.add c.index ch.utf8Size = .ok index) :
    advanceOver set c = advanceOver set { c with index } := by
  rw [advanceOver]
  split
  next hpeek => cases hpeek.symm.trans h
  next hpeek => cases hpeek.symm.trans h
  next next hpeek =>
    obtain rfl : next = ch := by simpa using hpeek.symm.trans h
    rw [if_pos hmem]
    split
    next hfails => cases hfails.symm.trans hadd
    next index' hsum =>
      obtain rfl : index' = index := by simpa using hsum.symm.trans hadd
      rfl

/-- The loop over the characters of a set goes as far as they reach. -/
theorem Parts.advanceOver_eq (h : c.Parts before run ahead) (set : List Char) :
    advanceOver set c = .ok { c with index := c.index + Utf8.width (ahead.takeWhile (· ∈ set)) } := by
  induction ahead generalizing c run with
  | nil => exact advanceOver_of_end set h.peek_eq
  | cons ch ahead ih =>
    by_cases hmem : ch ∈ set
    · have hfits := h.index_add_width_lt
      simp only [Utf8.width_cons] at hfits
      have hadd : Offset.add c.index ch.utf8Size = .ok (c.index + ch.utf8Size) := Offset.add_eq_ok (by omega)
      have hnext : ({ c with index := c.index + ch.utf8Size } : Cursor).Parts before (run ++ [ch]) ahead :=
        ⟨by simp [h.chars_eq], h.start_eq, by simp [h.index_eq, Nat.add_assoc]⟩
      rw [advanceOver_of_mem h.peek_eq hmem hadd, ih hnext]
      simp [hmem, Nat.add_assoc]
    · rw [advanceOver_of_notMem h.peek_eq hmem]
      simp [hmem]

/-- Counting off reaches the end of the first `n` characters, or the end of all of them if there are fewer. -/
theorem countOff_eq {n stop : Nat} {cs : List Char} (hfits : stop + Utf8.width cs < Offset.wordCount) :
    countOff n stop cs =
      .ok (if cs.length < n then .error (stop + Utf8.width cs) else .ok (stop + Utf8.width (cs.take n))) := by
  induction n generalizing stop cs with
  | zero => simp [countOff]
  | succ n ih =>
    cases cs with
    | nil => simp [countOff]
    | cons ch cs =>
      simp only [Utf8.width_cons] at hfits
      have hadd : Offset.add stop ch.utf8Size = .ok (stop + ch.utf8Size) := Offset.add_eq_ok (by omega)
      have htail := @ih (stop + ch.utf8Size) cs (by omega)
      simp [countOff, hadd, htail, bind, Except.bind, Nat.add_assoc]

end Cursor

end TextCursor
