import Bir.Text.LineIndex
import Mathlib.Data.List.DropRight
import Mathlib.Data.String.Basic

/-!
# Offsets — a line index counts lines and columns

A line index finds the line of a byte offset among the offsets at which lines begin, and counts the
characters from there on.  This file shows that the position of a character, found by its byte
offset, is what counting the characters before it gives: `LineIndex.position_utf8Len`.
-/

namespace Bir

open String (utf8Len utf8Len_cons utf8Len_append)

namespace Text

/-! ## Byte offsets -/

theorem takeBytes?_utf8Len (text rest : List Char) :
    takeBytes? (utf8Len text) (text ++ rest) = some text := by
  induction text with
  | nil => simp [takeBytes?]
  | cons c text ih =>
      obtain ⟨count, hcount⟩ : ∃ count, utf8Len text + c.utf8Size = count + 1 :=
        Nat.exists_eq_add_one_of_ne_zero (Nat.add_pos_right _ c.utf8Size_pos).ne'
      rw [utf8Len_cons, hcount, List.cons_append, takeBytes?, ← hcount,
        if_pos (Nat.le_add_left _ _), Nat.add_sub_cancel, ih, Option.map_some]

theorem dropBytes?_utf8Len (text rest : List Char) :
    dropBytes? (utf8Len text) (text ++ rest) = some rest := by
  induction text with
  | nil => simp [dropBytes?]
  | cons c text ih =>
      obtain ⟨count, hcount⟩ : ∃ count, utf8Len text + c.utf8Size = count + 1 :=
        Nat.exists_eq_add_one_of_ne_zero (Nat.add_pos_right _ c.utf8Size_pos).ne'
      rw [utf8Len_cons, hcount, List.cons_append, dropBytes?, ← hcount,
        if_pos (Nat.le_add_left _ _), Nat.add_sub_cancel, ih]

/-- The characters between the byte offsets of two characters. -/
theorem between?_utf8Len (before text rest : List Char) :
    between? (before ++ (text ++ rest)) (utf8Len before) (utf8Len (before ++ text)) =
      some text := by
  have hordered : ¬ utf8Len (before ++ text) < utf8Len before := by simp
  rw [between?, if_neg hordered, dropBytes?_utf8Len, Option.bind_some, utf8Len_append,
    Nat.add_sub_cancel_left, takeBytes?_utf8Len]

end Text

namespace LineIndex

open Text

/-! ## Where lines begin -/

theorem startsFrom_append (offset : Nat) (text rest : List Char) :
    startsFrom offset (text ++ rest) =
      startsFrom offset text ++ startsFrom (offset + utf8Len text) rest := by
  induction text generalizing offset with
  | nil => rfl
  | cons c text ih =>
      simp only [List.cons_append, startsFrom, ih, utf8Len_cons, Nat.add_assoc,
        Nat.add_comm c.utf8Size]
      split <;> rfl

theorem length_startsFrom (offset : Nat) (text : List Char) :
    (startsFrom offset text).length = text.count '\n' := by
  induction text generalizing offset with
  | nil => rfl
  | cons c text ih =>
      simp only [startsFrom, List.count_cons, beq_iff_eq]
      split <;> simp [ih]

/-- Lines begin behind the characters that end the lines before. -/
theorem bounds_of_mem_startsFrom {offset start : Nat} {text : List Char}
    (h : start ∈ startsFrom offset text) : offset < start ∧ start ≤ offset + utf8Len text := by
  induction text generalizing offset with
  | nil => cases h
  | cons c text ih =>
      have hpos := c.utf8Size_pos
      have hlater : start ∈ startsFrom (offset + c.utf8Size) text →
          offset < start ∧ start ≤ offset + utf8Len (c :: text) := by
        intro hmem
        have := ih hmem
        rw [utf8Len_cons]
        omega
      simp only [startsFrom] at h
      split at h
      · rcases List.mem_cons.1 h with rfl | h
        · rw [utf8Len_cons]
          omega
        · exact hlater h
      · exact hlater h

theorem startsFrom_eq_nil {offset : Nat} {text : List Char} (h : '\n' ∉ text) :
    startsFrom offset text = [] := by
  rw [← List.length_eq_zero_iff, length_startsFrom, List.count_eq_zero]
  exact h

/-- Whole lines. -/
def Lines (text : List Char) : Prop := text = [] ∨ ∃ init, text = init ++ ['\n']

/-- A text is whole lines and the characters since the last line feed. -/
theorem exists_lines (text : List Char) :
    ∃ front, text = front ++ text.rtakeWhile (· ≠ '\n') ∧ Lines front := by
  induction text using List.reverseRecOn with
  | nil => exact ⟨[], rfl, .inl rfl⟩
  | append_singleton init c ih =>
      by_cases hfeed : c = '\n'
      · refine ⟨init ++ ['\n'], ?_, .inr ⟨init, rfl⟩⟩
        rw [List.rtakeWhile_concat_neg _ _ _ (by simp [hfeed]), hfeed, List.append_nil]
      · obtain ⟨front, hinit, hfront⟩ := ih
        refine ⟨front, ?_, hfront⟩
        rw [List.rtakeWhile_concat_pos _ _ _ (by simp [hfeed]), ← List.append_assoc, ← hinit]

/-- The line behind whole lines is the last one that begins there, and the others begin before it. -/
theorem Lines.starts {front : List Char} (h : Lines front) : ∃ earlier : List Nat,
    0 :: startsFrom 0 front = earlier ++ [utf8Len front] ∧ earlier.length = front.count '\n' ∧
      ∀ start ∈ earlier, start < utf8Len front := by
  obtain rfl | ⟨init, rfl⟩ := h
  · exact ⟨[], rfl, rfl, by simp⟩
  · have hfeed : utf8Len ['\n'] = 1 := rfl
    refine ⟨0 :: startsFrom 0 init, ?_, ?_, ?_⟩
    · simp [startsFrom_append, startsFrom]
    · simp [length_startsFrom]
    · intro start hstart
      rw [utf8Len_append, hfeed]
      rcases List.mem_cons.1 hstart with rfl | hstart
      · omega
      · have := (bounds_of_mem_startsFrom hstart).2
        omega

/-! ## Search -/

/-- The line of an offset is the last one that begins at it or before it. -/
theorem line_append {before after : List Nat} {start offset : Nat}
    (earlier : ∀ other ∈ before, other < start) (le : start ≤ offset)
    (later : ∀ other ∈ after, offset < other) :
    line ⟨before ++ start :: after⟩ offset = before.length := by
  have htake : (before ++ start :: after).takeWhile (· < offset) =
      before ++ (start :: after).takeWhile (· < offset) :=
    List.takeWhile_append_of_pos fun other hother => decide_eq_true ((earlier other hother).trans_le le)
  simp only [line, search, htake]
  -- Either the search ends behind the start and steps back, or it finds the start itself.
  by_cases hlt : start < offset
  · have hafter : after.takeWhile (· < offset) = [] := by
      cases after with
      | nil => rfl
      | cons other after =>
          have hother := later other List.mem_cons_self
          simp [Nat.not_lt.2 hother.le]
    have hnext : (before ++ start :: after)[(before ++ [start]).length]? ≠ some offset := by
      rw [List.append_cons, List.getElem?_append_right (Nat.le_refl _), Nat.sub_self]
      intro hfound
      exact absurd (later offset (List.mem_of_getElem? hfound)) (Nat.lt_irrefl offset)
    have hplace : before ++ (start :: after).takeWhile (· < offset) = before ++ [start] := by
      simp [hlt, hafter]
    rw [hplace, if_neg hnext]
    simp
  · obtain rfl : start = offset := Nat.le_antisymm le (Nat.le_of_not_lt hlt)
    simp

/-! ## Positions -/

/-- The position of a character is found by counting the line feeds before it and the characters since
the last one. -/
theorem position_utf8Len (before rest : List Char) :
    (ofText (before ++ rest)).position (before ++ rest) (utf8Len before) =
      ⟨min (before.count '\n' + 1) greatest,
        min ((before.rtakeWhile (· ≠ '\n')).length + 1) greatest⟩ := by
  obtain ⟨front, hbefore, hfront⟩ := exists_lines before
  have hlast : '\n' ∉ before.rtakeWhile (· ≠ '\n') := fun hmem => by
    simpa using List.mem_rtakeWhile_imp hmem
  generalize before.rtakeWhile (· ≠ '\n') = last at hbefore hlast ⊢
  have hlater : ∀ start ∈ startsFrom (utf8Len before) rest, utf8Len before < start :=
    fun start hstart => (bounds_of_mem_startsFrom hstart).1
  -- The lines begin at the earlier starts, at the end of the front, and behind the offset.
  obtain ⟨earlier, hearlier, hcount, hless⟩ := hfront.starts
  have hlines : before.count '\n' = earlier.length := by
    rw [hbefore, List.count_append, List.count_eq_zero.2 hlast, Nat.add_zero, hcount]
  have hstarts : (ofText (before ++ rest)).starts =
      earlier ++ utf8Len front :: startsFrom (utf8Len before) rest := by
    have hstarts' : startsFrom 0 before = startsFrom 0 front := by
      rw [hbefore, startsFrom_append, startsFrom_eq_nil hlast, List.append_nil]
    rw [ofText, startsFrom_append, Nat.zero_add, ← List.cons_append, hstarts', hearlier,
      List.append_assoc, List.singleton_append]
  have hline : (ofText (before ++ rest)).line (utf8Len before) = earlier.length := by
    refine (congrArg (line ⟨·⟩ _) hstarts).trans (line_append hless ?_ hlater)
    rw [hbefore, utf8Len_append]
    exact Nat.le_add_right _ _
  have hcolumn : between? (before ++ rest) (utf8Len front) (utf8Len before) = some last := by
    rw [hbefore, List.append_assoc, between?_utf8Len]
  have hstart : (ofText (before ++ rest)).starts.getD earlier.length 0 = utf8Len front := by
    rw [hstarts, List.getD_eq_getElem?_getD, List.getElem?_append_right (Nat.le_refl _)]
    simp
  simp only [position, hline, hstart, hcolumn, Option.map_some, Option.getD_some, hlines]

end LineIndex

end Bir
