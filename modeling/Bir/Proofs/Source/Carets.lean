import Bir.Diagnostic.Snippet
import Bir.Proofs.Source.Progress
import Mathlib.Data.List.Forall2

/-!
# Carets — a snippet shows the token at a position

A scanner counts the lines and columns of a text, and a snippet cuts the text into lines again, by a
rule of its own that knows carriage returns.  This file defines:

* `Text.EndsLine` — what may stand behind a line;
* `Position.Precedes` — the order in which a reader meets positions;
* `Token.Marks` — a position is that of a character, and a snippet has its caret below it.

The positions of tokens and errors mark where they start: `Token.carets_land_on_tokens`.
-/

namespace Bir

open LineIndex (Lines exists_lines greatest)

namespace Text

/-! ## Lines of a text -/

/-- What may stand behind a line: the end of the text, or a line feed, be it after a carriage return. -/
inductive EndsLine : List Char → Prop
  | text : EndsLine []
  | feed (rest : List Char) : EndsLine ('\n' :: rest)
  | pair (rest : List Char) : EndsLine ('\r' :: '\n' :: rest)

variable {line : List Char}

/-- Characters other than line feeds belong to the current line. -/
theorem linesFrom_append (h : '\n' ∉ line) (reversed rest : List Char) :
    linesFrom reversed (line ++ rest) = linesFrom (line.reverse ++ reversed) rest := by
  induction line generalizing reversed with
  | nil => rfl
  | cons c line ih =>
      obtain ⟨hfeed, hline⟩ := List.ne_and_not_mem_of_not_mem_cons h
      simp [linesFrom, Ne.symm hfeed, ih hline]

theorem linesFrom_lineFeed (reversed rest : List Char) :
    linesFrom reversed ('\n' :: rest) = endLine reversed :: lines rest := rfl

/-- The lines behind whole lines are those of what stands there. -/
theorem drop_lines {front : List Char} (h : Lines front) (rest : List Char) :
    (lines (front ++ rest)).drop (front.count '\n') = lines rest := by
  obtain rfl | ⟨init, rfl⟩ := h
  · rfl
  -- Whatever the current line has begun with is dropped with that line.
  · have hlines : ∀ reversed, (linesFrom reversed (init ++ '\n' :: rest)).drop
        (init.count '\n' + 1) = lines rest := by
      induction init with
      | nil => exact fun reversed => rfl
      | cons c init ih =>
          intro reversed
          by_cases hfeed : c = '\n'
          · simpa [hfeed, linesFrom] using ih []
          · simpa [hfeed, linesFrom] using ih (c :: reversed)
    simpa [lines] using hlines []

/-- A line that is ended by a line feed has all characters but a carriage return before it. -/
theorem exists_endLine (line : List Char) (rest : List Char) :
    ∃ text after, line ++ '\n' :: rest = text ++ after ∧ EndsLine after ∧
      endLine line.reverse = text ∧ text <+: line := by
  obtain rfl | ⟨init, last, rfl⟩ := List.eq_nil_or_concat line
  · exact ⟨[], _, rfl, .feed rest, rfl, List.prefix_rfl⟩
  · by_cases hcarriage : last = '\r'
    · refine ⟨init, '\r' :: '\n' :: rest, ?_, .pair rest, ?_, ?_⟩ <;> simp [hcarriage, endLine]
    · refine ⟨init.concat last, _, rfl, .feed rest, ?_, List.prefix_rfl⟩
      simp [endLine, hcarriage]

/-- The first line of a text has all characters up to its end. -/
theorem exists_first {text : List Char} (nonempty : text ≠ []) :
    ∃ line after, text = line ++ after ∧ '\n' ∉ line ∧ EndsLine after ∧
      (lines text).head? = some line := by
  by_cases hfeed : '\n' ∈ text
  · obtain ⟨front, rest, rfl, hfront⟩ := List.eq_append_cons_of_mem hfeed
    obtain ⟨line, after, hsplit, hends, hline, hstarts⟩ := exists_endLine front rest
    refine ⟨line, after, hsplit, fun hmem => hfront (hstarts.subset hmem), hends, ?_⟩
    rw [lines, linesFrom_append hfront, List.append_nil, linesFrom_lineFeed, List.head?_cons, hline]
  · have hlines := linesFrom_append hfeed [] []
    rw [List.append_nil, List.append_nil] at hlines
    refine ⟨text, [], (List.append_nil text).symm, hfeed, .text, ?_⟩
    simp [lines, hlines, linesFrom, nonempty]

theorem EndsLine.false_of_append {front rest : List Char} {c : Char} (h : EndsLine (front ++ c :: rest))
    (hfront : '\n' ∉ front) (feed : c ≠ '\n') (carriage : c ≠ '\r') : False := by
  generalize htext : front ++ c :: rest = text at h
  cases h with
  | text => simp at htext
  | feed later =>
      cases front with
      | nil => exact feed (List.cons.inj htext).1
      | cons d front => exact hfront (by simp [(List.cons.inj htext).1])
  | pair later =>
      cases front with
      | nil => exact carriage (List.cons.inj htext).1
      | cons d front =>
          cases front with
          | nil => exact feed (List.cons.inj (List.cons.inj htext).2).1
          | cons e front => exact hfront (by simp [(List.cons.inj (List.cons.inj htext).2).1])

/-- A character that ends no line belongs to the line that it stands in. -/
theorem getElem?_of_endsLine {content after before rest : List Char} {c : Char}
    (split : before ++ c :: rest = content ++ after) (ends : EndsLine after) (hbefore : '\n' ∉ before)
    (feed : c ≠ '\n') (carriage : c ≠ '\r') : content[before.length]? = some c := by
  -- The line goes on over the character, or it would end before or at it.
  obtain ⟨more, rfl, hmore⟩ | ⟨front, rfl, hfront⟩ := List.append_eq_append_iff.1 split
  · cases more with
    | nil =>
        rw [List.nil_append] at hmore
        rw [← hmore] at ends
        exact (@EndsLine.false_of_append [] _ _ ends (by simp) feed carriage).elim
    | cons d more =>
        obtain ⟨rfl, -⟩ := List.cons.inj hmore
        simp
  · rw [hfront] at ends
    exact (ends.false_of_append (fun hmem => hbefore (List.mem_append_right _ hmem)) feed carriage).elim

end Text

/-! ## Positions in order -/

/-- A line before another one, or a column before another one in the same line. -/
def Position.Precedes (position other : Position) : Prop :=
  position.line < other.line ∨ position.line = other.line ∧ position.column < other.column

instance (position other : Position) : Decidable (position.Precedes other) :=
  inferInstanceAs (Decidable (_ ∨ _))

namespace Token

theorem rtakeWhile_append {text : List Char} (h : '\n' ∉ text) (before : List Char) :
    (before ++ text).rtakeWhile (· ≠ '\n') = before.rtakeWhile (· ≠ '\n') ++ text := by
  induction text using List.reverseRecOn with
  | nil => simp
  | append_singleton text c ih =>
      have hc : c ≠ '\n' := fun hfeed => h (by simp [hfeed])
      have htext : '\n' ∉ text := fun hmem => h (List.mem_append_left _ hmem)
      rw [← List.append_assoc, List.rtakeWhile_concat_pos _ _ _ (by simp [hc]), ih htext,
        List.append_assoc]

variable {text : List Char} {offset : Nat}

/-- In a text that is short enough no line or column is cut off. -/
theorem placeAt_of_short (short : text.length < greatest) (offset : Nat) :
    placeAt text offset = ⟨1 + (text.take offset).count '\n',
      1 + ((text.take offset).rtakeWhile (· ≠ '\n')).length⟩ := by
  have hlength : (text.take offset).length ≤ text.length := List.length_take_le' _ _
  have hlines : (text.take offset).count '\n' ≤ (text.take offset).length := List.count_le_length
  have hcolumns : ((text.take offset).rtakeWhile (· ≠ '\n')).length ≤ (text.take offset).length :=
    (List.rtakeWhile_suffix _ _).length_le
  have hplace := LineIndex.position_utf8Len (text.take offset) (text.drop offset)
  rw [List.take_append_drop] at hplace
  rw [placeAt, hplace, Nat.min_eq_left (by omega), Nat.min_eq_left (by omega), Nat.add_comm 1,
    Nat.add_comm 1]

/-- A later character has a later position. -/
theorem placeAt_precedes (short : text.length < greatest) {later : Nat} (lt : offset < later)
    (le : later ≤ text.length) : (placeAt text offset).Precedes (placeAt text later) := by
  have htake : text.take later = text.take offset ++ (text.drop offset).take (later - offset) := by
    rw [← List.take_add, Nat.add_sub_of_le lt.le]
  have hlength : ((text.drop offset).take (later - offset)).length = later - offset :=
    List.length_take_of_le (by rw [List.length_drop]; omega)
  simp only [Position.Precedes, placeAt_of_short short, htake, List.count_append]
  generalize (text.drop offset).take (later - offset) = between at hlength
  -- A line feed in between makes another line, and otherwise the column grows.
  by_cases hfeed : '\n' ∈ between
  · have hcount : 0 < between.count '\n' := List.count_pos_iff.2 hfeed
    exact .inl (by omega)
  · rw [rtakeWhile_append hfeed, List.count_eq_zero.2 hfeed, List.length_append]
    exact .inr ⟨rfl, by omega⟩

/-! ## Carets -/

/-- A position is that of a character, counted by the line feeds before it and the characters since
the last one, and a snippet shows the line in which the character stands and a caret below it. -/
structure Marks (source : String) (offset : Nat) (position : Position) : Prop where
  line : position.line = 1 + (source.toList.take offset).count '\n'
  column : position.column = 1 + ((source.toList.take offset).rtakeWhile (· ≠ '\n')).length
  snippet : ∃ front content after c, source.toList = front ++ content ++ after ∧ Lines front ∧
    '\n' ∉ content ∧ Text.EndsLine after ∧
    Diagnostic.snippet source position.line position.column = some (String.ofList content ++ "\n" ++
      (String.ofList (List.replicate (position.column - 1) ' ') ++ "^")) ∧
    source.toList[offset]? = some c ∧ content[position.column - 1]? = some c

variable {source : String} {c : Char} {rest : List Char}

theorem not_endsLine_of_not_isBlank (full : isBlank c = false) : c ≠ '\n' ∧ c ≠ '\r' := by
  constructor <;> rintro rfl <;> exact absurd full (by decide)

/-- The line of a character that is no blank, as a snippet cuts it. -/
theorem exists_sourceLine (ahead : source.toList.drop offset = c :: rest) (full : isBlank c = false) :
    ∃ front content after, source.toList = front ++ content ++ after ∧ Lines front ∧ '\n' ∉ content ∧
      Text.EndsLine after ∧
      Diagnostic.sourceLine? source (1 + (source.toList.take offset).count '\n') =
        some (String.ofList content) ∧
      content[((source.toList.take offset).rtakeWhile (· ≠ '\n')).length]? = some c := by
  obtain ⟨hfeed, hcarriage⟩ := not_endsLine_of_not_isBlank full
  obtain ⟨front, hbefore, hfront⟩ := exists_lines (source.toList.take offset)
  have hlast : '\n' ∉ (source.toList.take offset).rtakeWhile (· ≠ '\n') := fun hmem => by
    simpa using List.mem_rtakeWhile_imp hmem
  have hsource := List.take_append_drop offset source.toList
  generalize (source.toList.take offset).rtakeWhile (· ≠ '\n') = last at hbefore hlast ⊢
  rw [ahead, hbefore, List.append_assoc] at hsource
  obtain ⟨content, after, hsplit, hcontent, hends, hhead⟩ :=
    @Text.exists_first (last ++ c :: rest) (by simp)
  refine ⟨front, content, after, ?_, hfront, hcontent, hends, ?_, ?_⟩
  · rw [← hsource, hsplit, List.append_assoc]
  · have hcount : (source.toList.take offset).count '\n' = front.count '\n' := by
      rw [hbefore, List.count_append, List.count_eq_zero.2 hlast, Nat.add_zero]
    rw [hcount, Nat.add_comm, Diagnostic.sourceLine?, ← hsource, ← List.head?_drop,
      Text.drop_lines hfront, hhead, Option.map_some]
  · exact Text.getElem?_of_endsLine hsplit hends hlast hfeed hcarriage

theorem marks_placeAt (short : source.toList.length < greatest)
    (ahead : source.toList.drop offset = c :: rest) (full : isBlank c = false) :
    Marks source offset (placeAt source.toList offset) := by
  have hplace := placeAt_of_short short offset
  obtain ⟨front, content, after, hsource, hfront, hcontent, hends, hsnippet, hcolumn⟩ :=
    exists_sourceLine ahead full
  refine ⟨congrArg Position.line hplace, congrArg Position.column hplace,
    front, content, after, c, hsource, hfront, hcontent, hends, ?_, ?_, ?_⟩
  · rw [hplace, Diagnostic.snippet, hsnippet, Option.map_some, Diagnostic.caret]
  · rw [← List.head?_drop, ahead, List.head?_cons]
  · rw [hplace, Nat.add_sub_cancel_left, hcolumn]

theorem Scans.pairwise_precedes {text : List Char} {read : List (Kind × Nat)}
    (short : text.length < greatest) (scans : Scans text read text.length) :
    (read.map (placed text) ++ [(⟨.endOfFile, placeAt text text.length⟩ : Token)]).Pairwise
      fun token later => token.position.Precedes later.position := by
  obtain ⟨hordered, hbefore⟩ := scans.pairwise_lt
  rw [List.pairwise_append, List.pairwise_map]
  refine ⟨?_, List.pairwise_singleton _ _, ?_⟩
  · rw [List.pairwise_map] at hordered
    refine hordered.imp_of_mem ?_
    intro entry later _ hlater hlt
    exact placeAt_precedes short hlt (hbefore later hlater).le
  · intro token htoken last hlast
    obtain ⟨entry, hentry, rfl⟩ := List.mem_map.1 htoken
    obtain rfl := List.mem_singleton.1 hlast
    exact placeAt_precedes short (hbefore entry hentry) (Nat.le_refl _)

/-- The positions of tokens and errors mark the characters at which they start, and the positions of
tokens follow one another, that of the end of the file behind all others. -/
theorem carets_land_on_tokens {source : String} (short : source.length < 2 ^ 32 - 1) :
    match scan source with
    | .ok tokens => ∃ read init last, Scans source.toList read source.toList.length ∧
        tokens = init ++ [last] ∧ last.kind = .endOfFile ∧
        List.Forall₂ (fun entry token => token.kind = entry.1 ∧ Marks source entry.2 token.position)
          read init ∧
        tokens.Pairwise fun token later => token.position.Precedes later.position
    | .error error => ∃ read offset, Scans source.toList read offset ∧
        Refuses source.toList offset error.cause ∧ Marks source offset error.position := by
  have hshort : source.toList.length < greatest := by rwa [String.length_toList]
  obtain ⟨read, hscans⟩ | ⟨read, offset, cause, hscans, hrefuses⟩ := scan_cases source
  · rw [hscans.scan_eq_ok]
    refine ⟨read, _, _, hscans, rfl, rfl, ?_, hscans.pairwise_precedes hshort⟩
    rw [List.forall₂_map_right_iff, List.forall₂_same]
    intro entry hentry
    obtain ⟨c, rest, hahead, hfull⟩ := hscans.full_of_mem hentry
    exact ⟨rfl, marks_placeAt hshort hahead hfull⟩
  · rw [hscans.scan_eq_error hrefuses]
    obtain ⟨c, rest, hahead, hfull, -⟩ := id hrefuses
    exact ⟨read, offset, hscans, hrefuses, marks_placeAt hshort hahead hfull⟩

/-- Carriage returns and characters of several bytes, as an instance: the name `y` stands in the second
line behind two blanks. -/
theorem carets_land_on_tokens_of_wide_characters :
    let source := "\"é𝔵\" x\r\n  y\r\n"
    let tokens : List Token := [⟨.text "é𝔵", ⟨1, 1⟩⟩, ⟨.identifier "x" false, ⟨1, 6⟩⟩,
      ⟨.identifier "y" false, ⟨2, 3⟩⟩, ⟨.endOfFile, ⟨3, 1⟩⟩]
    source.length < 2 ^ 32 - 1 ∧ scan source = .ok tokens ∧
      ∃ read init last, Scans source.toList read source.toList.length ∧
        tokens = init ++ [last] ∧ last.kind = .endOfFile ∧
        List.Forall₂ (fun entry token => token.kind = entry.1 ∧ Marks source entry.2 token.position)
          read init ∧
        tokens.Pairwise fun token later => token.position.Precedes later.position := by
  intro source tokens
  have hshort : source.length < 2 ^ 32 - 1 := by decide
  have hscan : scan source = .ok tokens := by decide +kernel
  have hcarets := carets_land_on_tokens hshort
  rw [hscan] at hcarets
  exact ⟨hshort, hscan, hcarets⟩

end Token
end Bir
