import Bir.Proofs.Source.Offsets
import Bir.Token.Scan

/-!
# Progress — how far a scanner has come

A scanner passes over blanks and takes one token after the other.  This file defines:

* `Token.Lexeme.At` — what a text begins with, by its first characters;
* `Token.Lexeme.Takes` — a lexeme takes at least one character, and only such as are there;
* `Token.Scans` — a scanner has read certain kinds, each from a certain character on, and has come
  to a character;
* `Token.placeAt` — the position of a character.

What a scanner has come to decides what it gives: the tokens that it has read and the end of the file
once it has come to the end, `Token.Scans.scan_eq_ok`, and an error where no token can be read,
`Token.Scans.scan_eq_error`.  One of the two comes about: `Token.scan_cases`.
-/

namespace Bir

open String (utf8Len utf8Len_cons utf8Len_append)

namespace Literal

/-- A string reaches over characters that are there. -/
theorem prefix_reach (text : List Char) : reach text <+: text := by
  induction text using reach.induct with
  | case1 rest => simp [reach]
  | case2 c rest hfeed ih => simpa [reach, hfeed] using ih
  | case3 rest => simp [reach]
  | case4 c rest hpair hquote hends =>
      rw [reach.eq_2 c rest hpair, if_neg hquote, if_pos hends]
      exact List.nil_prefix
  | case5 c rest hpair hquote hends ih =>
      rw [reach.eq_2 c rest hpair, if_neg hquote, if_neg hends]
      exact List.cons_prefix_cons.2 ⟨rfl, ih⟩
  | case6 => exact List.nil_prefix

end Literal

namespace Token

/-! ## Numbers by their first characters -/

theorem isBlank_of_isNamePart {c : Char} (h : isNamePart c = true) : isBlank c = false := by
  refine Bool.eq_false_iff.2 fun hblank => ?_
  simp only [isBlank, Bool.or_eq_true, beq_iff_eq] at hblank
  obtain ((rfl | rfl) | rfl) | rfl := hblank <;> exact absurd h (by decide)

theorem isNameStart_of_isDigit {c : Char} (h : c.isDigit = true) : isNameStart c = false := by
  have hnine := (Char.isDigit_iff_toNat.1 h).2
  have hunderscore : c ≠ '_' := by
    rintro rfl
    exact absurd h (by decide)
  have hupper : c.isUpper = false := Bool.eq_false_iff.2 fun hupper => by
    have hletter : 'A'.val ≤ c.val := (of_decide_eq_true hupper).1
    exact absurd (hletter.trans hnine) (by decide)
  have hlower : c.isLower = false := Bool.eq_false_iff.2 fun hlower => by
    have hletter : 'a'.val ≤ c.val := of_decide_eq_true (Bool.and_eq_true_iff.1 hlower).1
    exact absurd (hletter.trans hnine) (by decide)
  change ((c.isUpper || c.isLower) || c == '_') = false
  simp [hupper, hlower, hunderscore]

/-- Digits are taken for a decimal number, with a `-` before them or without one. -/
theorem exists_lexemeAt_decimal (negative : Bool) {first : Char} (h : first.isDigit = true)
    (rest : List Char) : ∃ c later, writtenSign negative ++ first :: rest = c :: later ∧
      isBlank c = false ∧ lexemeAt c later = decimalAt negative (first :: rest) := by
  have hstart := isNameStart_of_isDigit h
  cases negative with
  | true =>
      refine ⟨'-', first :: rest, rfl, rfl, ?_⟩
      have hminus : minusAt (first :: rest) = decimalAt true (first :: rest) := by
        simp [minusAt, hstart, h]
      exact hminus
  | false =>
      refine ⟨first, rest, rfl, isBlank_of_isNamePart (by simp [isNamePart, h]), ?_⟩
      simp [lexemeAt, hstart, h]

/-- An `@` is taken for the beginning of a number with a radix, if there is one. -/
theorem exists_lexemeAt_radix (negative : Bool) (rest : List Char) :
    ∃ c later otherwise, writtenSign negative ++ '@' :: rest = c :: later ∧ isBlank c = false ∧
      lexemeAt c later = (radixNumberAt? negative rest).getD otherwise := by
  cases negative with
  | true => exact ⟨'-', '@' :: rest, _, rfl, rfl, rfl⟩
  | false => exact ⟨'@', rest, _, rfl, rfl, rfl⟩

/-! ## Kinds of lexemes -/

/-- What a text begins with, by its first characters. -/
inductive Lexeme.At : List Char → Lexeme → Prop
  | word {c : Char} {rest : List Char} (start : isNameStart c = true) :
      At (c :: rest) (wordAt (c :: rest))
  | negativeName {c : Char} {rest : List Char} (start : isNameStart c = true) :
      At ('-' :: c :: rest) (negativeNameAt (c :: rest))
  | decimal (negative : Bool) {c : Char} {rest : List Char} (digit : c.isDigit = true) :
      At (writtenSign negative ++ c :: rest) (decimalAt negative (c :: rest))
  | radix (negative : Bool) {letter : Char} {rest : List Char} {radix : Nat} {isDigit : Char → Bool}
      (known : radixOf? letter = some (radix, isDigit)) (digits : rest.takeWhile isDigit ≠ []) :
      At (writtenSign negative ++ '@' :: letter :: rest)
        (numberLexeme (Literal.radixNumber? negative radix (rest.takeWhile isDigit))
          (writtenSign negative ++ '@' :: letter :: rest.takeWhile isDigit))
  | string (rest : List Char) : At ('"' :: rest) (stringAt rest)
  | comment (rest : List Char) : At ('#' :: rest) (commentAt rest)
  | sign (c : Char) (rest : List Char) : At (c :: rest) (signAt c rest)

theorem at_radixNumber (negative : Bool) (text : List Char) {otherwise : Lexeme}
    (h : otherwise.At (writtenSign negative ++ '@' :: text)) :
    ((radixNumberAt? negative text).getD otherwise).At (writtenSign negative ++ '@' :: text) := by
  unfold radixNumberAt?
  split
  · exact h
  · split
    · exact h
    · rename_i hknown
      simp only
      split
      · exact h
      · rename_i hdigits
        exact .radix negative hknown (by simpa using hdigits)

theorem at_minus (rest : List Char) : (minusAt rest).At ('-' :: rest) := by
  unfold minusAt
  split
  · exact .sign _ _
  · split
    · rename_i hstart
      exact .negativeName hstart
    · split
      · rename_i hdigit
        exact .decimal true hdigit
      · split
        · rename_i later _ _ hat
          rw [hat]
          exact at_radixNumber true later (.sign _ _)
        · exact .sign _ _

theorem at_lexemeAt (c : Char) (rest : List Char) : (lexemeAt c rest).At (c :: rest) := by
  unfold lexemeAt
  split
  · rename_i hstart
    exact .word hstart
  · split
    · rename_i hdigit
      exact .decimal false hdigit
    · split
      · rename_i hminus
        rw [hminus]
        exact at_minus rest
      · split
        · rename_i hat
          rw [hat]
          exact at_radixNumber false rest (.sign _ _)
        · split
          · rename_i hquote
            rw [hquote]
            exact .string rest
          · split
            · rename_i hcomment
              rw [hcomment]
              exact .comment rest
            · exact .sign _ _

/-! ## Lexemes take characters -/

/-- If a lexeme is a token, it takes characters of the text, and at least one. -/
def Lexeme.Takes (lexeme : Lexeme) (text : List Char) : Prop :=
  ∀ kind length, lexeme = .ok (kind, length) → 1 ≤ length ∧ length ≤ text.length

/-- The longest sign is one of the signs that a text starts with. -/
theorem mem_of_longestSign? {text : List Char} {sign : Kind} (h : longestSign? text = some sign) :
    sign ∈ Kind.signs ∧ sign.symbol.toList <+: text := by
  -- The best sign so far is one of those that were looked at.
  have hbest : ∀ other ∈ longestSign? text, other ∈ Kind.signs ∧ other.symbol.toList <+: text := by
    refine List.foldlRecOn
      (motive := fun best => ∀ other ∈ best, other ∈ Kind.signs ∧ other.symbol.toList <+: text) _ _
      (by simp) ?_
    intro best ih next hnext other hmem
    obtain ⟨hsign, hstarts⟩ := List.mem_filter.1 hnext
    have hnext' : next ∈ Kind.signs ∧ next.symbol.toList <+: text :=
      ⟨hsign, List.isPrefixOf_iff_prefix.1 hstarts⟩
    cases best with
    | none =>
        cases hmem
        exact hnext'
    | some best =>
        simp only at hmem
        split at hmem
        · cases hmem
          exact hnext'
        · exact ih other hmem
  exact hbest sign h

theorem length_symbol_pos : ∀ sign ∈ Kind.signs, 1 ≤ sign.symbol.length := by decide

namespace Lexeme

variable {text : List Char}

theorem takes_error (cause : LexicalError.Cause) : Lexeme.Takes (.error cause) text := by
  intro kind length h
  cases h

theorem takes_ok {kind : Kind} {length : Nat} (positive : 1 ≤ length) (le : length ≤ text.length) :
    Lexeme.Takes (.ok (kind, length)) text := by
  intro kind' length' heq
  cases heq
  exact ⟨positive, le⟩

theorem takes_sign (c : Char) (rest : List Char) : (signAt c rest).Takes (c :: rest) := by
  unfold signAt
  split
  · rename_i sign hsign
    obtain ⟨hmem, hstarts⟩ := mem_of_longestSign? hsign
    refine takes_ok (length_symbol_pos sign hmem) ?_
    rw [← String.length_toList]
    exact hstarts.length_le
  · exact takes_error _

/-- The characters of a class at the start of a text are at least the first one. -/
theorem one_le_length_takeWhile {p : Char → Bool} {c : Char} (h : p c = true) (rest : List Char) :
    1 ≤ ((c :: rest).takeWhile p).length := by
  simp [h]

theorem length_takeWhile_le (p : Char → Bool) (text : List Char) :
    (text.takeWhile p).length ≤ text.length :=
  List.IsPrefix.length_le <| List.takeWhile_prefix p

theorem isNamePart_of_isNameStart {c : Char} (h : isNameStart c = true) : isNamePart c = true := by
  simp [isNamePart, h]

theorem takes_word {c : Char} {rest : List Char} (h : isNameStart c = true) :
    (wordAt (c :: rest)).Takes (c :: rest) := by
  have hpositive := one_le_length_takeWhile (isNamePart_of_isNameStart h) rest
  have hle := length_takeWhile_le isNamePart (c :: rest)
  unfold wordAt
  simp only
  split <;> exact takes_ok (by simpa using hpositive) (by simpa using hle)

theorem takes_number {literal : List Char} (value : Option Int64) (positive : 1 ≤ literal.length)
    (le : literal.length ≤ text.length) : (numberLexeme value literal).Takes text := by
  unfold numberLexeme
  split
  · exact takes_ok positive le
  · exact takes_error _

theorem length_fraction_le (text : List Char) : (fraction text).length ≤ text.length := by
  unfold fraction
  split
  · rename_i rest
    have hle := length_takeWhile_le Char.isDigit rest
    simp only
    split <;> simp [hle]
  · exact Nat.zero_le _

theorem takes_decimal (negative : Bool) {c : Char} {rest : List Char} (h : c.isDigit = true) :
    (decimalAt negative (c :: rest)).Takes (writtenSign negative ++ c :: rest) := by
  have hpositive := one_le_length_takeWhile h rest
  have hfraction := length_fraction_le ((c :: rest).dropWhile Char.isDigit)
  have hwhole := congrArg List.length
    (List.takeWhile_append_dropWhile (p := Char.isDigit) (l := c :: rest))
  rw [List.length_append] at hwhole
  refine takes_number _ ?_ ?_ <;> simp only [List.length_append] <;> omega

theorem takes_string (rest : List Char) : (stringAt rest).Takes ('"' :: rest) := by
  have hle := (Literal.prefix_reach rest).length_le
  unfold stringAt
  simp only
  split
  · exact takes_ok (Nat.le_add_left 1 _) (by simpa using hle)
  · exact takes_error _

theorem At.takes {lexeme : Lexeme} (h : lexeme.At text) : lexeme.Takes text := by
  cases h with
  | word start => exact takes_word start
  | @negativeName c rest start =>
      have hle := length_takeWhile_le isNamePart (c :: rest)
      exact takes_ok (Nat.le_add_left 1 _) (by simpa using hle)
  | decimal negative digit => exact takes_decimal negative digit
  | @radix negative letter rest _ isDigit known digits =>
      have hle := length_takeWhile_le isDigit rest
      refine takes_number _ ?_ ?_ <;> simp only [List.length_append, List.length_cons] <;> omega
  | string rest => exact takes_string rest
  | comment rest =>
      have hle := length_takeWhile_le (· ≠ '\n') rest
      exact takes_ok (Nat.le_add_left 1 _) (by simpa using hle)
  | sign c rest => exact takes_sign c rest

end Lexeme

theorem lexemeAt_takes (c : Char) (rest : List Char) : (lexemeAt c rest).Takes (c :: rest) :=
  (at_lexemeAt c rest).takes

/-! ## Scanners that go on -/

/-- Scanning a text, a scanner has read certain kinds, each from a certain character on, and has come
to a character.  Characters are counted from zero. -/
inductive Scans (text : List Char) : List (Kind × Nat) → Nat → Prop
  | start : Scans text [] 0
  | blank {read : List (Kind × Nat)} {offset : Nat} {c : Char} {rest : List Char}
      (scans : Scans text read offset) (ahead : text.drop offset = c :: rest)
      (blank : isBlank c = true) : Scans text read (offset + 1)
  | token {read : List (Kind × Nat)} {offset : Nat} {c : Char} {rest : List Char} {kind : Kind}
      {length : Nat} (scans : Scans text read offset) (ahead : text.drop offset = c :: rest)
      (full : isBlank c = false) (lexeme : lexemeAt c rest = .ok (kind, length)) :
      Scans text (read ++ [(kind, offset)]) (offset + length)

/-- At a character that is no blank no token can be read. -/
def Refuses (text : List Char) (offset : Nat) (cause : LexicalError.Cause) : Prop :=
  ∃ c rest, text.drop offset = c :: rest ∧ isBlank c = false ∧ lexemeAt c rest = .error cause

/-- The position of a character of a text. -/
def placeAt (text : List Char) (offset : Nat) : Position :=
  (LineIndex.ofText text).position text (utf8Len (text.take offset))

/-- A kind that was read from a character on, as a token. -/
def placed (text : List Char) (read : Kind × Nat) : Token := ⟨read.1, placeAt text read.2⟩

/-- The characters that belong to the last token are passed over. -/
theorem scanFrom_append {place : Nat → Position} {read : List Token} {offset : Nat}
    (taken rest : List Char) :
    scanFrom place read offset taken.length (taken ++ rest) =
      scanFrom place read (offset + utf8Len taken) 0 rest := by
  induction taken generalizing offset with
  | nil => rfl
  | cons c taken ih =>
      rw [utf8Len_cons, Nat.add_comm (utf8Len taken), ← Nat.add_assoc]
      exact ih

namespace Scans

variable {text : List Char} {read : List (Kind × Nat)} {offset : Nat} {c : Char} {rest : List Char}

theorem lt_length_of_ahead (ahead : text.drop offset = c :: rest) : offset < text.length := by
  rw [← List.drop_eq_nil_iff.not.trans Nat.not_le, ahead]
  exact List.cons_ne_nil c rest

/-- Behind what is taken of the text ahead, the text goes on. -/
theorem drop_add (ahead : text.drop offset = rest) (length : Nat) :
    text.drop (offset + length) = rest.drop length := by
  rw [← ahead, List.drop_drop]

theorem utf8Len_take_add (ahead : text.drop offset = rest) (length : Nat) :
    utf8Len (text.take (offset + length)) =
      utf8Len (text.take offset) + utf8Len (rest.take length) := by
  rw [List.take_add, ahead, utf8Len_append]

/-- A scan of a text goes on from where a scanner has come to. -/
theorem scan_eq {source : String} (scans : Scans source.toList read offset) :
    scan source = scanFrom ((LineIndex.ofText source.toList).position source.toList)
      (read.map (placed source.toList)).reverse (utf8Len (source.toList.take offset)) 0
      (source.toList.drop offset) := by
  induction scans with
  | start => rfl
  | @blank read offset c rest scans ahead blank ih =>
      rw [ih, ahead, drop_add ahead, utf8Len_take_add ahead]
      simp [scanFrom, blank]
  | @token read offset c rest kind length scans ahead full lexeme ih =>
      obtain ⟨hpositive, hlength⟩ := lexemeAt_takes c rest kind length lexeme
      obtain ⟨later, rfl⟩ := Nat.exists_eq_add_one_of_ne_zero (Nat.one_le_iff_ne_zero.1 hpositive)
      have htaken : (rest.take later).length = later :=
        List.length_take_of_le (Nat.le_of_succ_le_succ hlength)
      -- The token is its first character and those that are passed over.
      have hskip := @scanFrom_append ((LineIndex.ofText source.toList).position source.toList)
        ((read ++ [(kind, offset)]).map (placed source.toList)).reverse
        (utf8Len (source.toList.take offset) + c.utf8Size) (rest.take later) (rest.drop later)
      rw [htaken, List.take_append_drop] at hskip
      rw [ih, ahead, drop_add ahead, utf8Len_take_add ahead, List.drop_succ_cons,
        List.take_succ_cons, utf8Len_cons, Nat.add_comm (utf8Len _) c.utf8Size, ← Nat.add_assoc,
        ← hskip]
      simp [scanFrom, full, lexeme, placed, placeAt]

/-- A scanner does not pass over the end of the text. -/
theorem le_length (scans : Scans text read offset) : offset ≤ text.length := by
  cases scans with
  | start => exact Nat.zero_le _
  | blank scans ahead blank => exact lt_length_of_ahead ahead
  | @token read offset c rest kind length scans ahead full lexeme =>
      have hlength := (lexemeAt_takes c rest kind length lexeme).2
      have hlt := lt_length_of_ahead ahead
      rw [← ahead, List.length_drop] at hlength
      omega

/-- Tokens start one behind the other. -/
theorem pairwise_lt (scans : Scans text read offset) :
    (read.map Prod.snd).Pairwise (· < ·) ∧ ∀ entry ∈ read, entry.2 < offset := by
  induction scans with
  | start => simp
  | blank scans ahead blank ih => exact ⟨ih.1, fun entry hentry => Nat.lt_succ_of_lt (ih.2 entry hentry)⟩
  | @token read offset c rest kind length scans ahead full lexeme ih =>
      have hpositive := (lexemeAt_takes c rest kind length lexeme).1
      refine ⟨?_, ?_⟩
      · rw [List.map_append, List.pairwise_append]
        refine ⟨ih.1, List.pairwise_singleton _ _, ?_⟩
        intro earlier hearlier later hlater
        obtain ⟨entry, hentry, rfl⟩ := List.mem_map.1 hearlier
        obtain rfl : later = offset := by simpa using hlater
        exact ih.2 entry hentry
      · intro entry hentry
        rcases List.mem_append.1 hentry with hentry | hentry
        · exact (ih.2 entry hentry).trans_le (Nat.le_add_right _ _)
        · obtain rfl := List.mem_singleton.1 hentry
          exact Nat.lt_add_of_pos_right hpositive

/-- A kind that was read was read from a character that is no blank. -/
theorem full_of_mem (scans : Scans text read offset) {entry : Kind × Nat} (mem : entry ∈ read) :
    ∃ c rest, text.drop entry.2 = c :: rest ∧ isBlank c = false := by
  induction scans with
  | start => cases mem
  | blank scans ahead blank ih => exact ih mem
  | @token read offset c rest kind length scans ahead full lexeme ih =>
      rcases List.mem_append.1 mem with mem | mem
      · exact ih mem
      · obtain rfl := List.mem_singleton.1 mem
        exact ⟨c, rest, ahead, full⟩

/-- A scanner that has come to the end has read all tokens. -/
theorem scan_eq_ok {source : String} (scans : Scans source.toList read source.toList.length) :
    scan source = .ok (read.map (placed source.toList) ++
      [⟨.endOfFile, placeAt source.toList source.toList.length⟩]) := by
  rw [scans.scan_eq, List.drop_length, scanFrom, List.reverse_cons, List.reverse_reverse, placeAt]

/-- A scanner stops where no token can be read. -/
theorem scan_eq_error {source : String} {cause : LexicalError.Cause}
    (scans : Scans source.toList read offset) (refuses : Refuses source.toList offset cause) :
    scan source = .error ⟨cause, placeAt source.toList offset⟩ := by
  obtain ⟨c, rest, ahead, full, lexeme⟩ := refuses
  simp [scans.scan_eq, ahead, scanFrom, full, lexeme, placeAt]

/-- A scanner goes on to the end or to a character where no token can be read. -/
theorem goes_on (scans : Scans text read offset) :
    (∃ all, read <+: all ∧ Scans text all text.length) ∨
      ∃ more stop cause, read <+: more ∧ Scans text more stop ∧ Refuses text stop cause := by
  -- Each blank and each token leaves less of the text ahead.
  generalize hleft : text.length - offset = left
  induction left using Nat.strongRecOn generalizing read offset with
  | ind left ih =>
      cases hahead : text.drop offset with
      | nil =>
          obtain rfl : offset = text.length :=
            Nat.le_antisymm scans.le_length (List.drop_eq_nil_iff.1 hahead)
          exact .inl ⟨read, List.prefix_rfl, scans⟩
      | cons c rest =>
          have hlt := lt_length_of_ahead hahead
          cases hblank : isBlank c with
          | true => exact ih _ (by omega) (scans.blank hahead hblank) rfl
          | false =>
              cases hlexeme : lexemeAt c rest with
              | error cause =>
                  exact .inr ⟨read, offset, cause, List.prefix_rfl, scans,
                    c, rest, hahead, hblank, hlexeme⟩
              | ok lexeme =>
                  obtain ⟨kind, length⟩ := lexeme
                  have hpositive := (lexemeAt_takes c rest kind length hlexeme).1
                  have hread : read <+: read ++ [(kind, offset)] := List.prefix_append _ _
                  refine (ih _ ?_ (scans.token hahead hblank hlexeme) rfl).imp ?_ ?_
                  · omega
                  · rintro ⟨all, hall, hscans⟩
                    exact ⟨all, hread.trans hall, hscans⟩
                  · rintro ⟨more, stop, cause, hmore, hscans⟩
                    exact ⟨more, stop, cause, hread.trans hmore, hscans⟩

/-- What a scanner has read is what the tokens of the text begin with. -/
theorem placed_prefix {source : String} {tokens : List Token}
    (scans : Scans source.toList read offset) (h : scan source = .ok tokens) :
    read.map (placed source.toList) <+: tokens := by
  obtain ⟨all, hall, hscans⟩ | ⟨more, stop, cause, -, hscans, hrefuses⟩ := scans.goes_on
  · obtain rfl := Except.ok.inj (h.symm.trans hscans.scan_eq_ok)
    exact (hall.map _).trans (List.prefix_append _ _)
  · cases h.symm.trans (hscans.scan_eq_error hrefuses)

end Scans

/-- A scan of a text comes to its end, or to a character where no token can be read. -/
theorem scan_cases (source : String) :
    (∃ read, Scans source.toList read source.toList.length) ∨
      ∃ read offset cause, Scans source.toList read offset ∧ Refuses source.toList offset cause := by
  obtain ⟨all, -, hscans⟩ | ⟨more, stop, cause, -, hscans⟩ := (@Scans.start source.toList).goes_on
  · exact .inl ⟨all, hscans⟩
  · exact .inr ⟨more, stop, cause, hscans⟩

end Token
end Bir
