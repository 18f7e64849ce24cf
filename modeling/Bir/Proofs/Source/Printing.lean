import Bir.Proofs.Source.Literals
import Bir.Proofs.Source.Progress
import Mathlib.Data.List.TakeWhile

/-!
# Printing — tokens as lines of a text

Each token is written on a line of its own, as a source spells it.  No token reaches over the end of
a line, so what a scanner takes for a line is what it takes for the spelling alone, and there the
longest token is the one that was spelled.  This file defines:

* `Token.isName` — the names that can be spelled;
* `Token.Kind.Printable` — the kinds that have a spelling of their own;
* `Token.Kind.spelling` and `Token.Kind.print` — a kind and a list of kinds as text.

`Token.scan_print` is the result.
-/

namespace Bir
namespace Token

/-! ## Lines -/

/-- A line feed ends whatever the characters before it are taken for. -/
theorem takeWhile_append_lineFeed {p : Char → Bool} (h : p '\n' = false) (line rest : List Char) :
    (line ++ '\n' :: rest).takeWhile p = line.takeWhile p := by
  induction line with
  | nil => simp [h]
  | cons c line ih => simp [List.takeWhile_cons, ih]

theorem dropWhile_append_lineFeed {p : Char → Bool} (h : p '\n' = false) (line rest : List Char) :
    (line ++ '\n' :: rest).dropWhile p = line.dropWhile p ++ '\n' :: rest := by
  induction line with
  | nil => simp [h]
  | cons c line ih =>
      simp only [List.cons_append, List.dropWhile_cons, ih]
      split <;> rfl

theorem isPrefixOf_append_lineFeed {sign : List Char} (h : '\n' ∉ sign) (line rest : List Char) :
    sign.isPrefixOf (line ++ '\n' :: rest) = sign.isPrefixOf line := by
  induction sign generalizing line with
  | nil => simp
  | cons c sign ih =>
      obtain ⟨hne, hrest⟩ := List.ne_and_not_mem_of_not_mem_cons h
      cases line with
      | nil => simp [List.isPrefixOf, Ne.symm hne]
      | cons d line => simp [List.isPrefixOf, ih hrest]

theorem lineFeed_not_mem_signs : ∀ sign ∈ Kind.signs, '\n' ∉ sign.symbol.toList := by decide

theorem longestSign?_append_lineFeed (line rest : List Char) :
    longestSign? (line ++ '\n' :: rest) = longestSign? line := by
  unfold longestSign?
  congr 1
  refine List.filter_congr fun sign hsign => ?_
  exact isPrefixOf_append_lineFeed (lineFeed_not_mem_signs sign hsign) line rest

theorem signAt_append_lineFeed (c : Char) (line rest : List Char) :
    signAt c (line ++ '\n' :: rest) = signAt c line := by
  rw [signAt, ← List.cons_append, longestSign?_append_lineFeed, signAt]

theorem wordAt_append_lineFeed (line rest : List Char) :
    wordAt (line ++ '\n' :: rest) = wordAt line := by
  rw [wordAt, takeWhile_append_lineFeed (by decide), wordAt]

theorem negativeNameAt_append_lineFeed (line rest : List Char) :
    negativeNameAt (line ++ '\n' :: rest) = negativeNameAt line := by
  rw [negativeNameAt, takeWhile_append_lineFeed (by decide), negativeNameAt]

theorem fraction_append_lineFeed (line rest : List Char) :
    fraction (line ++ '\n' :: rest) = fraction line := by
  cases line with
  | nil => rfl
  | cons c line =>
      by_cases hpoint : c = '.'
      · subst hpoint
        simp only [List.cons_append, fraction, takeWhile_append_lineFeed (p := Char.isDigit) rfl]
      · simp [fraction, hpoint]

theorem decimalAt_append_lineFeed (negative : Bool) (line rest : List Char) :
    decimalAt negative (line ++ '\n' :: rest) = decimalAt negative line := by
  simp only [decimalAt, takeWhile_append_lineFeed (p := Char.isDigit) rfl,
    dropWhile_append_lineFeed (p := Char.isDigit) rfl, fraction_append_lineFeed]

theorem lineFeed_of_radixOf? {c : Char} {radix : Nat} {isDigit : Char → Bool}
    (h : radixOf? c = some (radix, isDigit)) : isDigit '\n' = false := by
  unfold radixOf? at h
  split at h <;> cases h <;> decide

theorem radixNumberAt?_append_lineFeed (negative : Bool) (line rest : List Char) :
    radixNumberAt? negative (line ++ '\n' :: rest) = radixNumberAt? negative line := by
  cases line with
  | nil => rfl
  | cons letter line =>
      simp only [List.cons_append, radixNumberAt?]
      split
      · rfl
      · rename_i radix isDigit hradix
        rw [takeWhile_append_lineFeed (lineFeed_of_radixOf? hradix)]

theorem reach_append_lineFeed (line rest : List Char) :
    Literal.reach (line ++ '\n' :: rest) = Literal.reach line := by
  obtain ⟨pieces, others, rfl, hfits, ⟨later, rfl⟩ | hbreaks⟩ := Literal.exists_pieces line
  · simp [Literal.reach_spell hfits, Literal.reach]
  · rw [List.append_assoc, Literal.reach_spell hfits, Literal.reach_spell hfits, hbreaks.reach_eq]
    cases hbreaks <;> simp [Literal.reach]

theorem stringAt_append_lineFeed (line rest : List Char) :
    stringAt (line ++ '\n' :: rest) = stringAt line := by
  rw [stringAt, reach_append_lineFeed, stringAt]

theorem commentAt_append_lineFeed (line rest : List Char) :
    commentAt (line ++ '\n' :: rest) = commentAt line := by
  rw [commentAt, takeWhile_append_lineFeed (by decide), commentAt]

theorem minusAt_append_lineFeed (line rest : List Char) :
    minusAt (line ++ '\n' :: rest) = minusAt line := by
  cases line with
  | nil => exact signAt_append_lineFeed '-' [] rest
  | cons c line =>
      simp only [List.cons_append, minusAt]
      rw [← List.cons_append, negativeNameAt_append_lineFeed, decimalAt_append_lineFeed,
        radixNumberAt?_append_lineFeed, signAt_append_lineFeed]

/-- No token reaches over the end of a line. -/
theorem lexemeAt_append_lineFeed (c : Char) (line rest : List Char) :
    lexemeAt c (line ++ '\n' :: rest) = lexemeAt c line := by
  simp only [lexemeAt, ← List.cons_append]
  rw [wordAt_append_lineFeed, decimalAt_append_lineFeed, minusAt_append_lineFeed,
    radixNumberAt?_append_lineFeed, stringAt_append_lineFeed, commentAt_append_lineFeed,
    signAt_append_lineFeed]

/-! ## Spellings -/

/-- A name that can be spelled: a letter or an underscore, and then also digits. -/
def isName (name : String) : Bool :=
  name.toList.head?.any isNameStart && name.toList.all isNamePart

namespace Kind

/-- A kind that has a spelling of its own.  The end of the file has none, a name that is not negative
is taken for a reserved word if it is spelled like one, and a comment ends with its line. -/
def Printable : Kind → Prop
  | .identifier name negative =>
      isName name = true ∧ (negative = false → Keyword.ofSymbol? name = none)
  | .comment words => '\n' ∉ words.toList
  | .endOfFile => False
  | _ => True

instance : DecidablePred Printable
  | .integer _ | .text _ | .slot _ | .condition _ | .arithmetic _ | .quantity _ | .keyword _
  | .mark _ => .isTrue trivial
  | .identifier _ _ => inferInstanceAs (Decidable (_ ∧ (_ → _)))
  | .comment _ => inferInstanceAs (Decidable (¬ _))
  | .endOfFile => .isFalse id

/-- A kind as a source spells it. -/
def spelling : Kind → String
  | .integer value => toString value.toInt
  | .text plain => "\"" ++ String.ofList (plain.toList.flatMap Literal.escape) ++ "\""
  | .identifier name negative => (if negative then "-" else "") ++ name
  | .comment words => "#" ++ words
  | kind => kind.symbol

/-- Kinds as a text, each on a line of its own. -/
def print (kinds : List Kind) : String := "\n".intercalate (kinds.map spelling)

/-- The text is taken for one token of that kind, from its first character to its last. -/
def ReadFrom (kind : Kind) : List Char → Prop
  | [] => False
  | c :: rest => isBlank c = false ∧ lexemeAt c rest = .ok (kind, rest.length + 1)

instance (kind : Kind) : DecidablePred kind.ReadFrom
  | [] => .isFalse id
  | _ :: _ => inferInstanceAs (Decidable (_ ∧ _))

end Kind

/-! ### Signs and words -/

theorem readFrom_sign : ∀ sign ∈ Kind.signs, sign.ReadFrom sign.symbol.toList := by decide

theorem readFrom_keyword (word : Keyword) : (Kind.keyword word).ReadFrom word.symbol.toList := by
  cases word <;> decide

/-- A name is a word from its first character to its last. -/
theorem exists_of_isName {name : String} (h : isName name = true) :
    ∃ first rest, name.toList = first :: rest ∧ isNameStart first = true ∧
      String.ofList ((first :: rest).takeWhile isNamePart) = name := by
  simp only [isName, Bool.and_eq_true, Option.any_eq_true, List.all_eq_true] at h
  obtain ⟨⟨first, hfirst, hstart⟩, hparts⟩ := h
  obtain ⟨rest, hname⟩ := List.head?_eq_some_iff.1 hfirst
  rw [hname] at hparts
  refine ⟨first, rest, hname, hstart, ?_⟩
  rw [List.takeWhile_eq_self_iff.2 hparts, ← hname, String.ofList_toList]

theorem readFrom_identifier {name : String} {negative : Bool} (h : isName name = true)
    (free : negative = false → Keyword.ofSymbol? name = none) :
    (Kind.identifier name negative).ReadFrom ((if negative then "-" else "") ++ name).toList := by
  obtain ⟨first, rest, hname, hstart, hwhole⟩ := exists_of_isName h
  have hlength : name.length = rest.length + 1 := by
    rw [← String.length_toList, hname, List.length_cons]
  cases negative with
  | true =>
      have hspelling : ("-" ++ name).toList = '-' :: first :: rest := by simp [hname]
      have hminus : minusAt (first :: rest) = negativeNameAt (first :: rest) := by
        simp [minusAt, hstart]
      simp only [if_true, hspelling]
      refine ⟨rfl, hminus.trans ?_⟩
      rw [negativeNameAt, hwhole, hlength, List.length_cons]
  | false =>
      have hspelling : ("" ++ name).toList = first :: rest := by simp [hname]
      simp only [Bool.false_eq_true, if_false, hspelling]
      refine ⟨isBlank_of_isNamePart (by simp [isNamePart, hstart]), ?_⟩
      simp [lexemeAt, hstart, wordAt, hwhole, free, hlength]

/-! ### Literals and comments -/

/-- Digits alone are a number without a fraction. -/
theorem decimalAt_digits {digits : List Char} (h : ∀ c ∈ digits, c.isDigit = true)
    (negative : Bool) : decimalAt negative digits =
      numberLexeme (Literal.decimal? negative digits) (writtenSign negative ++ digits) := by
  have htake : digits.takeWhile Char.isDigit = digits := List.takeWhile_eq_self_iff.2 h
  have hdrop : digits.dropWhile Char.isDigit = [] := List.dropWhile_eq_nil_iff.2 h
  simp only [decimalAt, htake, hdrop, fraction, List.append_nil]

/-- Digits are a number, with the `-` before them or without one. -/
theorem readFrom_digits {digits : List Char} {negative : Bool} {value : Int64} (nonempty : digits ≠ [])
    (h : ∀ c ∈ digits, c.isDigit = true) (denotes : Literal.decimal? negative digits = some value) :
    (Kind.integer value).ReadFrom (writtenSign negative ++ digits) := by
  have hnumber := decimalAt_digits h negative
  obtain ⟨first, later, rfl⟩ := List.exists_cons_of_ne_nil nonempty
  obtain ⟨c, rest, htext, hblank, hlexeme⟩ :=
    exists_lexemeAt_decimal negative (h first List.mem_cons_self) later
  rw [denotes, htext] at hnumber
  rw [htext]
  exact ⟨hblank, hlexeme.trans hnumber⟩

theorem readFrom_integer (value : Int64) :
    (Kind.integer value).ReadFrom (toString value.toInt).toList := by
  rw [Literal.toList_toString]
  exact readFrom_digits (Literal.magnitude_ne_nil value)
    (fun c => Literal.isDigit_of_mem_magnitude) (Literal.decimal?_magnitude value)

theorem readFrom_text (plain : String) :
    (Kind.text plain).ReadFrom (Kind.text plain).spelling.toList := by
  have hspelling : (Kind.text plain).spelling.toList =
      '"' :: (plain.toList.flatMap Literal.escape ++ ['"']) := by
    simp [Kind.spelling]
  have hstring : stringAt (plain.toList.flatMap Literal.escape ++ ['"']) =
      .ok (.text plain, (plain.toList.flatMap Literal.escape).length + 2) := by
    rw [← Literal.spell_ofChar, stringAt_closed (by simp [Literal.Piece.fits_ofChar]),
      Literal.mapM_meaning_ofChar]
    simp only [String.ofList_toList]
  rw [hspelling]
  refine ⟨rfl, hstring.trans ?_⟩
  simp

theorem readFrom_comment {words : String} (h : '\n' ∉ words.toList) :
    (Kind.comment words).ReadFrom ("#" ++ words).toList := by
  have hspelling : ("#" ++ words).toList = '#' :: words.toList := by simp
  have hline : words.toList.takeWhile (· ≠ '\n') = words.toList := by
    refine List.takeWhile_eq_self_iff.2 fun c hc => ?_
    refine decide_eq_true fun hfeed => h ?_
    rwa [← hfeed]
  have hcomment : commentAt words.toList = .ok (.comment words, words.toList.length + 1) := by
    simp only [commentAt, hline, String.ofList_toList]
  rw [hspelling]
  exact ⟨rfl, hcomment⟩

/-- A spelling is taken for the token that it spells. -/
theorem Kind.Printable.readFrom {kind : Kind} (h : kind.Printable) :
    kind.ReadFrom kind.spelling.toList := by
  cases kind with
  | integer value => exact readFrom_integer value
  | text plain => exact readFrom_text plain
  | identifier name negative => exact readFrom_identifier h.1 h.2
  | comment words => exact readFrom_comment h
  | slot op => exact readFrom_sign _ (by cases op <;> decide)
  | condition op =>
      obtain ⟨negated, comparison⟩ := op
      exact readFrom_sign _ (by cases negated <;> cases comparison <;> decide)
  | arithmetic op => exact readFrom_sign _ (by cases op <;> decide)
  | quantity op => exact readFrom_sign _ (by cases op <;> decide)
  | keyword word => exact readFrom_keyword word
  | mark sign => exact readFrom_sign _ (by cases sign <;> decide)
  | endOfFile => exact h.elim

/-! ## Whole texts -/

/-- A spelling is scanned as the token that it spells, if nothing else stands on its line. -/
theorem scanFrom_spelling {kind : Kind} {text rest : List Char} (h : kind.ReadFrom text)
    (ends : rest = [] ∨ ∃ later, rest = '\n' :: later) (place : Nat → Position) (read : List Token)
    (offset : Nat) :
    scanFrom place read offset 0 (text ++ rest) =
      scanFrom place (⟨kind, place offset⟩ :: read) (offset + String.utf8Len text) 0 rest := by
  cases text with
  | nil => exact h.elim
  | cons c line =>
      obtain ⟨hblank, hlexeme⟩ := h
      have hline : lexemeAt c (line ++ rest) = .ok (kind, line.length + 1) := by
        rcases ends with rfl | ⟨later, rfl⟩
        · rw [List.append_nil, hlexeme]
        · rw [lexemeAt_append_lineFeed, hlexeme]
      simp only [List.cons_append, scanFrom, hblank, hline, Bool.false_eq_true, if_false]
      rw [Nat.add_sub_cancel, scanFrom_append, String.utf8Len_cons,
        Nat.add_comm (String.utf8Len line), ← Nat.add_assoc]

theorem toList_print_singleton (kind : Kind) :
    (Kind.print [kind]).toList = kind.spelling.toList ++ [] := by
  simp [Kind.print]

theorem toList_print_cons_cons (kind next : Kind) (kinds : List Kind) :
    (Kind.print (kind :: next :: kinds)).toList =
      kind.spelling.toList ++ '\n' :: (Kind.print (next :: kinds)).toList := by
  simp [Kind.print]

/-- Printed kinds are scanned one after the other. -/
theorem scanFrom_print {kinds : List Kind} (h : ∀ kind ∈ kinds, kind.Printable)
    (place : Nat → Position) (read : List Token) (offset : Nat) :
    (scanFrom place read offset 0 (Kind.print kinds).toList).map (List.map Token.kind) =
      .ok (read.reverse.map Token.kind ++ kinds ++ [.endOfFile]) := by
  induction kinds generalizing read offset with
  | nil => simp [Kind.print, scanFrom, Except.map]
  | cons kind kinds ih =>
      obtain ⟨hkind, hkinds⟩ := List.forall_mem_cons.1 h
      cases kinds with
      | nil =>
          rw [toList_print_singleton, scanFrom_spelling hkind.readFrom (.inl rfl)]
          simp [scanFrom, Except.map]
      | cons next kinds =>
          rw [toList_print_cons_cons, scanFrom_spelling hkind.readFrom (.inr ⟨_, rfl⟩)]
          -- The line feed between two spellings is a blank.
          refine (ih hkinds (⟨kind, place offset⟩ :: read) _).trans ?_
          simp

/-- Scanning undoes printing: kinds that are written in their spelling, each on a line of its own,
are scanned as they were, and then the end of the file. -/
theorem scan_print {kinds : List Kind} (printable : ∀ kind ∈ kinds, kind.Printable) :
    (scan (Kind.print kinds)).map (List.map Token.kind) = .ok (kinds ++ [.endOfFile]) :=
  scanFrom_print printable _ [] 0

/-- The least number, a string with all that is escaped, and words and signs of which one begins like
another, as an instance. -/
theorem scan_print_of_look_alikes :
    (scan "-9223372036854775808\n-\n--\n-=\n-use\nuse\nuses\n\"a\\\"\\\\\\nb\"\n#-1\n!<=\n$read").map
        (List.map Token.kind) =
      .ok [.integer Int64.minValue, .arithmetic .subtraction, .quantity .decrement,
        .quantity .subtract, .identifier "use" true, .keyword .use, .identifier "uses" false,
        .text "a\"\\\nb", .comment "-1", .condition ⟨true, .lessThanEquals⟩, .slot .read,
        .endOfFile] :=
  @scan_print [.integer Int64.minValue, .arithmetic .subtraction, .quantity .decrement,
    .quantity .subtract, .identifier "use" true, .keyword .use, .identifier "uses" false,
    .text "a\"\\\nb", .comment "-1", .condition ⟨true, .lessThanEquals⟩, .slot .read] (by decide)

end Token
end Bir
