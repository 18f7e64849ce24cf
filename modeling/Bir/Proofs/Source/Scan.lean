import Bir.Proofs.Source.Grammar
import Bir.Proofs.Source.Progress
import Bir.Scope.Graph

/-!
# Scanning — what the tokens of a text are like

A name starts with a letter or an underscore, so none starts with the `$` that marks the frame of
an `init` section, and a lookup of a name looks for that very name.  This file defines:

* `Token.Kind.Named` — a kind that is a name is one that a text can spell;
* `Token.positions` — the positions of the tokens of a text;
* `Position.Counted` — a line and a column that are counted from one;
* `Law.sound` — the law that names are looked up as they are spelled, and that positions are places.

The program of a text says what its tokens say and obeys this law: `Program.ofSource_written` and
`Program.ofSource_sound`.  A text that is no program is rejected at a place: `Program.ofSource_counted`.
-/

namespace Bir

/-! ## Places in texts -/

/-- A line and a column that are both counted from one. -/
def Position.Counted (position : Position) : Prop := 1 ≤ position.line ∧ 1 ≤ position.column

theorem Position.Counted.isSynthetic {position : Position} (h : position.Counted) :
    position.isSynthetic = false := by
  have hline := h.1
  have hne : position.line ≠ 0 := by omega
  simpa [Position.isSynthetic] using hne

theorem LineIndex.position_counted (index : LineIndex) (text : List Char) (offset : Nat) :
    (index.position text offset).Counted :=
  ⟨Nat.le_min.2 ⟨Nat.le_add_left 1 _, by decide⟩, Nat.le_min.2 ⟨Nat.le_add_left 1 _, by decide⟩⟩

namespace Token

/-! ## Single tokens -/

/-- If a kind is a name, the name starts as names do. -/
def Kind.Named (kind : Kind) : Prop :=
  ∀ name negative, kind = .identifier name negative →
    ∃ first rest, name.toList = first :: rest ∧ isNameStart first = true

/-- If a lexeme is a token, its kind is one that a text can spell. -/
def Lexeme.Named (lexeme : Lexeme) : Prop :=
  ∀ kind length, lexeme = .ok (kind, length) → kind.Named

theorem signs_named : ∀ sign ∈ Kind.signs, sign.Named := by
  have hsigns : (Kind.signs.all fun sign => sign.label != "Ident") = true := by decide
  intro sign hmem name negative hname
  have hsign := List.all_eq_true.1 hsigns sign hmem
  simp [hname, Kind.label] at hsign

namespace Lexeme

theorem named_error (cause : LexicalError.Cause) : Lexeme.Named (.error cause) := by
  intro kind length h
  cases h

theorem named_ok {kind : Kind} {length : Nat} (h : kind.Named) : Lexeme.Named (.ok (kind, length)) := by
  intro kind' length' heq
  cases heq
  exact h

theorem named_sign (c : Char) (rest : List Char) : (signAt c rest).Named := by
  unfold signAt
  split
  · rename_i sign hsign
    exact named_ok (signs_named sign (mem_of_longestSign? hsign).1)
  · exact named_error _

/-- The first character of a name is taken with the name. -/
theorem takeWhile_isNamePart {c : Char} {rest : List Char} (h : isNameStart c = true) :
    (String.ofList ((c :: rest).takeWhile isNamePart)).toList = c :: rest.takeWhile isNamePart := by
  have hpart : isNamePart c = true := by simp [isNamePart, h]
  simp [hpart]

theorem named_word {c : Char} {rest : List Char} (h : isNameStart c = true) :
    (wordAt (c :: rest)).Named := by
  unfold wordAt
  simp only
  split
  · refine named_ok ?_
    intro name negative hname
    cases hname
  · refine named_ok ?_
    intro name negative hname
    cases hname
    exact ⟨c, _, takeWhile_isNamePart h, h⟩

theorem named_number (value : Option Int64) (literal : List Char) :
    (numberLexeme value literal).Named := by
  unfold numberLexeme
  split
  · refine named_ok ?_
    intro name negative hname
    cases hname
  · exact named_error _

theorem named_string (text : List Char) : (stringAt text).Named := by
  unfold stringAt
  simp only
  split
  · refine named_ok ?_
    intro name negative hname
    cases hname
  · exact named_error _

theorem At.named {lexeme : Lexeme} {text : List Char} (h : lexeme.At text) : lexeme.Named := by
  cases h with
  | word start => exact named_word start
  | @negativeName c rest start =>
      refine named_ok ?_
      intro name negative hname
      cases hname
      exact ⟨c, _, takeWhile_isNamePart start, start⟩
  | decimal negative digit => exact named_number _ _
  | radix negative known digits => exact named_number _ _
  | string rest => exact named_string rest
  | comment rest =>
      refine named_ok ?_
      intro name negative hname
      cases hname
  | sign c rest => exact named_sign c rest

end Lexeme

theorem lexemeAt_named (c : Char) (rest : List Char) : (lexemeAt c rest).Named :=
  (at_lexemeAt c rest).named

/-! ## Whole texts -/

/-- A token that a text can spell, at a place in the text. -/
structure Sound (token : Token) : Prop where
  named : token.kind.Named
  placed : token.position.Counted

/-- What a scan gives: tokens that a text can spell, at least its end, or a place in the text. -/
def Scanned : Except LexicalError (List Token) → Prop
  | .ok tokens => tokens ≠ [] ∧ ∀ token ∈ tokens, token.Sound
  | .error error => error.position.Counted

theorem scanFrom_gives {place : Nat → Position} (hplace : ∀ offset, (place offset).Counted)
    {text : List Char} {read : List Token} {offset skip : Nat}
    (hread : ∀ token ∈ read, token.Sound) : Scanned (scanFrom place read offset skip text) := by
  induction text generalizing read offset skip with
  | nil =>
      refine ⟨by simp, ?_⟩
      intro token hmem
      rcases List.mem_cons.1 (List.mem_reverse.1 hmem) with rfl | hmem
      · refine ⟨?_, hplace offset⟩
        intro name negative hname
        cases hname
      · exact hread token hmem
  | cons c rest ih =>
      unfold scanFrom
      split
      -- The character belongs to the last token.
      · exact ih hread
      · split
        · exact ih hread
        -- A token starts here, or the text is rejected here.
        · split
          · rename_i kind length hlexeme
            refine ih ?_
            intro token hmem
            rcases List.mem_cons.1 hmem with rfl | hmem
            · exact ⟨lexemeAt_named c rest kind length hlexeme, hplace offset⟩
            · exact hread token hmem
          · exact hplace offset

theorem scan_gives (source : String) : Scanned (scan source) :=
  scanFrom_gives (LineIndex.position_counted _ _) (by simp)

/-- The tokens of a text are at least its end, and all are such as the text can spell. -/
theorem scan_sound {source : String} {tokens : List Token} (h : scan source = .ok tokens) :
    tokens ≠ [] ∧ ∀ token ∈ tokens, token.Sound := by
  have hgives := scan_gives source
  rw [h] at hgives
  exact hgives

/-- The positions of the tokens of a text. -/
def positions (source : String) : List Position :=
  match scan source with
  | .ok tokens => tokens.map fun token => token.position
  | .error _ => []

theorem mem_positions {source : String} {tokens : List Token} {position : Position}
    (h : scan source = .ok tokens) (written : position.Written tokens) :
    position ∈ positions source := by
  obtain ⟨token, hmem, rfl⟩ := written
  simp only [positions, h]
  exact List.mem_map_of_mem hmem

theorem counted_of_mem {source : String} {position : Position}
    (h : position ∈ positions source) : position.Counted := by
  unfold positions at h
  split at h
  · rename_i tokens hscan
    obtain ⟨token, hmem, rfl⟩ := List.mem_map.1 h
    exact ((scan_sound hscan).2 token hmem).placed
  · cases h

theorem isSynthetic_of_mem {source : String} {position : Position}
    (h : position ∈ positions source) : position.isSynthetic = false :=
  (counted_of_mem h).isSynthetic

end Token

/-! ## Programs -/

/-- The law that names are looked up as they are spelled, and that all positions are places in some
text. -/
def Law.sound : Law where
  name name := ScopeGraph.unmarked name.name = name.name ∧ name.position.isSynthetic = false
  keyword position := position.isSynthetic = false

/-- A name that starts as names do has no mark to be taken off. -/
theorem ScopeGraph.unmarked_of_nameStart {name : String} {first : Char} {rest : List Char}
    (hname : name.toList = first :: rest) (hstart : Token.isNameStart first = true) :
    unmarked name = name := by
  unfold unmarked
  split
  · rename_i marked hmarked
    rw [hmarked] at hname
    cases hname
    exact absurd hstart (by decide)
  · rfl

/-- The program of a text says what the tokens of the text say. -/
theorem Program.ofSource_written {source : String} {program : Program}
    (h : ofSource source = .ok program) :
    ∃ tokens, Token.scan source = .ok tokens ∧ program.Written tokens := by
  unfold ofSource at h
  split at h
  · rename_i tokens hscan
    have hread := ofTokens_readFrom (Token.scan_sound hscan).1
    rw [h] at hread
    exact ⟨tokens, hscan, hread⟩
  · cases h

/-- A text that is no program is rejected at a place in it. -/
theorem Program.ofSource_counted {source : String} {error : SyntaxError}
    (h : ofSource source = .error error) : error.position.Counted := by
  unfold ofSource at h
  split at h
  · rename_i tokens hscan
    have hsound := Token.scan_sound hscan
    have hread := ofTokens_readFrom hsound.1
    rw [h] at hread
    obtain ⟨token, hmem, hposition⟩ := hread
    rw [← hposition]
    exact (hsound.2 token hmem).placed
  · rename_i rejected hscan
    cases h
    have hgives := Token.scan_gives source
    rw [hscan] at hgives
    exact hgives

/-- What the tokens of a text say is sound. -/
theorem Law.written_implies_sound {source : String} {tokens : List Token}
    (h : Token.scan source = .ok tokens) : (Law.written tokens).Implies Law.sound where
  name name hwritten := by
    have htoken := (Token.scan_sound h).2 _ hwritten
    obtain ⟨first, rest, hname, hstart⟩ := htoken.named _ _ rfl
    exact ⟨ScopeGraph.unmarked_of_nameStart hname hstart, htoken.placed.isSynthetic⟩
  keyword position hwritten := Token.isSynthetic_of_mem (Token.mem_positions h hwritten)

/-- All statements of a program that a text is are sound. -/
theorem Program.ofSource_sound {source : String} {program : Program}
    (h : ofSource source = .ok program) :
    ∀ statement ∈ program.statements, statement.Throughout Law.sound := by
  obtain ⟨tokens, hscan, hwritten⟩ := ofSource_written h
  intro statement hmem
  exact (hwritten.statements statement hmem).mono (Law.written_implies_sound hscan)

end Bir
