import Bir.Grammar.Program
import Bir.Proofs.Source.Follow
import Mathlib.Data.List.Chain

/-!
# Passages — tokens of statements, one after the other

Statements follow one another with nothing between them, and yet each ends where it ends alone.  One
pair is an exception: a block that implements another without values, and a group that starts with a
string, which then seeds the block.  This file defines:

* `Passage` — a statement and tokens that are read as it; `Passage.Alone`, that nothing else is;
* `Passage.Apart` — that two passages are not the exception;
* `Reads` — that a parser takes all of some tokens;
* `Runs` — statements that are read one after the other.

`Passage.runs` is the result: passages one after the other are read as their statements.
-/

namespace Bir
namespace Grammar

open Bir.Grammar.Parser

/-! ## Passages -/

/-- A statement and tokens that are read as it. -/
structure Passage where
  tokens : List Token
  statement : Statement

/-- The end of the file is not among the tokens. -/
def Endless (tokens : List Token) : Prop := ∀ token ∈ tokens, token.kind ≠ .endOfFile

instance (tokens : List Token) : Decidable (Endless tokens) :=
  inferInstanceAs (Decidable (∀ token ∈ tokens, token.kind ≠ .endOfFile))

/-- The tokens are a program of this statement alone. -/
structure Passage.Alone (passage : Passage) : Prop where
  endless : Endless passage.tokens
  program : Program.ofTokens passage.tokens = .ok { statements := [passage.statement] }

/-- Whether tokens start with a brace and a string. -/
def startsWithSeed (tokens : List Token) : Bool :=
  match tokens with
  | ⟨.mark .leftBrace, _⟩ :: ⟨.text _, _⟩ :: _ => true
  | _ => false

/-- The second passage does not seed the block that is the first one. -/
def Passage.Apart (first second : Passage) : Prop :=
  first.statement.isUnseeded = true → startsWithSeed second.tokens = false

/-- The tokens of passages, one after the other. -/
def Passage.text (passages : List Passage) : List Token := passages.flatMap Passage.tokens

/-- A statement ends before what starts another one and does not seed it. -/
theorem behind_of_starts {statement : Statement} {stop : Position} {left : Cursor}
    (past : left.kind.continuesStatement = false)
    (seeds : statement.isUnseeded = true → left.seeds = false) :
    Behind statement ⟨[], stop⟩ left where
  past hcontinues := by
    rw [past] at hcontinues
    cases hcontinues
  seeds hunseeded hseeds := by
    rw [seeds hunseeded] at hseeds
    cases hseeds

/-! ## Readings of all tokens -/

/-- Tokens are all that a parser takes of them, under the bound of a program of their number. -/
def Reads {α : Type} (parser : Nat → Parser α) (tokens : List Token) (value : α) : Prop :=
  ∃ stop, parser (sufficientBound tokens.length) ⟨tokens, stop⟩ = .accepted value ⟨[], stop⟩

/-- A parser takes the same tokens wherever they stand, unless what follows goes on with them. -/
theorem Reads.before {α : Type} {parser : Nat → Parser α} {tokens : List Token} {value : α}
    (h : Reads parser tokens value) {before : View} {after : α → View} {bound : Nat}
    (parts : Local before after (parser (sufficientBound tokens.length)) (parser bound))
    {left : Cursor} (hafter : ∀ stop, after value ⟨[], stop⟩ left) :
    parser bound (left.prepend tokens) = .accepted value left := by
  obtain ⟨stop, hread⟩ := h
  obtain ⟨taken, htaken, hleft⟩ := parts _ _ _ hread
  have htokens : taken = tokens := by
    simpa [Cursor.prepend] using (Cursor.mk.inj htaken).1.symm
  rw [← htokens]
  exact (hleft left (hafter stop)).1

/-! ## Programs of one statement -/

/-- Tokens without the end of the file are all before it. -/
theorem Cursor.ofTokens_of_endless {tokens : List Token} (endless : Endless tokens) :
    ∃ stop, Cursor.ofTokens tokens = ⟨tokens, stop⟩ := by
  have htake : tokens.takeWhile (fun token => token.kind ≠ .endOfFile) = tokens := by
    have hall : ∀ token ∈ tokens, decide (token.kind ≠ .endOfFile) = true := by
      simpa [Endless] using endless
    simpa using @List.takeWhile_append_of_pos _ _ tokens [] hall
  exact ⟨(Cursor.ofTokens tokens).stop, by simp only [Cursor.ofTokens, htake]⟩

theorem accepted_of_ofTokens {tokens : List Token} {value : Program}
    (h : Program.ofTokens tokens = .ok value) :
    ∃ bound rest, program bound (Cursor.ofTokens tokens) = .accepted value rest := by
  refine ⟨sufficientBound (Cursor.ofTokens tokens).tokens.length, ?_⟩
  rw [Program.ofTokens] at h
  cases hread : program (sufficientBound (Cursor.ofTokens tokens).tokens.length)
      (Cursor.ofTokens tokens) with
  | accepted program rest =>
      rw [hread] at h
      cases h
      exact ⟨rest, rfl⟩
  | rejected error =>
      rw [hread] at h
      cases h
  | exhausted =>
      rw [hread] at h
      cases h

/-- A program is at its end, or starts with an import or a statement. -/
theorem programRest_cases {inner : Parser Statement} {turns : Nat} {inHeader : Bool}
    {cursor rest : Cursor} {program : Program}
    (h : programRest inner turns inHeader cursor = .accepted program rest) :
    (cursor.kind = .endOfFile ∧ program = ({} : Program)) ∨
      (∃ (request : Import) (others : Program),
        program = { others with imports := request :: others.imports }) ∨
      ∃ (first : Statement) (middle : Cursor) (others : Program) (turns : Nat) (inHeader : Bool),
        inner cursor = .accepted first middle ∧
          programRest inner turns inHeader middle = .accepted others rest ∧
          program = { others with statements := first :: others.statements } := by
  cases turns with
  | zero => cases h
  | succ turns =>
      unfold programRest at h
      rw [peek_bind] at h
      by_cases hend : cursor.kind = .endOfFile
      · rw [if_pos hend] at h
        cases h
        exact .inl ⟨hend, rfl⟩
      · rw [if_neg hend] at h
        split at h
        · obtain ⟨request, middle, -, h⟩ := bind_eq_accepted.1 h
          obtain ⟨others, afterOthers, -, h⟩ := bind_eq_accepted.1 h
          cases h
          exact .inr (.inl ⟨request, others, rfl⟩)
        · obtain ⟨first, middle, hfirst, h⟩ := bind_eq_accepted.1 h
          obtain ⟨others, afterOthers, hothers, h⟩ := bind_eq_accepted.1 h
          cases h
          exact .inr (.inr ⟨first, middle, others, turns, _, hfirst, hothers, rfl⟩)

/-- A program of one statement is that statement, and nothing is left behind it. -/
theorem statement_of_programRest {inner : Parser Statement} {turns : Nat} {inHeader : Bool}
    {cursor rest : Cursor} {statement : Statement}
    (h : programRest inner turns inHeader cursor = .accepted { statements := [statement] } rest) :
    ∃ middle, inner cursor = .accepted statement middle ∧ middle.kind = .endOfFile := by
  obtain ⟨-, hprogram⟩ | ⟨request, others, hprogram⟩ |
    ⟨first, middle, others, turns', inHeader', hfirst, hothers, hprogram⟩ := programRest_cases h
  · cases hprogram
  · cases hprogram
  · obtain ⟨imports, statements⟩ := others
    cases hprogram
    obtain ⟨hend, -⟩ | ⟨request, others, hprogram⟩ | ⟨_, _, others, _, _, -, -, hprogram⟩ :=
      programRest_cases hothers
    · exact ⟨middle, hfirst, hend⟩
    · simp at hprogram
    · simp at hprogram

/-! ## Statements one after the other -/

/-- Statements that are read one after the other. -/
inductive Runs (inner : Parser Statement) : Cursor → List Statement → Cursor → Prop
  | done (cursor : Cursor) : Runs inner cursor [] cursor
  | step {cursor middle rest : Cursor} {first : Statement} {others : List Statement}
      (starts : cursor.kind.startsStatement = true)
      (reads : inner cursor = .accepted first middle) (goesOn : Runs inner middle others rest) :
      Runs inner cursor (first :: others) rest

namespace Runs

variable {inner : Parser Statement} {cursor rest : Cursor} {statements : List Statement}
  {turns : Nat}

/-- A body is read up to its closing brace. -/
theorem untilClose (h : Runs inner cursor statements rest) (room : statements.length < turns)
    (hend : rest.kind = .mark .rightBrace ∨ rest.kind = .endOfFile) :
    statementsUntilClose inner turns cursor = .accepted statements rest := by
  induction h generalizing turns with
  | done cursor =>
      obtain _ | turns := turns
      · cases room
      · unfold statementsUntilClose
        rw [peek_bind, if_pos hend]
        rfl
  | @step cursor middle rest first others starts reads goesOn ih =>
      obtain _ | turns := turns
      · cases room
      · have hopen : ¬(cursor.kind = .mark .rightBrace ∨ cursor.kind = .endOfFile) := by
          rintro (hend | hend) <;>
            · rw [hend] at starts
              cases starts
        have hothers := ih (Nat.lt_of_succ_lt_succ room) hend
        unfold statementsUntilClose
        rw [peek_bind, if_neg hopen, bind_of_accepted reads, bind_of_accepted hothers]
        rfl

/-- A program is read up to the end of the file. -/
theorem programRest (h : Runs inner cursor statements rest) (room : statements.length < turns)
    (hend : rest.kind = .endOfFile) (inHeader : Bool) :
    Grammar.programRest inner turns inHeader cursor =
      .accepted { statements := statements } rest := by
  induction h generalizing turns inHeader with
  | done cursor =>
      obtain _ | turns := turns
      · cases room
      · unfold Grammar.programRest
        rw [peek_bind, if_pos hend]
        rfl
  | @step cursor middle rest first others starts reads goesOn ih =>
      obtain _ | turns := turns
      · cases room
      · have hopen : cursor.kind ≠ .endOfFile := by
          intro hend
          rw [hend] at starts
          cases starts
        have noImport : ¬(inHeader = true ∧ cursor.kind = .keyword .use) := by
          rintro ⟨-, huse⟩
          rw [huse] at starts
          cases starts
        have hothers := ih (Nat.lt_of_succ_lt_succ room) hend (inHeader && first.isComment)
        unfold Grammar.programRest
        rw [peek_bind, if_neg hopen, if_neg noImport, bind_of_accepted reads,
          bind_of_accepted hothers]
        rfl

end Runs

namespace Passage

variable {passage : Passage}

/-- A passage alone is read as its statement. -/
theorem Alone.reads (h : passage.Alone) :
    Reads Grammar.statement passage.tokens passage.statement := by
  obtain ⟨stop, hcursor⟩ := Cursor.ofTokens_of_endless h.endless
  have hprogram := h.program
  simp only [Program.ofTokens, hcursor] at hprogram
  cases hread : Grammar.program (sufficientBound passage.tokens.length) ⟨passage.tokens, stop⟩ with
  | rejected error => simp [hread, outcome] at hprogram
  | exhausted => simp [hread, outcome] at hprogram
  | accepted program rest =>
      rw [hread] at hprogram
      cases hprogram
      obtain ⟨middle, hstatement, hend⟩ := statement_of_programRest hread
      obtain ⟨taken, htaken, -⟩ := statement_local (Nat.le_refl _) _ _ _ hstatement
      -- What is left of the tokens is at their end, so none is left.
      obtain ⟨_ | ⟨token, left⟩, stop'⟩ := middle
      · obtain rfl : stop = stop' := (Cursor.mk.inj htaken).2
        exact ⟨stop, hstatement⟩
      · have hmem : token ∈ passage.tokens := by
          rw [(Cursor.mk.inj htaken).1]
          simp
        exact absurd hend (h.endless token hmem)

theorem Alone.startsStatement (h : passage.Alone) (left : Cursor) :
    (left.prepend passage.tokens).kind.startsStatement = true := by
  obtain ⟨stop, hread⟩ := h.reads
  have hstarts := startsStatement_of_statement hread
  cases htokens : passage.tokens with
  | nil =>
      rw [htokens] at hstarts
      cases hstarts
  | cons token tokens =>
      rw [htokens] at hstarts
      exact hstarts

/-- What a passage starts with seeds slots only if it is a brace and a string. -/
theorem Alone.seeds (h : passage.Alone) (left : Cursor)
    (hseeds : (left.prepend passage.tokens).seeds = true) :
    startsWithSeed passage.tokens = true := by
  obtain ⟨stop, hread⟩ := h.reads
  have hstarts := startsStatement_of_statement hread
  have hgroup := fun hkind => startsExpression_of_statement hkind hread
  obtain ⟨_ | ⟨⟨kind, position⟩, tokens⟩, statement⟩ := passage
  · cases hstarts
  · have hkind : kind = .mark .leftBrace := kind_of_seeds hseeds
    subst hkind
    -- A group starts an expression, so its second token is no bracket.
    obtain _ | ⟨⟨second, position'⟩, tokens⟩ := tokens
    · cases hgroup rfl
    · cases second with
      | text text => rfl
      | mark sign =>
          cases sign with
          | leftBracket => cases hgroup rfl
          | _ => cases hseeds
      | _ => cases hseeds

/-- A passage is read alike wherever it stands, unless what follows goes on with it. -/
theorem Alone.reads_before (h : passage.Alone) {left : Cursor} {bound : Nat}
    (le : sufficientBound passage.tokens.length ≤ bound)
    (past : left.kind.continuesStatement = false)
    (seeds : passage.statement.isUnseeded = true → left.seeds = false) :
    Grammar.statement bound (left.prepend passage.tokens) =
      .accepted passage.statement left :=
  h.reads.before (statement_local le) fun _ => behind_of_starts past seeds

/-- What follows a passage does not go on with it. -/
theorem past_of_apart {passages : List Passage} (alone : ∀ other ∈ passages, other.Alone)
    (apart : (passage :: passages).IsChain Apart) {left : Cursor}
    (hend : left.kind = .mark .rightBrace ∨ left.kind = .endOfFile) :
    (left.prepend (text passages)).kind.continuesStatement = false ∧
      (passage.statement.isUnseeded = true → (left.prepend (text passages)).seeds = false) := by
  cases passages with
  | nil =>
      have hseeds : left.seeds = false := by
        cases hseeds : left.seeds with
        | false => rfl
        | true =>
            have hbrace := kind_of_seeds hseeds
            rcases hend with hend | hend <;> cases hbrace.symm.trans hend
      refine ⟨?_, fun _ => hseeds⟩
      rcases hend with hend | hend <;>
        · change left.kind.continuesStatement = false
          rw [hend]
          rfl
  | cons second passages =>
      have hsecond : second.Alone := alone second (by simp)
      have htext : left.prepend (text (second :: passages)) =
          (left.prepend (text passages)).prepend second.tokens := by
        simp [text]
      rw [htext]
      refine ⟨Token.Kind.continuesStatement_of_starts (hsecond.startsStatement _), ?_⟩
      intro hunseeded
      have hapart : startsWithSeed second.tokens = false :=
        (List.isChain_cons_cons.1 apart).1 hunseeded
      cases hseeds : ((left.prepend (text passages)).prepend second.tokens).seeds with
      | false => rfl
      | true =>
          rw [hsecond.seeds _ hseeds] at hapart
          cases hapart

/-! ## Passages one after the other -/

/-- A passage has a token. -/
theorem length_le_text {passages : List Passage} (alone : ∀ other ∈ passages, other.Alone) :
    passages.length ≤ (text passages).length := by
  induction passages with
  | nil => exact Nat.le_refl _
  | cons first passages ih =>
      have htext : (text (first :: passages)).length =
          first.tokens.length + (text passages).length := by
        simp [text]
      have hfirst : first.tokens ≠ [] := by
        intro hnil
        have hstarts := (alone first (by simp)).startsStatement ⟨[], .start⟩
        rw [hnil] at hstarts
        cases hstarts
      have := ih fun other hmem => alone other (by simp [hmem])
      have := List.length_pos_iff.2 hfirst
      simp only [List.length_cons]
      omega

theorem text_cons (first : Passage) (passages : List Passage) :
    text (first :: passages) = first.tokens ++ text passages := by
  simp [text]

/-- Passages one after the other are read as their statements. -/
theorem runs {passages : List Passage} (alone : ∀ other ∈ passages, other.Alone)
    (apart : passages.IsChain Apart) {left : Cursor}
    (hend : left.kind = .mark .rightBrace ∨ left.kind = .endOfFile) {bound : Nat}
    (le : sufficientBound (text passages).length ≤ bound) :
    Runs (fun cursor => Grammar.statement bound cursor) (left.prepend (text passages))
      (passages.map Passage.statement) left := by
  induction passages with
  | nil => exact .done left
  | cons first passages ih =>
      have hfirst : first.Alone := alone first (by simp)
      have hothers : ∀ other ∈ passages, other.Alone := fun other hmem =>
        alone other (by simp [hmem])
      obtain ⟨past, seeds⟩ := past_of_apart hothers apart hend
      rw [text_cons] at le ⊢
      simp only [List.length_append, sufficientBound] at le
      rw [Cursor.prepend_append]
      refine .step (hfirst.startsStatement _) (hfirst.reads_before ?_ past seeds) ?_
      · simp only [sufficientBound]
        omega
      · exact ih hothers apart.tail (by simp only [sufficientBound]; omega)

end Passage

end Grammar
end Bir
