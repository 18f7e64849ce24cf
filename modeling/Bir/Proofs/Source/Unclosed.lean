import Bir.Proofs.Source.Brackets
import Bir.Proofs.Source.Impossible
import Mathlib.Data.List.TakeWhile

/-!
# Unclosed brackets — the innermost one is to blame

Groups, arguments, the parameters of a block, bodies, the cases of a `switch` and what seeds a block
each open a bracket and keep its position for the error that it is not closed.  Every production
closes what it opens, so where the text ends too soon, the production that misses its closing mark is
the one whose bracket was opened last.  This file goes through the productions in their order and
ends with `unclosed_delimiters_are_innermost`.
-/

namespace Bir
namespace Grammar

open Bir.Grammar.Parser

variable {text : Cursor} {bound : Nat}

/-! ## Levels of expressions -/

/-- The signs of a level are no brackets. -/
def Join.Plain (join : Join) : Prop :=
  ∀ kind, kind.isBracket = true → join kind = none

theorem conditionJoin_plain : conditionJoin.Plain := by
  intro kind hkind
  unfold conditionJoin
  split <;> simp_all [Token.Kind.isBracket]

theorem sumJoin_plain : sumJoin.Plain := by
  intro kind hkind
  unfold sumJoin
  split <;> simp_all [Token.Kind.isBracket]

theorem productJoin_plain : productJoin.Plain := by
  intro kind hkind
  unfold productJoin
  split <;> simp_all [Token.Kind.isBracket]

theorem powerJoin_plain : powerJoin.Plain := by
  intro kind hkind
  unfold powerJoin
  split <;> simp_all [Token.Kind.isBracket]

/-- A sign that joins two operands is no bracket. -/
theorem Join.Plain.of_some {join : Join} (hjoin : join.Plain) {kind : Token.Kind}
    {combine : Expression → Expression → Expression} (h : join kind = some combine) :
    kind.isBracket = false := by
  rw [← Bool.not_eq_true]
  intro hbracket
  rw [hjoin kind hbracket] at h
  cases h

section Levels

variable {join : Join} {operand : Parser Expression} (hoperand : Balances text operand)
include hoperand

theorem chainRest_balances (hjoin : join.Plain) (left : Expression) :
    Balances text (chainRest join operand bound left) := by
  induction bound generalizing left with
  | zero => exact .exhausted
  | succ bound ih =>
      refine fun opened cursor => .peek ?_
      split
      · rename_i combine hcombine
        refine (TracksAt.skip rfl (hjoin.of_some hcombine)).bind fun _ => ?_
        exact (hoperand.bind fun right => ih (combine left right)) opened
      · exact Balances.pure opened cursor

theorem chain_balances (hjoin : join.Plain) : Balances text (chain join operand bound) :=
  hoperand.bind fun left => chainRest_balances hoperand hjoin left

theorem powers_balances : Balances text (powers operand bound) := by
  induction bound with
  | zero => exact .exhausted
  | succ bound ih =>
      refine hoperand.bind fun base opened cursor => .peek ?_
      split
      · rename_i hlog
        exact .here ((TracksAt.skip hlog rfl).bind fun _ => Balances.pure opened)
      · split
        · rename_i combine hcombine
          refine (TracksAt.skip rfl (powerJoin_plain.of_some hcombine)).bind fun _ => ?_
          exact (ih.bind fun right => .pure) opened
        · exact Balances.pure opened cursor

end Levels

/-! ## Operands -/

section Operands

variable {inner : Parser Expression} (hinner : Balances text inner)
include hinner

theorem callArguments_balances : Balances text (callArguments inner bound) :=
  .delimited rfl hinner bound

theorem primary_balances : Balances text (primary inner bound) := by
  refine fun opened cursor => .here (.peek ?_)
  cases hkind : cursor.kind with
  | integer value => exact (TracksAt.skip hkind rfl).bind fun _ => Balances.pure opened
  | identifier name negative => exact (TracksAt.skip hkind rfl).bind fun _ => Balances.pure opened
  | slot op =>
      refine (TracksAt.skip hkind rfl).bind fun _ => ?_
      exact ((callArguments_balances hinner).bind fun arguments => .pure) opened
  | mark sign =>
      cases sign with
      | leftBrace =>
          -- A group: its brace is open while what it holds is read.
          refine (TracksAt.skip_opening hkind rfl).bind fun _ => ?_
          refine (hinner _).bind fun grouped => ?_
          exact (Tracks.expectClosing rfl cursor.position).bind fun _ => Balances.pure opened
      | _ => exact .reject nofun
  | _ => exact .reject nofun

theorem call_balances : Balances text (call inner bound) := by
  refine Balances.identifier.bind fun name => ?_
  refine (Balances.many rfl (primary_balances hinner) bound).bind fun verbs => ?_
  exact (callArguments_balances hinner).bind fun arguments => .pure

theorem operand_balances : Balances text (operand inner bound) := by
  refine fun opened cursor => .peek (.peekAt ?_)
  split
  · exact call_balances hinner opened cursor
  · split
    · rename_i hkind
      exact .here ((TracksAt.skip hkind rfl).bind fun _ => Balances.pure opened)
    · exact primary_balances hinner opened cursor

theorem expressionOver_balances : Balances text (expressionOver inner bound) := by
  have hpowers : Balances text (powers (operand inner bound) bound) :=
    powers_balances (operand_balances hinner)
  have hproducts : Balances text (chain productJoin (powers (operand inner bound) bound) bound) :=
    chain_balances hpowers productJoin_plain
  exact chain_balances (chain_balances hproducts sumJoin_plain) conditionJoin_plain

end Operands

theorem expression_balances (bound : Nat) : Balances text (expression bound) := by
  induction bound with
  | zero => exact fun _ _ _ => trivial
  | succ bound ih => exact expressionOver_balances ih

/-! ## Bodies -/

section Statements

variable {inner : Parser Statement} (hinner : Balances text inner)

section Bodies

include hinner

theorem statementsUntilClose_balances : Balances text (statementsUntilClose inner bound) := by
  induction bound with
  | zero => exact .exhausted
  | succ bound ih =>
      refine Balances.peek fun kind => ?_
      split
      · exact .pure
      · exact hinner.bind fun first => ih.bind fun rest => .pure

/-- The rest of a body leads out of its brace. -/
theorem bodyRest_tracks (opened : List Opened) (openedAt : Position) :
    Tracks text (⟨.leftBrace, openedAt⟩ :: opened) (fun _ => opened)
      (bodyRest inner bound openedAt) := by
  refine (statementsUntilClose_balances hinner _).bind fun statements => ?_
  exact (Tracks.expectClosing rfl openedAt).bind fun _ => Balances.pure opened

theorem body_balances : Balances text (body inner bound) := fun opened =>
  (Tracks.expect rfl).bind fun openedAt => bodyRest_tracks hinner opened openedAt

theorem bodyAfter?_balances (word : Keyword) : Balances text (bodyAfter? word inner bound) := by
  refine (Balances.eat? rfl).bind fun started => ?_
  split
  · exact (body_balances hinner).bind fun statements => .pure
  · exact .pure

theorem arm_balances : Balances text (arm inner bound) := by
  refine (expression_balances bound).bind fun test => ?_
  exact (body_balances hinner).bind fun statements => .pure

end Bodies

/-! ## Statements with a keyword -/

theorem declaration_balances {cursor : Cursor} {word : Keyword}
    (hword : cursor.kind = .keyword word) (opened : List Opened) (kind : BindingKind) :
    TracksAt text cursor opened (fun _ => opened) (declaration kind bound) := by
  refine .here ((TracksAt.skip hword rfl).bind fun _ => ?_)
  have hrest (keyword : Position) : Balances text (do
      let name ← identifier
      let _ ← expect (.mark .equals)
      let value ← expression bound
      return Statement.declare kind name value keyword) :=
    Balances.identifier.bind fun name => (Balances.expect rfl).bind fun _ =>
      (expression_balances bound).bind fun value => .pure
  exact hrest cursor.position opened

theorem exit_balances {cursor : Cursor} {word : Keyword} (hword : cursor.kind = .keyword word)
    (opened : List Opened) (way : Exit) :
    TracksAt text cursor opened (fun _ => opened) (exit way bound) := by
  refine .here ((TracksAt.skip hword rfl).bind fun _ => ?_)
  exact ((expression_balances bound).bind fun value => .pure) opened

section Keywords

include hinner

theorem branch_balances : Balances text (branch inner bound) := by
  refine (Balances.expect rfl).bind fun keyword => ?_
  refine (arm_balances hinner).bind fun (condition, statements) => ?_
  refine (Balances.many rfl (arm_balances hinner) bound).bind fun elifs => ?_
  exact (bodyAfter?_balances hinner _).bind fun otherwise => .pure

theorem repeatWhile_balances : Balances text (repeatWhile inner bound) := by
  refine (Balances.expect rfl).bind fun keyword => ?_
  exact (arm_balances hinner).bind fun (condition, statements) => .pure

theorem repeatFor_balances : Balances text (repeatFor inner bound) := by
  refine (Balances.expect rfl).bind fun keyword => (expression_balances bound).bind fun count => ?_
  refine (Balances.expect rfl).bind fun _ => Balances.identifier.bind fun placeholder => ?_
  exact (body_balances hinner).bind fun statements => .pure

theorem switch_balances : Balances text (switch inner bound) := by
  refine (Balances.expect rfl).bind fun keyword => ?_
  refine (expression_balances bound).bind fun condition opened => ?_
  refine (Tracks.expect rfl).bind fun openedAt => ?_
  refine (Balances.many rfl (arm_balances hinner) bound _).bind fun cases' => ?_
  refine (bodyAfter?_balances hinner _ _).bind fun otherwise => ?_
  exact (Tracks.expectClosing rfl openedAt).bind fun _ => Balances.pure opened

end Keywords

/-! ## Blocks -/

theorem populateSource_balances : Balances text (populateSource bound) := by
  refine fun opened cursor => .peek ?_
  split
  · rename_i hkind
    exact (TracksAt.skip hkind rfl).bind fun _ => Balances.pure opened
  · exact ((Balances.delimited rfl (expression_balances bound) bound).bind fun elements => .pure)
      opened cursor

theorem populate?_balances : Balances text (populate? bound) := by
  refine fun opened cursor => .peek (.peekAt ?_)
  split
  · refine Tracks.bind (Tracks.expect rfl) (fun openedAt => ?_) cursor
    refine (populateSource_balances _).bind fun source => ?_
    exact (Tracks.expectClosing rfl openedAt).bind fun _ => Balances.pure opened
  · exact Balances.pure opened cursor

theorem implementing_balances (name : Identifier) : Balances text (implementing name bound) := by
  refine Balances.identifier.bind fun parent => ?_
  exact populate?_balances.bind fun populate => .pure

section Blocks

include hinner

theorem plainBlock_balances (name : Identifier) : Balances text (plainBlock inner name bound) := by
  refine (Balances.many rfl .identifier bound).bind fun verbs => ?_
  refine (Balances.delimited rfl .identifier bound).bind fun arguments opened => ?_
  refine (Tracks.expect rfl).bind fun openedAt => ?_
  refine (bodyAfter?_balances hinner _ _).bind fun init => ?_
  exact (bodyRest_tracks hinner opened openedAt).bind fun program => Balances.pure opened

theorem block_balances : Balances text (block inner bound) := by
  refine Balances.identifier.bind fun name => (Balances.eat? rfl).bind fun implements => ?_
  split
  · exact implementing_balances name
  · exact plainBlock_balances hinner name

end Blocks

/-! ## Statements that start with an expression -/

theorem assignment_balances (target : Expression) : Balances text (assignment target bound) := by
  unfold assignment
  split
  · exact (expression_balances bound).bind fun value => .pure
  · exact .reject nofun

theorem change_balances (op : QuantityOp) (target : Expression) :
    Balances text (change op target bound) := by
  unfold change
  split
  · exact (expression_balances bound).bind fun operand => .pure
  · exact .pure

theorem expressionStatement_balances : Balances text (expressionStatement bound) := by
  refine (expression_balances bound).bind fun target opened cursor => .peek ?_
  split
  · rename_i hkind
    refine (TracksAt.skip hkind rfl).bind fun _ => ?_
    exact assignment_balances target opened
  · rename_i hkind
    refine (TracksAt.skip hkind rfl).bind fun _ => ?_
    exact change_balances _ target opened
  · split
    · exact Balances.pure opened cursor
    · exact .here (.reject nofun)

/-! ## Statements -/

include hinner in
theorem statementOver_balances : Balances text (statementOver inner bound) := by
  refine fun opened cursor => .here (.peek ?_)
  split
  · exact declaration_balances ‹_› opened .const
  · exact declaration_balances ‹_› opened .let
  · exact branch_balances hinner opened cursor
  · exact repeatWhile_balances hinner opened cursor
  · exact repeatFor_balances hinner opened cursor
  · exact switch_balances hinner opened cursor
  · exact exit_balances ‹_› opened .return
  · exact exit_balances ‹_› opened .throw
  · rename_i hkind
    exact (TracksAt.skip hkind rfl).bind fun _ => Balances.pure opened
  · have hblock : Tracks text opened (fun _ => opened) standsAtBlock := fun _ h => h
    refine hblock.bind (fun declares => ?_) cursor
    split
    · exact block_balances hinner opened
    · exact expressionStatement_balances opened
  · exact expressionStatement_balances opened cursor
  · exact expressionStatement_balances opened cursor
  · exact expressionStatement_balances opened cursor
  · exact expressionStatement_balances opened cursor
  · exact .reject nofun

end Statements

theorem statement_balances (bound : Nat) : Balances text (statement bound) := by
  induction bound with
  | zero => exact fun _ _ _ => trivial
  | succ bound ih => exact statementOver_balances ih

/-! ## Programs -/

theorem importRequest_balances : Balances text importRequest := by
  refine (Balances.expect rfl).bind fun position opened cursor => .here (.peek ?_)
  split
  · rename_i hkind
    exact (TracksAt.skip hkind rfl).bind fun _ => Balances.pure opened
  · exact .reject nofun

theorem programRest_balances {inner : Parser Statement} (hinner : Balances text inner)
    (inHeader : Bool) : Balances text (programRest inner bound inHeader) := by
  induction bound generalizing inHeader with
  | zero => exact .exhausted
  | succ bound ih =>
      refine Balances.peek fun kind => ?_
      split
      · exact .pure
      · split
        · exact importRequest_balances.bind fun request => (ih inHeader).bind fun rest => .pure
        · exact hinner.bind fun first => (ih _).bind fun rest => .pure

/-! ## Whole texts -/

/-- Nothing is open at the start of a text. -/
theorem Cursor.amid_ofTokens (tokens : List Token) :
    (Cursor.ofTokens tokens).Amid (Cursor.ofTokens tokens) [] where
  stop := rfl
  endless token hmem := by simpa using List.mem_takeWhile_imp hmem
  behind := ⟨[], rfl, .ground .nil⟩

/-- A text goes on behind what is read of it with its first end of the file, or not at all, and its
end is there or at its last token. -/
theorem Cursor.ofTokens_behind {tokens : List Token} (some' : tokens ≠ []) :
    ∃ behind, tokens = (Cursor.ofTokens tokens).tokens ++ behind ∧
      (∀ ending ∈ behind.head?, ending.kind = .endOfFile) ∧
      (behind.head?.or tokens.getLast?).map Token.position = some (Cursor.ofTokens tokens).stop := by
  have hfind := List.find?_eq_head?_dropWhile_not (fun token : Token => token.kind = .endOfFile) tokens
  refine ⟨tokens.dropWhile fun token => !decide (token.kind = .endOfFile), ?_, ?_, ?_⟩
  · simp only [ofTokens, decide_not, List.takeWhile_append_dropWhile]
  · rw [← hfind]
    intro ending hending
    simpa using List.find?_some hending
  · rw [← hfind]
    unfold ofTokens
    cases tokens.find? fun token => token.kind = .endOfFile with
    | some ending => rfl
    | none =>
        cases hlast : tokens.getLast? with
        | some last => rfl
        | none => exact absurd (List.getLast?_eq_none_iff.1 hlast) some'

/-- A bracket that is blamed for not being closed is the innermost one that is open: it stands in the
text where the error says it was opened, everything that was opened behind it has been closed, and
the error is where the text ends, at the first end of the file or at the last token of a text
without one. -/
theorem unclosed_delimiters_are_innermost {tokens : List Token} {error : SyntaxError}
    {opening : Mark} {openedAt : Position} (herror : Program.ofTokens tokens = .error error)
    (hcause : error.cause = .unclosedDelimiter opening openedAt) :
    opening ∈ [Mark.leftParen, Mark.leftBracket, Mark.leftBrace] ∧
      ∃ before inside behind, tokens = before ++ ⟨.mark opening, openedAt⟩ :: inside ++ behind ∧
        Balanced inside ∧ Endless before ∧ Endless inside ∧
        (∀ ending ∈ behind.head?, ending.kind = .endOfFile) ∧
        (behind.head?.or tokens.getLast?).map Token.position = some error.position := by
  have hamid := Cursor.amid_ofTokens tokens
  have hbalances (bound : Nat) : Balances (Cursor.ofTokens tokens) (program bound) :=
    programRest_balances (statement_balances bound) true
  have hread := hbalances (sufficientBound (Cursor.ofTokens tokens).tokens.length) [] _ hamid
  rw [rejected_of_ofTokens herror] at hread
  rcases hread opening openedAt hcause with ⟨hposition, outer, hlayers⟩
  rcases hamid with ⟨-, endless, -⟩
  generalize htaken : (Cursor.ofTokens tokens).tokens = taken at hlayers endless
  cases hlayers with
  | @within _ closing _ before inside below opens balanced =>
      have some' : tokens ≠ [] := by
        rintro rfl
        simp [Cursor.ofTokens] at htaken
      rcases Cursor.ofTokens_behind some' with ⟨behind, hsplit, hbehind, hstop⟩
      rw [htaken] at hsplit
      refine ⟨Mark.mem_of_closing? opens, before, inside, behind, hsplit, balanced, ?_, ?_, hbehind,
        hposition ▸ hstop⟩
      · exact fun token hmem => endless token (List.mem_append_left _ hmem)
      · exact fun token hmem => endless token
          (List.mem_append_right _ (List.mem_cons_of_mem _ hmem))

/-- A block that ends in the body of a branch, behind a call with its argument: the brace of the branch
is to blame, and not that of the block. -/
theorem unclosed_delimiters_are_innermost_of_branch :
    ∃ tokens error, Program.ofTokens tokens = .error error ∧
      error.cause = .unclosedDelimiter .leftBrace ⟨1, 8⟩ ∧
      ∃ before inside behind,
        tokens = before ++ ⟨.mark .leftBrace, ⟨1, 8⟩⟩ :: inside ++ behind ∧ Balanced inside ∧
        (behind.head?.or tokens.getLast?).map Token.position = some error.position := by
  let tokens : List Token :=
    [⟨.identifier "f" false, ⟨1, 1⟩⟩, ⟨.mark .leftBracket, ⟨1, 2⟩⟩,
      ⟨.identifier "a" false, ⟨1, 3⟩⟩, ⟨.mark .rightBracket, ⟨1, 4⟩⟩, ⟨.mark .leftBrace, ⟨1, 5⟩⟩,
      ⟨.keyword .if, ⟨1, 6⟩⟩, ⟨.integer 1, ⟨1, 7⟩⟩, ⟨.mark .leftBrace, ⟨1, 8⟩⟩,
      ⟨.identifier "g" false, ⟨1, 9⟩⟩, ⟨.mark .leftParen, ⟨1, 10⟩⟩, ⟨.integer 2, ⟨1, 11⟩⟩,
      ⟨.mark .rightParen, ⟨1, 12⟩⟩, ⟨.endOfFile, ⟨1, 13⟩⟩]
  have hread : Program.ofTokens tokens =
      .error ⟨.unclosedDelimiter .leftBrace ⟨1, 8⟩, ⟨1, 13⟩⟩ := rfl
  rcases unclosed_delimiters_are_innermost hread rfl with
    ⟨-, before, inside, behind, hsplit, balanced, -, -, -, hend⟩
  exact ⟨tokens, _, hread, rfl, before, inside, behind, hsplit, balanced, hend⟩

end Grammar
end Bir
