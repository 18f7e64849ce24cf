import Bir.Grammar.Program
import Bir.Proofs.Layout.Basic

/-!
# Layout — the grammar looks at no positions

A parser hands positions on from the tokens to the tree and to its errors; which way it goes depends
on the kinds of the tokens alone.  This file defines:

* `Cursor.unplaced` and `Reading.unplaced`;
* `Parser.Unplaced strip parser parser'` — `parser'` makes of tokens without positions what
  `parser` makes of the tokens, without positions.

There is one rule for each step and loop, then one lemma for each production of the grammar, up to
`Program.ofTokens_unplaced`.
-/

namespace Bir

/-- Whether a token is a name. -/
def Token.Kind.isIdentifier : Token.Kind → Bool
  | .identifier _ _ => true
  | _ => false

namespace Grammar

/-- A cursor without positions. -/
def Cursor.unplaced (cursor : Cursor) : Cursor where
  tokens := cursor.tokens.map Token.unplaced
  stop := .synthetic

namespace Cursor

variable (cursor : Cursor)

@[simp]
theorem tokens_unplaced : cursor.unplaced.tokens = cursor.tokens.map Token.unplaced := rfl

@[simp]
theorem kind_unplaced : cursor.unplaced.kind = cursor.kind := by
  unfold Cursor.kind
  cases h : cursor.tokens <;> simp [h]

@[simp]
theorem kindAt_unplaced (ahead : Nat) : cursor.unplaced.kindAt ahead = cursor.kindAt ahead := by
  unfold Cursor.kindAt
  cases h : cursor.tokens[ahead]? <;> simp [h]

@[simp]
theorem position_unplaced : cursor.unplaced.position = .synthetic := by
  unfold Cursor.position
  cases h : cursor.tokens <;> simp [h, Cursor.unplaced]

@[simp]
theorem next_unplaced : cursor.unplaced.next = cursor.next.unplaced := by
  simp [Cursor.next, Cursor.unplaced]

/-- The tokens before the end of the file do not depend on where it stands. -/
theorem ofTokens_unplaced (tokens : List Token) :
    (Cursor.ofTokens (tokens.map Token.unplaced)).unplaced = (Cursor.ofTokens tokens).unplaced := by
  simp only [Cursor.ofTokens, Cursor.unplaced, List.takeWhile_map, List.map_map]
  rfl

end Cursor

/-- A reading without positions; `strip` takes those of the value away. -/
def Reading.unplaced {α : Type} (strip : α → α) : Reading α → Reading α
  | .accepted value rest => .accepted (strip value) rest.unplaced
  | .rejected error => .rejected error.unplaced
  | .exhausted => .exhausted

namespace Parser

variable {α β : Type}

/-- What one parser makes of tokens without positions is what another one makes of the tokens,
without positions. -/
def Unplaced (strip : α → α) (parser parser' : Parser α) : Prop :=
  ∀ cursor : Cursor, parser' cursor.unplaced = (parser cursor).unplaced strip

namespace Unplaced

variable {strip : α → α} {strip' : β → β} {item item' : Parser α}

/-! ## Steps -/

theorem pure {value : α} : Unplaced strip (pure value) (pure (strip value)) := fun _ => rfl

theorem bind {next next' : α → Parser β} (hitem : Unplaced strip item item')
    (hnext : ∀ value, Unplaced strip' (next value) (next' (strip value))) :
    Unplaced strip' (item >>= next) (item' >>= next') := by
  intro cursor
  change Parser.bind item' next' cursor.unplaced = (Parser.bind item next cursor).unplaced strip'
  unfold Parser.bind
  rw [hitem cursor]
  cases item cursor with
  | accepted value rest => exact hnext value rest
  | rejected error => rfl
  | exhausted => rfl

theorem exhausted : Unplaced strip Parser.exhausted Parser.exhausted := fun _ => rfl

theorem reject (cause : SyntaxError.Cause) (position : Position) :
    Unplaced strip (Parser.reject cause position) (Parser.reject cause.unplaced .synthetic) :=
  fun _ => rfl

theorem skip : Unplaced (fun value => value) Parser.skip Parser.skip := by
  intro cursor
  simp [Parser.skip, Reading.unplaced]

theorem peek : Unplaced (fun kind => kind) Parser.peek Parser.peek := by
  intro cursor
  simp [Parser.peek, Reading.unplaced]

theorem peekAt (ahead : Nat) :
    Unplaced (fun kind => kind) (Parser.peekAt ahead) (Parser.peekAt ahead) := by
  intro cursor
  simp [Parser.peekAt, Reading.unplaced]

theorem here : Unplaced (fun _ => .synthetic) Parser.here Parser.here := by
  intro cursor
  simp [Parser.here, Reading.unplaced]

theorem eat? (kind : Token.Kind) :
    Unplaced (fun found => found) (Parser.eat? kind) (Parser.eat? kind) := by
  intro cursor
  unfold Parser.eat?
  rw [Cursor.kind_unplaced]
  split <;> simp [Reading.unplaced]

theorem expect (kind : Token.Kind) :
    Unplaced (fun _ => .synthetic) (Parser.expect kind) (Parser.expect kind) := by
  intro cursor
  unfold Parser.expect
  rw [Cursor.kind_unplaced]
  split <;> simp [Reading.unplaced, SyntaxError.unplaced, SyntaxError.Cause.unplaced]

theorem expectClosing (opening closing : Mark) (openedAt : Position) :
    Unplaced (fun value => value) (Parser.expectClosing opening closing openedAt)
      (Parser.expectClosing opening closing .synthetic) := by
  intro cursor
  unfold Parser.expectClosing
  rw [Cursor.kind_unplaced]
  split
  · simp [Reading.unplaced, SyntaxError.unplaced, SyntaxError.Cause.unplaced]
  · split <;> simp [Reading.unplaced, SyntaxError.unplaced, SyntaxError.Cause.unplaced]

theorem identifier : Unplaced Identifier.unplaced Parser.identifier Parser.identifier := by
  intro cursor
  unfold Parser.identifier
  rw [Cursor.kind_unplaced]
  split <;> simp [Reading.unplaced, Identifier.unplaced, SyntaxError.unplaced,
    SyntaxError.Cause.unplaced]

/-! ## Loops -/

theorem many (start : Token.Kind) (hitem : Unplaced strip item item') (bound : Nat) :
    Unplaced (List.map strip) (Parser.many start item bound) (Parser.many start item' bound) := by
  induction bound with
  | zero => exact exhausted
  | succ bound ih =>
      refine (eat? start).bind fun started => ?_
      split
      · exact hitem.bind fun first => ih.bind fun rest => pure
      · exact pure

theorem separated (closing : Mark) (hitem : Unplaced strip item item') (bound : Nat) :
    Unplaced (List.map strip) (Parser.separated closing item bound)
      (Parser.separated closing item' bound) := by
  refine peek.bind fun kind => ?_
  split
  · exact pure
  · exact hitem.bind fun first => (many _ hitem bound).bind fun rest => pure

theorem delimited (opening closing : Mark) (hitem : Unplaced strip item item') (bound : Nat) :
    Unplaced (List.map strip) (Parser.delimited opening closing item bound)
      (Parser.delimited opening closing item' bound) := by
  refine (expect _).bind fun openedAt => (separated closing hitem bound).bind fun items => ?_
  exact (expectClosing opening closing openedAt).bind fun _ => pure

end Unplaced

end Parser

open Bir.Grammar.Parser

/-! ## Expressions -/

/-- Expressions that are read with their positions and without. -/
abbrev ReadsUnplaced (parser parser' : Parser Expression) : Prop :=
  parser.Unplaced Expression.unplaced parser'

/-- Wherever an operation stands, it is without positions what is made of its operands. -/
theorem arithmetic_unplaced (op : ArithmeticOp) (left right : Expression) (position : Position) :
    (@Expression.arithmetic op left right position).unplaced =
      arithmetic op left.unplaced right.unplaced := by
  simp [arithmetic, Expression.unplaced]

theorem condition_unplaced (op : ConditionOp) (left right : Expression) (position : Position) :
    (@Expression.condition op left right position).unplaced =
      condition op left.unplaced right.unplaced := by
  simp [condition, Expression.unplaced]

theorem logarithm_unplaced (operand : Expression) (keyword position : Position) :
    (@Expression.logarithm operand keyword position).unplaced =
      logarithm operand.unplaced .synthetic := by
  simp [logarithm, Expression.unplaced]

/-- A level joins operands without positions to what it joins them to, without positions. -/
def Join.Unplaced (join : Join) : Prop :=
  ∀ kind combine, join kind = some combine → ∀ left right : Expression,
    (combine left right).unplaced = combine left.unplaced right.unplaced

theorem conditionJoin_unplaced : conditionJoin.Unplaced := by
  intro kind combine hjoin left right
  unfold conditionJoin at hjoin
  split at hjoin <;> cases hjoin
  exact condition_unplaced _ left right _

theorem sumJoin_unplaced : sumJoin.Unplaced := by
  intro kind combine hjoin left right
  unfold sumJoin at hjoin
  split at hjoin <;> cases hjoin <;> exact arithmetic_unplaced _ left right _

theorem productJoin_unplaced : productJoin.Unplaced := by
  intro kind combine hjoin left right
  unfold productJoin at hjoin
  split at hjoin <;> cases hjoin <;> exact arithmetic_unplaced _ left right _

theorem powerJoin_unplaced : powerJoin.Unplaced := by
  intro kind combine hjoin left right
  unfold powerJoin at hjoin
  split at hjoin <;> cases hjoin <;> exact arithmetic_unplaced _ left right _

section Levels

variable {join : Join} {operand : Parser Expression} (bound : Nat)

theorem chainRest_unplaced (hjoin : join.Unplaced) (hoperand : ReadsUnplaced operand operand)
    (left : Expression) :
    ReadsUnplaced (chainRest join operand bound left)
      (chainRest join operand bound left.unplaced) := by
  induction bound generalizing left with
  | zero => exact .exhausted
  | succ bound ih =>
      refine Unplaced.peek.bind fun kind => ?_
      cases hcombine : join kind with
      | none => exact .pure
      | some combine =>
          refine Unplaced.skip.bind fun _ => hoperand.bind fun right => ?_
          rw [← hjoin kind combine hcombine]
          exact ih (combine left right)

theorem chain_unplaced (hjoin : join.Unplaced) (hoperand : ReadsUnplaced operand operand) :
    ReadsUnplaced (chain join operand bound) (chain join operand bound) :=
  hoperand.bind fun left => chainRest_unplaced bound hjoin hoperand left

theorem powers_unplaced (hoperand : ReadsUnplaced operand operand) :
    ReadsUnplaced (powers operand bound) (powers operand bound) := by
  induction bound with
  | zero => exact .exhausted
  | succ bound ih =>
      refine hoperand.bind fun base => Unplaced.peek.bind fun kind => ?_
      split
      · refine Unplaced.here.bind fun position => Unplaced.skip.bind fun _ => ?_
        rw [← logarithm_unplaced base position base.position]
        exact .pure
      · cases hcombine : powerJoin kind with
        | none => exact .pure
        | some combine =>
            refine Unplaced.skip.bind fun _ => ih.bind fun right => ?_
            rw [← powerJoin_unplaced kind combine hcombine]
            exact .pure

end Levels

section Operands

variable {inner : Parser Expression} (hinner : ReadsUnplaced inner inner) (bound : Nat)
include hinner

theorem callArguments_unplaced :
    (callArguments inner bound).Unplaced (List.map Expression.unplaced)
      (callArguments inner bound) :=
  .delimited _ _ hinner bound

theorem primary_unplaced : ReadsUnplaced (primary inner bound) (primary inner bound) := by
  refine Unplaced.here.bind fun position => Unplaced.peek.bind fun kind => ?_
  cases kind with
  | integer value => exact Unplaced.skip.bind fun _ => .pure
  | identifier name negative => exact Unplaced.skip.bind fun _ => .pure
  | mark sign =>
      cases sign with
      | leftBrace =>
          refine Unplaced.skip.bind fun _ => hinner.bind fun grouped => ?_
          exact (Unplaced.expectClosing _ _ position).bind fun _ => .pure
      | _ => exact .reject _ position
  | slot op =>
      refine Unplaced.skip.bind fun _ => ?_
      refine (callArguments_unplaced hinner bound).bind fun arguments => ?_
      rw [← Expression.unplacedAll_eq_map]
      exact .pure
  | _ => exact .reject _ position

theorem call_unplaced : ReadsUnplaced (call inner bound) (call inner bound) := by
  refine Unplaced.identifier.bind fun name => ?_
  refine (Unplaced.many _ (primary_unplaced hinner bound) bound).bind fun verbs => ?_
  refine (callArguments_unplaced hinner bound).bind fun arguments => ?_
  rw [← Expression.unplacedAll_eq_map, ← Expression.unplacedAll_eq_map]
  exact .pure

theorem operand_unplaced : ReadsUnplaced (operand inner bound) (operand inner bound) := by
  refine Unplaced.peek.bind fun kind => (Unplaced.peekAt 1).bind fun following => ?_
  split
  · exact call_unplaced hinner bound
  · split
    · refine Unplaced.here.bind fun position => Unplaced.skip.bind fun _ => ?_
      exact .pure
    · exact primary_unplaced hinner bound

theorem expressionOver_unplaced :
    ReadsUnplaced (expressionOver inner bound) (expressionOver inner bound) :=
  chain_unplaced bound conditionJoin_unplaced <| chain_unplaced bound sumJoin_unplaced <|
    chain_unplaced bound productJoin_unplaced <| powers_unplaced bound <|
      operand_unplaced hinner bound

end Operands

theorem expression_unplaced (bound : Nat) :
    ReadsUnplaced (expression bound) (expression bound) := by
  induction bound with
  | zero => exact fun _ => rfl
  | succ bound ih => exact expressionOver_unplaced ih bound

/-! ## Bodies -/

section Statements

/-- Statements that are read with their positions and without. -/
abbrev RunsUnplaced (parser parser' : Parser Statement) : Prop :=
  parser.Unplaced Statement.unplaced parser'

variable {inner : Parser Statement} (hinner : RunsUnplaced inner inner) (bound : Nat)

section Bodies

include hinner

theorem statementsUntilClose_unplaced :
    (statementsUntilClose inner bound).Unplaced (List.map Statement.unplaced)
      (statementsUntilClose inner bound) := by
  induction bound with
  | zero => exact .exhausted
  | succ bound ih =>
      refine Unplaced.peek.bind fun kind => ?_
      split
      · exact .pure
      · exact hinner.bind fun first => ih.bind fun rest => .pure

theorem bodyRest_unplaced (openedAt : Position) :
    (bodyRest inner bound openedAt).Unplaced (List.map Statement.unplaced)
      (bodyRest inner bound .synthetic) := by
  refine (statementsUntilClose_unplaced hinner bound).bind fun statements => ?_
  exact (Unplaced.expectClosing _ _ openedAt).bind fun _ => .pure

theorem body_unplaced :
    (body inner bound).Unplaced (List.map Statement.unplaced) (body inner bound) :=
  (Unplaced.expect _).bind fun openedAt => bodyRest_unplaced hinner bound openedAt

theorem bodyAfter?_unplaced (word : Keyword) :
    (bodyAfter? word inner bound).Unplaced (Option.map (List.map Statement.unplaced))
      (bodyAfter? word inner bound) := by
  refine (Unplaced.eat? _).bind fun started => ?_
  split
  · exact (body_unplaced hinner bound).bind fun statements => .pure
  · exact .pure

theorem arm_unplaced :
    (arm inner bound).Unplaced Statement.unplacedArm (arm inner bound) := by
  refine (expression_unplaced bound).bind fun test => ?_
  refine (body_unplaced hinner bound).bind fun statements => ?_
  rw [← Statement.unplacedBody_eq_map]
  exact .pure

end Bodies

/-! ## Statements with a keyword -/

theorem declaration_unplaced (kind : BindingKind) :
    RunsUnplaced (declaration kind bound) (declaration kind bound) := by
  refine Unplaced.here.bind fun keyword => Unplaced.skip.bind fun _ => ?_
  refine Unplaced.identifier.bind fun name => (Unplaced.expect _).bind fun _ => ?_
  exact (expression_unplaced bound).bind fun value => .pure

theorem exit_unplaced (way : Exit) : RunsUnplaced (exit way bound) (exit way bound) := by
  refine Unplaced.here.bind fun keyword => Unplaced.skip.bind fun _ => ?_
  exact (expression_unplaced bound).bind fun value => .pure

section Keywords

include hinner

theorem branch_unplaced : RunsUnplaced (branch inner bound) (branch inner bound) := by
  refine (Unplaced.expect _).bind fun keyword => ?_
  refine (arm_unplaced hinner bound).bind fun (condition, statements) => ?_
  refine (Unplaced.many _ (arm_unplaced hinner bound) bound).bind fun elifs => ?_
  refine (bodyAfter?_unplaced hinner bound _).bind fun otherwise => ?_
  rw [← Statement.unplacedArms_eq_map, ← Statement.unplacedRest_eq_map]
  exact .pure

theorem repeatWhile_unplaced :
    RunsUnplaced (repeatWhile inner bound) (repeatWhile inner bound) := by
  refine (Unplaced.expect _).bind fun keyword => ?_
  refine (arm_unplaced hinner bound).bind fun (condition, statements) => ?_
  exact .pure

theorem repeatFor_unplaced : RunsUnplaced (repeatFor inner bound) (repeatFor inner bound) := by
  refine (Unplaced.expect _).bind fun keyword => ?_
  refine (expression_unplaced bound).bind fun count => (Unplaced.expect _).bind fun _ => ?_
  refine Unplaced.identifier.bind fun placeholder => ?_
  refine (body_unplaced hinner bound).bind fun statements => ?_
  rw [← Statement.unplacedBody_eq_map]
  exact .pure

theorem switch_unplaced : RunsUnplaced (switch inner bound) (switch inner bound) := by
  refine (Unplaced.expect _).bind fun keyword => ?_
  refine (expression_unplaced bound).bind fun condition => ?_
  refine (Unplaced.expect _).bind fun openedAt => ?_
  refine (Unplaced.many _ (arm_unplaced hinner bound) bound).bind fun arms => ?_
  refine (bodyAfter?_unplaced hinner bound _).bind fun otherwise => ?_
  refine (Unplaced.expectClosing _ _ openedAt).bind fun _ => ?_
  rw [← Statement.unplacedArms_eq_map, ← Statement.unplacedRest_eq_map]
  exact .pure

end Keywords

/-! ## Blocks -/

theorem verbsThenBracket_unplaced (tokens : List Token) :
    verbsThenBracket (tokens.map Token.unplaced) = verbsThenBracket tokens := by
  fun_induction verbsThenBracket tokens with
  | case1 _ _ _ _ rest ih => simpa [verbsThenBracket, Token.unplaced] using ih
  | case2 => simp [verbsThenBracket, Token.unplaced]
  | case3 tokens noVerb noBracket =>
      unfold verbsThenBracket
      split
      · rename_i hcolon
        simp only [List.map_eq_cons_iff, Token.unplaced, Token.mk.injEq] at hcolon
        obtain ⟨⟨_, _⟩, _, rfl, ⟨rfl, -⟩, ⟨_, _⟩, _, rfl, ⟨rfl, -⟩, -⟩ := hcolon
        exact absurd rfl (noVerb _ _ _ _ _)
      · rename_i hbracket
        simp only [List.map_eq_cons_iff, Token.unplaced, Token.mk.injEq] at hbracket
        obtain ⟨⟨_, _⟩, _, rfl, ⟨rfl, -⟩, -⟩ := hbracket
        exact absurd rfl (noBracket _ _)
      · rfl

/-- A declaration of a block starts with a name and the word `implements`, or with a name and what
stands before the body of the block. -/
theorem startsBlock_eq (cursor : Cursor) :
    startsBlock cursor = (cursor.kind.isIdentifier &&
      (decide (cursor.next.kind = .keyword .implements) ||
        verbsThenBracket cursor.next.tokens)) := by
  obtain ⟨tokens, stop⟩ := cursor
  unfold startsBlock Cursor.kind Cursor.next
  split
  · rename_i htokens
    cases htokens
    simp [Token.Kind.isIdentifier]
  · rename_i rest noWord htokens
    cases htokens
    cases rest with
    | nil => simp [Token.Kind.isIdentifier]
    | cons second rest =>
        obtain ⟨kind, position⟩ := second
        have hkind : kind ≠ .keyword .implements := by
          rintro rfl
          exact noWord _ _ rfl
        simp [Token.Kind.isIdentifier, hkind]
  · rename_i noWord noName
    cases tokens with
    | nil => rfl
    | cons first rest =>
        obtain ⟨kind, position⟩ := first
        cases kind with
        | identifier name negative => exact absurd rfl (noName _ _ _ _)
        | _ => rfl

theorem startsBlock_unplaced (cursor : Cursor) :
    startsBlock cursor.unplaced = startsBlock cursor := by
  rw [startsBlock_eq, startsBlock_eq, Cursor.kind_unplaced, Cursor.next_unplaced,
    Cursor.kind_unplaced, Cursor.tokens_unplaced, verbsThenBracket_unplaced]

theorem standsAtBlock_unplaced :
    standsAtBlock.Unplaced (fun declares => declares) standsAtBlock := by
  intro cursor
  simp [standsAtBlock, startsBlock_unplaced, Reading.unplaced]

theorem populateSource_unplaced :
    (populateSource bound).Unplaced Populate.unplaced (populateSource bound) := by
  refine Unplaced.peek.bind fun kind => ?_
  split
  · exact Unplaced.skip.bind fun _ => .pure
  · exact (Unplaced.delimited _ _ (expression_unplaced bound) bound).bind fun elements =>
      .pure

theorem populate?_unplaced :
    (populate? bound).Unplaced (Option.map Populate.unplaced) (populate? bound) := by
  refine Unplaced.peek.bind fun kind => (Unplaced.peekAt 1).bind fun following => ?_
  split
  · refine (Unplaced.expect _).bind fun openedAt => ?_
    refine (populateSource_unplaced bound).bind fun source => ?_
    exact (Unplaced.expectClosing _ _ openedAt).bind fun _ => .pure
  · exact .pure

theorem implementing_unplaced (name : Identifier) :
    RunsUnplaced (implementing name bound) (implementing name.unplaced bound) := by
  refine Unplaced.identifier.bind fun parent => ?_
  exact (populate?_unplaced bound).bind fun populate => .pure

section Blocks

include hinner

theorem plainBlock_unplaced (name : Identifier) :
    RunsUnplaced (plainBlock inner name bound) (plainBlock inner name.unplaced bound) := by
  refine (Unplaced.many _ .identifier bound).bind fun verbs => ?_
  refine (Unplaced.delimited _ _ .identifier bound).bind fun arguments => ?_
  refine (Unplaced.expect _).bind fun openedAt => ?_
  refine (bodyAfter?_unplaced hinner bound _).bind fun init => ?_
  refine (bodyRest_unplaced hinner bound openedAt).bind fun program => ?_
  rw [← Statement.unplacedBody_eq_map, ← Statement.unplacedRest_eq_map]
  exact .pure

theorem block_unplaced : RunsUnplaced (block inner bound) (block inner bound) := by
  refine Unplaced.identifier.bind fun name => (Unplaced.eat? _).bind fun implements => ?_
  split
  · exact implementing_unplaced bound name
  · exact plainBlock_unplaced hinner bound name

end Blocks

/-! ## Statements that start with an expression -/

@[simp]
theorem isEffect_unplaced (expression : Expression) :
    isEffect expression.unplaced = isEffect expression := by
  cases expression <;> rfl

/-- Nothing but a name is assigned to. -/
theorem assignment_of_reference? {target : Expression} (h : target.reference? = none) :
    assignment target bound = reject .assignmentToExpression target.position := by
  cases target with
  | reference name => cases h
  | _ => rfl

theorem assignment_unplaced (target : Expression) :
    RunsUnplaced (assignment target bound) (assignment target.unplaced bound) := by
  cases target with
  | reference name => exact (expression_unplaced bound).bind fun value => .pure
  | _ =>
      rw [assignment_of_reference? bound rfl, assignment_of_reference? bound rfl,
        Expression.position_unplaced]
      exact .reject _ _

theorem change_unplaced (op : QuantityOp) (target : Expression) :
    RunsUnplaced (change op target bound) (change op target.unplaced bound) := by
  unfold change
  rw [Expression.position_unplaced]
  split
  · exact (expression_unplaced bound).bind fun operand => .pure
  · exact .pure

theorem expressionStatement_unplaced :
    RunsUnplaced (expressionStatement bound) (expressionStatement bound) := by
  refine (expression_unplaced bound).bind fun target => Unplaced.peek.bind fun kind => ?_
  split
  · exact Unplaced.skip.bind fun _ => assignment_unplaced bound target
  · exact Unplaced.skip.bind fun _ => change_unplaced bound _ target
  · rw [isEffect_unplaced, Expression.position_unplaced]
    split
    · exact .pure
    · exact Unplaced.here.bind fun position => .reject _ position

/-! ## Statements -/

include hinner in
theorem statementOver_unplaced :
    RunsUnplaced (statementOver inner bound) (statementOver inner bound) := by
  refine Unplaced.here.bind fun position => Unplaced.peek.bind fun kind => ?_
  split
  · exact declaration_unplaced bound .const
  · exact declaration_unplaced bound .let
  · exact branch_unplaced hinner bound
  · exact repeatWhile_unplaced hinner bound
  · exact repeatFor_unplaced hinner bound
  · exact switch_unplaced hinner bound
  · exact exit_unplaced bound .return
  · exact exit_unplaced bound .throw
  · exact Unplaced.skip.bind fun _ => .pure
  · refine standsAtBlock_unplaced.bind fun declares => ?_
    split
    · exact block_unplaced hinner bound
    · exact expressionStatement_unplaced bound
  · exact expressionStatement_unplaced bound
  · exact expressionStatement_unplaced bound
  · exact expressionStatement_unplaced bound
  · exact expressionStatement_unplaced bound
  · exact .reject _ position

end Statements

theorem statement_unplaced (bound : Nat) : RunsUnplaced (statement bound) (statement bound) := by
  induction bound with
  | zero => exact fun _ => rfl
  | succ bound ih => exact statementOver_unplaced ih bound

/-! ## Programs -/

theorem importRequest_unplaced : importRequest.Unplaced Import.unplaced importRequest := by
  refine (Unplaced.expect _).bind fun position => Unplaced.here.bind fun named => ?_
  refine Unplaced.peek.bind fun kind => ?_
  split
  · exact Unplaced.skip.bind fun _ => .pure
  · exact .reject _ named

theorem programRest_unplaced {inner : Parser Statement} (hinner : RunsUnplaced inner inner)
    (bound : Nat) (inHeader : Bool) :
    (programRest inner bound inHeader).Unplaced Program.unplaced
      (programRest inner bound inHeader) := by
  induction bound generalizing inHeader with
  | zero => exact .exhausted
  | succ bound ih =>
      refine Unplaced.peek.bind fun kind => ?_
      split
      · exact .pure
      · split
        · refine importRequest_unplaced.bind fun request => (ih inHeader).bind fun rest => ?_
          exact .pure
        · refine hinner.bind fun first => ?_
          rw [Statement.isComment_unplaced]
          refine (ih _).bind fun rest => ?_
          exact .pure

theorem program_unplaced (bound : Nat) :
    (program bound).Unplaced Program.unplaced (program bound) :=
  programRest_unplaced (statement_unplaced bound) bound true

end Grammar

namespace Program

/-- A program or the error in its place, without positions. -/
def resultUnplaced : Except SyntaxError Program → Except SyntaxError Program
  | .ok program => .ok program.unplaced
  | .error error => .error error.unplaced

theorem resultUnplaced_outcome (cursor : Grammar.Cursor) (reading : Grammar.Reading Program) :
    resultUnplaced (Grammar.outcome cursor reading) =
      Grammar.outcome cursor.unplaced (reading.unplaced unplaced) := by
  cases reading with
  | accepted program rest => rfl
  | rejected error => rfl
  | exhausted =>
      simp [resultUnplaced, Grammar.outcome, Grammar.Reading.unplaced, SyntaxError.unplaced,
        SyntaxError.Cause.unplaced]

/-- Tokens of the same kinds are the same program, or no program for the same reason. -/
theorem ofTokens_unplaced {tokens tokens' : List Token}
    (kinds : tokens.map Token.kind = tokens'.map Token.kind) :
    resultUnplaced (ofTokens tokens) = resultUnplaced (ofTokens tokens') := by
  have hcursor : (Grammar.Cursor.ofTokens tokens).unplaced =
      (Grammar.Cursor.ofTokens tokens').unplaced := by
    rw [← Grammar.Cursor.ofTokens_unplaced, ← Grammar.Cursor.ofTokens_unplaced tokens',
      Token.map_unplaced_eq_iff.2 kinds]
  have hlength : (Grammar.Cursor.ofTokens tokens).tokens.length =
      (Grammar.Cursor.ofTokens tokens').tokens.length := by
    simpa using congrArg (fun cursor : Grammar.Cursor => cursor.tokens.length) hcursor
  simp only [ofTokens, resultUnplaced_outcome]
  rw [← Grammar.program_unplaced, ← Grammar.program_unplaced, hcursor, hlength]

end Program

end Bir
