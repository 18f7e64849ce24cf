import Bir.Grammar.Program
import Bir.Proofs.Source.Parser

/-!
# Grammar — programs say what their tokens say

Every production of the grammar yields a tree whose names and positions are those of the tokens
that it has read, or rejects one of them.  This file goes through the productions in their order,
expressions first, and ends with `Program.ofTokens_readFrom`.
-/

namespace Bir

/-- An expression whose names and positions are those of tokens. -/
abbrev Expression.Written (tokens : List Token) : Expression → Prop :=
  Expression.Throughout (Law.written tokens)

/-- A statement whose names and positions are those of tokens. -/
abbrev Statement.Written (tokens : List Token) : Statement → Prop :=
  Statement.Throughout (Law.written tokens)

/-- A program whose names and positions are those of tokens. -/
structure Program.Written (tokens : List Token) (program : Program) : Prop where
  imports : ∀ request ∈ program.imports, request.position.Written tokens
  statements : ∀ statement ∈ program.statements, statement.Written tokens

namespace Grammar

open Bir.Grammar.Parser

variable {tokens : List Token}

/-! ## Levels of expressions -/

/-- Two operands that are joined at a level say what the operands say. -/
def Join.Faithful (tokens : List Token) (join : Join) : Prop :=
  ∀ kind combine, join kind = some combine → ∀ left right : Expression,
    left.Written tokens → right.Written tokens → (combine left right).Written tokens

/-- An expression that says what tokens say stands where one of them does. -/
theorem stands_written {expression : Expression} (h : expression.Written tokens) :
    expression.position.Written tokens :=
  h.placed (Law.written_places tokens)

theorem written_arithmetic (op : ArithmeticOp) {left right : Expression}
    (hleft : left.Written tokens) (hright : right.Written tokens) :
    (arithmetic op left right).Written tokens := by
  refine .intro nofun (List.forall_mem_singleton.2 (stands_written hleft)) ?_
  intro operand hmem
  rcases List.mem_cons.1 hmem with rfl | hmem
  · exact hleft
  · rw [List.mem_singleton.1 hmem]
    exact hright

theorem written_condition (op : ConditionOp) {left right : Expression}
    (hleft : left.Written tokens) (hright : right.Written tokens) :
    (condition op left right).Written tokens := by
  refine .intro nofun (List.forall_mem_singleton.2 (stands_written hleft)) ?_
  intro operand hmem
  rcases List.mem_cons.1 hmem with rfl | hmem
  · exact hleft
  · rw [List.mem_singleton.1 hmem]
    exact hright

theorem conditionJoin_faithful : Join.Faithful tokens conditionJoin := by
  intro kind combine hjoin left right hleft hright
  unfold conditionJoin at hjoin
  split at hjoin
  · cases hjoin
    exact written_condition _ hleft hright
  · cases hjoin

/-- The other levels join operands by arithmetic. -/
theorem faithful_of_arithmetic {join : Join}
    (h : ∀ kind combine, join kind = some combine → ∃ op, combine = arithmetic op) :
    Join.Faithful tokens join := by
  intro kind combine hjoin left right hleft hright
  obtain ⟨op, rfl⟩ := h kind combine hjoin
  exact written_arithmetic op hleft hright

theorem sumJoin_faithful : Join.Faithful tokens sumJoin := by
  apply faithful_of_arithmetic
  intro kind combine hjoin
  unfold sumJoin at hjoin
  split at hjoin <;> cases hjoin <;> exact ⟨_, rfl⟩

theorem productJoin_faithful : Join.Faithful tokens productJoin := by
  apply faithful_of_arithmetic
  intro kind combine hjoin
  unfold productJoin at hjoin
  split at hjoin <;> cases hjoin <;> exact ⟨_, rfl⟩

theorem powerJoin_faithful : Join.Faithful tokens powerJoin := by
  apply faithful_of_arithmetic
  intro kind combine hjoin
  unfold powerJoin at hjoin
  split at hjoin <;> cases hjoin <;> exact ⟨_, rfl⟩

theorem chainRest_yields {join : Join} {operand : Parser Expression}
    (hjoin : join.Faithful tokens) (hoperand : Yields tokens (Expression.Written tokens) operand)
    (bound : Nat) {left : Expression} (hleft : left.Written tokens) :
    Yields tokens (Expression.Written tokens) (chainRest join operand bound left) := by
  induction bound generalizing left with
  | zero => exact .exhausted
  | succ bound ih =>
      refine Yields.peek.bind fun kind _ => ?_
      split
      · rename_i combine hcombine
        refine Yields.skip.bind fun _ _ => hoperand.bind fun right hright => ?_
        exact ih (hjoin kind combine hcombine left right hleft hright)
      · exact .pure hleft

theorem chain_yields {join : Join} {operand : Parser Expression}
    (hjoin : join.Faithful tokens) (hoperand : Yields tokens (Expression.Written tokens) operand)
    (bound : Nat) : Yields tokens (Expression.Written tokens) (chain join operand bound) :=
  hoperand.bind fun _ hleft => chainRest_yields hjoin hoperand bound hleft

theorem powers_yields {operand : Parser Expression}
    (hoperand : Yields tokens (Expression.Written tokens) operand) (bound : Nat) :
    Yields tokens (Expression.Written tokens) (powers operand bound) := by
  induction bound with
  | zero => exact .exhausted
  | succ bound ih =>
      refine hoperand.bind fun base hbase => Yields.peek.bind fun kind _ => ?_
      split
      · refine Yields.here.bind fun position hposition => Yields.skip.bind fun _ _ => ?_
        refine .pure (.intro nofun ?_ (List.forall_mem_singleton.2 hbase))
        exact List.forall_mem_cons.2
          ⟨hposition, List.forall_mem_singleton.2 (stands_written hbase)⟩
      · split
        · rename_i combine hcombine
          refine Yields.skip.bind fun _ _ => ih.bind fun right hright => ?_
          exact .pure (powerJoin_faithful kind combine hcombine base right hbase hright)
        · exact .pure hbase

/-! ## Operands -/

section Operands

variable {inner : Parser Expression} (hinner : Yields tokens (Expression.Written tokens) inner)
  (bound : Nat)
include hinner

theorem callArguments_yields :
    Yields tokens (fun arguments => ∀ argument ∈ arguments, argument.Written tokens)
      (callArguments inner bound) :=
  .delimited _ _ hinner bound

theorem primary_yields : Yields tokens (Expression.Written tokens) (primary inner bound) := by
  refine .look fun position kind hstands => ?_
  cases kind with
  | integer value =>
      refine Yields.skip.bind fun _ _ => .pure ?_
      exact .intro (by simp [Expression.names])
        (by simpa [Expression.keywords] using hstands.placed) (by simp [Expression.operands])
  | identifier name negative =>
      have hname : Identifier.Written tokens { name, negative, position } :=
        hstands.token (by simp)
      refine Yields.skip.bind fun _ _ => .pure ?_
      exact .intro (by simpa [Expression.names] using hname) (by simp [Expression.keywords])
        (by simp [Expression.operands])
  | slot op =>
      refine Yields.skip.bind fun _ _ => ?_
      refine (callArguments_yields hinner bound).bind fun arguments harguments => .pure ?_
      exact .intro (by simp [Expression.names])
        (by simpa [Expression.keywords] using hstands.placed) harguments
  | mark sign =>
      cases sign with
      | leftBrace =>
          refine Yields.skip.bind fun _ _ => hinner.bind fun grouped hgrouped => ?_
          exact (Yields.expectClosing _ _ _).bind fun _ _ => .pure hgrouped
      | _ => exact .reject _ hstands.placed
  | _ => exact .reject _ hstands.placed

theorem call_yields : Yields tokens (Expression.Written tokens) (call inner bound) := by
  refine Yields.identifier.bind fun name hname => ?_
  refine (Yields.many _ (primary_yields hinner bound) bound).bind fun verbs hverbs => ?_
  refine (callArguments_yields hinner bound).bind fun arguments harguments => .pure ?_
  refine .intro (by simpa [Expression.names] using hname)
    (by simpa [Expression.keywords] using hname.position) ?_
  intro operand hmem
  rcases List.mem_append.1 hmem with hverb | hargument
  · exact hverbs operand hverb
  · exact harguments operand hargument

theorem operand_yields : Yields tokens (Expression.Written tokens) (operand inner bound) := by
  refine Yields.peek.bind fun kind _ => (Yields.peekAt 1).bind fun following _ => ?_
  split
  · exact call_yields hinner bound
  · split
    · refine Yields.here.bind fun position hposition => Yields.skip.bind fun _ _ => .pure ?_
      exact .intro (by simp [Expression.names])
        (by simpa [Expression.keywords] using hposition) (by simp [Expression.operands])
    · exact primary_yields hinner bound

theorem expressionOver_yields :
    Yields tokens (Expression.Written tokens) (expressionOver inner bound) := by
  have hpowers := powers_yields (operand_yields hinner bound) bound
  have hproducts := chain_yields productJoin_faithful hpowers bound
  exact chain_yields conditionJoin_faithful (chain_yields sumJoin_faithful hproducts bound) bound

end Operands

theorem expression_yields (bound : Nat) :
    Yields tokens (Expression.Written tokens) (expression bound) := by
  induction bound with
  | zero => exact fun _ _ => trivial
  | succ bound ih => exact expressionOver_yields ih bound

/-! ## Bodies -/

section Statements

variable {inner : Parser Statement} (hinner : Yields tokens (Statement.Written tokens) inner)
  (bound : Nat)

/-- The statements of a body say what the tokens say. -/
abbrev BodyWritten (tokens : List Token) (statements : List Statement) : Prop :=
  ∀ statement ∈ statements, statement.Written tokens

/-- A test and a body say what the tokens say. -/
abbrev ArmWritten (tokens : List Token) (arm : Expression × List Statement) : Prop :=
  arm.1.Written tokens ∧ BodyWritten tokens arm.2

section Bodies

include hinner

theorem statementsUntilClose_yields :
    Yields tokens (BodyWritten tokens) (statementsUntilClose inner bound) := by
  induction bound with
  | zero => exact .exhausted
  | succ bound ih =>
      refine Yields.peek.bind fun kind _ => ?_
      split
      · exact .pure (by simp [BodyWritten])
      · refine hinner.bind fun first hfirst => ih.bind fun rest hrest => .pure ?_
        intro statement hmem
        rcases List.mem_cons.1 hmem with rfl | hmem
        · exact hfirst
        · exact hrest statement hmem

theorem bodyRest_yields (openedAt : Position) :
    Yields tokens (BodyWritten tokens) (bodyRest inner bound openedAt) := by
  refine (statementsUntilClose_yields hinner bound).bind fun statements hstatements => ?_
  exact (Yields.expectClosing _ _ _).bind fun _ _ => .pure hstatements

theorem body_yields : Yields tokens (BodyWritten tokens) (body inner bound) :=
  (Yields.expect _).bind fun openedAt _ => bodyRest_yields hinner bound openedAt

theorem bodyAfter?_yields (word : Keyword) :
    Yields tokens (fun rest => ∀ body ∈ rest, BodyWritten tokens body)
      (bodyAfter? word inner bound) := by
  refine (Yields.eat? _).bind fun started _ => ?_
  split
  · exact (body_yields hinner bound).bind fun statements hstatements =>
      .pure (by simpa using hstatements)
  · exact .pure (by simp)

theorem arm_yields : Yields tokens (ArmWritten tokens) (arm inner bound) := by
  refine (expression_yields bound).bind fun test htest => ?_
  exact (body_yields hinner bound).bind fun statements hstatements => .pure ⟨htest, hstatements⟩

end Bodies

/-! ## Statements with a keyword -/

theorem declaration_yields (kind : BindingKind) :
    Yields tokens (Statement.Written tokens) (declaration kind bound) := by
  refine Yields.here.bind fun keyword hkeyword => Yields.skip.bind fun _ _ => ?_
  refine Yields.identifier.bind fun name hname => (Yields.expect _).bind fun _ _ => ?_
  refine (expression_yields bound).bind fun value hvalue => .pure ?_
  exact .intro (by simpa [Statement.names] using hname)
    (by simpa [Statement.keywords] using hkeyword) (by simpa [Statement.expressions] using hvalue)
    (by simp [Statement.bodies])

theorem exit_yields (way : Exit) : Yields tokens (Statement.Written tokens) (exit way bound) := by
  refine Yields.here.bind fun keyword hkeyword => Yields.skip.bind fun _ _ => ?_
  refine (expression_yields bound).bind fun value hvalue => .pure ?_
  exact .intro (by simp [Statement.names]) (by simpa [Statement.keywords] using hkeyword)
    (by simpa [Statement.expressions] using hvalue) (by simp [Statement.bodies])

section Keywords

include hinner

theorem branch_yields : Yields tokens (Statement.Written tokens) (branch inner bound) := by
  refine (Yields.expect _).bind fun keyword hkeyword => ?_
  refine (arm_yields hinner bound).bind fun (condition, statements) hfirst => ?_
  refine (Yields.many _ (arm_yields hinner bound) bound).bind fun elifs helifs => ?_
  refine (bodyAfter?_yields hinner bound _).bind fun otherwise hotherwise => .pure ?_
  refine .intro (by simp [Statement.names]) (by simpa [Statement.keywords] using hkeyword) ?_ ?_
  · intro test hmem
    rcases List.mem_cons.1 hmem with rfl | hmem
    · exact hfirst.1
    · obtain ⟨arm, harm, rfl⟩ := List.mem_map.1 hmem
      exact (helifs arm harm).1
  · intro body hmem
    rcases List.mem_cons.1 hmem with rfl | hmem
    · exact hfirst.2
    · rcases List.mem_append.1 hmem with hmem | hmem
      · obtain ⟨arm, harm, rfl⟩ := List.mem_map.1 hmem
        exact (helifs arm harm).2
      · exact hotherwise body (by simpa using hmem)

theorem repeatWhile_yields :
    Yields tokens (Statement.Written tokens) (repeatWhile inner bound) := by
  refine (Yields.expect _).bind fun keyword hkeyword => ?_
  refine (arm_yields hinner bound).bind fun (condition, statements) harm => .pure ?_
  exact .intro (by simp [Statement.names]) (by simpa [Statement.keywords] using hkeyword)
    (by simpa [Statement.expressions] using harm.1) (by simpa [Statement.bodies] using harm.2)

theorem repeatFor_yields : Yields tokens (Statement.Written tokens) (repeatFor inner bound) := by
  refine (Yields.expect _).bind fun keyword hkeyword => ?_
  refine (expression_yields bound).bind fun count hcount => (Yields.expect _).bind fun _ _ => ?_
  refine Yields.identifier.bind fun placeholder hplaceholder => ?_
  refine (body_yields hinner bound).bind fun statements hstatements => .pure ?_
  exact .intro (by simpa [Statement.names] using hplaceholder)
    (by simpa [Statement.keywords] using hkeyword) (by simpa [Statement.expressions] using hcount)
    (by simpa [Statement.bodies] using hstatements)

theorem switch_yields : Yields tokens (Statement.Written tokens) (switch inner bound) := by
  refine (Yields.expect _).bind fun keyword hkeyword => ?_
  refine (expression_yields bound).bind fun condition hcondition => ?_
  refine (Yields.expect _).bind fun openedAt _ => ?_
  refine (Yields.many _ (arm_yields hinner bound) bound).bind fun cases' hcases => ?_
  refine (bodyAfter?_yields hinner bound _).bind fun otherwise hotherwise => ?_
  refine (Yields.expectClosing _ _ _).bind fun _ _ => .pure ?_
  refine .intro (by simp [Statement.names]) (by simpa [Statement.keywords] using hkeyword) ?_ ?_
  · intro test hmem
    rcases List.mem_cons.1 hmem with rfl | hmem
    · exact hcondition
    · obtain ⟨arm, harm, rfl⟩ := List.mem_map.1 hmem
      exact (hcases arm harm).1
  · intro body hmem
    rcases List.mem_append.1 hmem with hmem | hmem
    · obtain ⟨arm, harm, rfl⟩ := List.mem_map.1 hmem
      exact (hcases arm harm).2
    · exact hotherwise body (by simpa using hmem)

end Keywords

/-! ## Blocks -/

theorem populateSource_yields :
    Yields tokens (fun source => ∀ element ∈ source.expressions, element.Written tokens)
      (populateSource bound) := by
  refine Yields.peek.bind fun kind _ => ?_
  split
  · exact Yields.skip.bind fun _ _ => .pure (by simp [Populate.expressions])
  · exact (Yields.delimited _ _ (expression_yields bound) bound).bind fun elements helements =>
      .pure (by simpa [Populate.expressions] using helements)

theorem populate?_yields :
    Yields tokens (fun source => ∀ element ∈ source.elim [] Populate.expressions,
      element.Written tokens) (populate? bound) := by
  refine Yields.peek.bind fun kind _ => (Yields.peekAt 1).bind fun following _ => ?_
  split
  · refine (Yields.expect _).bind fun openedAt _ => ?_
    refine (populateSource_yields bound).bind fun source hsource => ?_
    exact (Yields.expectClosing _ _ _).bind fun _ _ => .pure hsource
  · exact .pure (by simp)

theorem implementing_yields {name : Identifier} (hname : name.Written tokens) :
    Yields tokens (Statement.Written tokens) (implementing name bound) := by
  refine Yields.identifier.bind fun parent hparent => ?_
  refine (populate?_yields bound).bind fun populate hpopulate => .pure ?_
  exact .intro (by simpa [Statement.names] using ⟨hname, hparent⟩)
    (by simpa [Statement.keywords] using hname.position) hpopulate (by simp [Statement.bodies])

section Blocks

include hinner

theorem plainBlock_yields {name : Identifier} (hname : name.Written tokens) :
    Yields tokens (Statement.Written tokens) (plainBlock inner name bound) := by
  refine (Yields.many _ .identifier bound).bind fun verbs hverbs => ?_
  refine (Yields.delimited _ _ .identifier bound).bind fun arguments harguments => ?_
  refine (Yields.expect _).bind fun openedAt _ => ?_
  refine (bodyAfter?_yields hinner bound _).bind fun init hinit => ?_
  refine (bodyRest_yields hinner bound openedAt).bind fun program hprogram => .pure ?_
  refine .intro ?_ (by simpa [Statement.keywords] using hname.position)
    (by simp [Statement.expressions]) ?_
  · intro other hmem
    rcases List.mem_append.1 hmem with hmem | hmem
    · rcases List.mem_cons.1 hmem with rfl | hmem
      · exact hname
      · exact hverbs other hmem
    · exact harguments other hmem
  · intro body hmem
    rcases List.mem_append.1 hmem with hmem | hmem
    · exact hinit body (by simpa using hmem)
    · rw [List.mem_singleton.1 hmem]
      exact hprogram

theorem block_yields : Yields tokens (Statement.Written tokens) (block inner bound) := by
  refine Yields.identifier.bind fun name hname => (Yields.eat? _).bind fun implements _ => ?_
  split
  · exact implementing_yields bound hname
  · exact plainBlock_yields hinner bound hname

end Blocks

/-! ## Statements that start with an expression -/

theorem assignment_yields {target : Expression} (htarget : target.Written tokens) :
    Yields tokens (Statement.Written tokens) (assignment target bound) := by
  unfold assignment
  split
  · rename_i name
    have hposition := stands_written htarget
    cases htarget with
    | intro names _ _ =>
        refine (expression_yields bound).bind fun value hvalue => .pure ?_
        exact .intro names (by simpa [Statement.keywords] using hposition)
          (by simpa [Statement.expressions] using hvalue) (by simp [Statement.bodies])
  · exact .reject _ (stands_written htarget)

theorem change_yields (op : QuantityOp) {target : Expression} (htarget : target.Written tokens) :
    Yields tokens (Statement.Written tokens) (change op target bound) := by
  have hposition := stands_written htarget
  unfold change
  split
  · refine (expression_yields bound).bind fun operand hoperand => .pure ?_
    exact .intro (by simp [Statement.names]) (by simpa [Statement.keywords] using hposition)
      (by simpa [Statement.expressions] using ⟨htarget, hoperand⟩) (by simp [Statement.bodies])
  · exact .pure (.intro (by simp [Statement.names]) (by simpa [Statement.keywords] using hposition)
      (by simpa [Statement.expressions] using htarget) (by simp [Statement.bodies]))

theorem expressionStatement_yields :
    Yields tokens (Statement.Written tokens) (expressionStatement bound) := by
  refine (expression_yields bound).bind fun target htarget => Yields.peek.bind fun kind _ => ?_
  split
  · exact Yields.skip.bind fun _ _ => assignment_yields bound htarget
  · exact Yields.skip.bind fun _ _ => change_yields bound _ htarget
  · split
    · exact .pure (.intro (by simp [Statement.names])
        (by simpa [Statement.keywords] using stands_written htarget)
        (by simpa [Statement.expressions] using htarget) (by simp [Statement.bodies]))
    · exact Yields.here.bind fun position hposition => .reject _ hposition

/-! ## Statements -/

include hinner in
theorem statementOver_yields :
    Yields tokens (Statement.Written tokens) (statementOver inner bound) := by
  refine .look fun position kind hstands => ?_
  split
  · exact declaration_yields bound .const
  · exact declaration_yields bound .let
  · exact branch_yields hinner bound
  · exact repeatWhile_yields hinner bound
  · exact repeatFor_yields hinner bound
  · exact switch_yields hinner bound
  · exact exit_yields bound .return
  · exact exit_yields bound .throw
  · refine Yields.skip.bind fun _ _ => .pure ?_
    exact .intro (by simp [Statement.names]) (by simpa [Statement.keywords] using hstands.placed)
      (by simp [Statement.expressions]) (by simp [Statement.bodies])
  · have hblock : Yields tokens (fun _ => True) standsAtBlock :=
      fun cursor hcursor => ⟨trivial, hcursor⟩
    refine hblock.bind fun declares _ => ?_
    split
    · exact block_yields hinner bound
    · exact expressionStatement_yields bound
  · exact expressionStatement_yields bound
  · exact expressionStatement_yields bound
  · exact expressionStatement_yields bound
  · exact expressionStatement_yields bound
  · exact .reject _ hstands.placed

end Statements

theorem statement_yields (bound : Nat) :
    Yields tokens (Statement.Written tokens) (statement bound) := by
  induction bound with
  | zero => exact fun _ _ => trivial
  | succ bound ih => exact statementOver_yields ih bound

/-! ## Programs -/

theorem importRequest_yields :
    Yields tokens (fun request => request.position.Written tokens) importRequest := by
  refine (Yields.expect _).bind fun position hposition => Yields.here.bind fun named hnamed => ?_
  refine Yields.peek.bind fun kind _ => ?_
  split
  · exact Yields.skip.bind fun _ _ => .pure hposition
  · exact .reject _ hnamed

theorem programRest_yields {inner : Parser Statement}
    (hinner : Yields tokens (Statement.Written tokens) inner) (bound : Nat) (inHeader : Bool) :
    Yields tokens (Program.Written tokens) (programRest inner bound inHeader) := by
  induction bound generalizing inHeader with
  | zero => exact .exhausted
  | succ bound ih =>
      refine Yields.peek.bind fun kind _ => ?_
      split
      · exact .pure ⟨by simp, by simp⟩
      · split
        · refine importRequest_yields.bind fun request hrequest => ?_
          refine (ih inHeader).bind fun rest hrest => .pure ?_
          exact ⟨by simpa using ⟨hrequest, hrest.imports⟩, hrest.statements⟩
        · refine hinner.bind fun first hfirst => (ih _).bind fun rest hrest => .pure ?_
          exact ⟨hrest.imports, by simpa using ⟨hfirst, hrest.statements⟩⟩

/-- The tokens up to the end of the file are tokens, and so is that end. -/
theorem Cursor.ofTokens_within (h : tokens ≠ []) : (Cursor.ofTokens tokens).Within tokens where
  subset token hmem := (List.takeWhile_sublist _).subset hmem
  stop := by
    unfold Cursor.ofTokens
    cases hend : tokens.find? (fun token => token.kind = .endOfFile) with
    | some ending => exact ⟨ending, List.mem_of_find?_eq_some hend, rfl⟩
    | none =>
        cases hlast : tokens.getLast? with
        | some last => exact ⟨last, List.mem_of_getLast? hlast, rfl⟩
        | none => exact absurd (List.getLast?_eq_none_iff.1 hlast) h

end Grammar

/-- What is read from tokens: a program that says what they say, or an error that points to one of
them. -/
def Program.ReadFrom (tokens : List Token) : Except SyntaxError Program → Prop
  | .ok program => program.Written tokens
  | .error error => error.position.Written tokens

theorem Program.ofTokens_readFrom {tokens : List Token} (some' : tokens ≠ []) :
    Program.ReadFrom tokens (Program.ofTokens tokens) := by
  have hcursor := Grammar.Cursor.ofTokens_within some'
  have hyields := Grammar.programRest_yields
    (Grammar.statement_yields 
      (Grammar.sufficientBound (Grammar.Cursor.ofTokens tokens).tokens.length))
    (Grammar.sufficientBound (Grammar.Cursor.ofTokens tokens).tokens.length) true
    (Grammar.Cursor.ofTokens tokens) hcursor
  simp only [ofTokens, Grammar.program, Grammar.outcome]
  split
  · rename_i value rest hread
    rw [hread] at hyields
    exact hyields.1
  · rename_i rejected hread
    rw [hread] at hyields
    exact hyields
  · exact hcursor.stands.placed

end Bir
