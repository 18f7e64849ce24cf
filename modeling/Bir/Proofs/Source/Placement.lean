import Bir.Proofs.Source.Consumption
import Bir.Proofs.Source.Grammar

/-!
# Placement — a program is written in its tokens

What a production of the grammar accepts is written in the tokens that it takes: an expression from
its left-most leaf on, a statement from its keyword, comment, name or target on, and all that they
are made of behind that in order.  So what a tree keeps for a position is that of the token which it
should point to.

This file goes through the productions in their order, expressions first, and ends with
`positions_come_from_leading_tokens`.
-/

namespace Bir
namespace Grammar

open Bir.Grammar.Parser

/-! ## Levels of expressions -/

/-- What a level joins is made of two operands, starts with the leaf of the left one and stands where
that one does. -/
def Join.Joins (join : Join) : Prop :=
  ∀ kind combine, join kind = some combine → ∀ left right : Expression,
    (combine left right).leaf = left.leaf ∧ (combine left right).position = left.position ∧
      (combine left right).parts = [.expression left, .expression right]

theorem conditionJoin_joins : conditionJoin.Joins := by
  intro kind combine hjoin left right
  unfold conditionJoin at hjoin
  split at hjoin <;> cases hjoin
  exact ⟨rfl, rfl, rfl⟩

theorem sumJoin_joins : sumJoin.Joins := by
  intro kind combine hjoin left right
  unfold sumJoin at hjoin
  split at hjoin <;> cases hjoin <;> exact ⟨rfl, rfl, rfl⟩

theorem productJoin_joins : productJoin.Joins := by
  intro kind combine hjoin left right
  unfold productJoin at hjoin
  split at hjoin <;> cases hjoin <;> exact ⟨rfl, rfl, rfl⟩

theorem powerJoin_joins : powerJoin.Joins := by
  intro kind combine hjoin left right
  unfold powerJoin at hjoin
  split at hjoin <;> cases hjoin <;> exact ⟨rfl, rfl, rfl⟩

section Levels

variable {join : Join} {operand : Parser Expression} {left right : Expression}
variable {before taken : List Token}

/-- Two operands with a sign between them are written as what they are joined to. -/
theorem Join.Joins.spans (hjoin : join.Joins) {kind : Token.Kind}
    {combine : Expression → Expression → Expression} (h : join kind = some combine)
    (hleft : left.Spans before) (sign : Token) (hright : right.Spans taken) :
    (combine left right).Spans (before ++ sign :: taken) := by
  obtain ⟨hleaf, hstands, hparts⟩ := hjoin kind combine h left right
  have hbehind : InOrder Part.Spans [.expression right] (taken ++ []) := .cons hright (.done [])
  rw [List.append_nil] at hbehind
  exact hleft.extend _ hleaf hstands hparts (hbehind.skip sign)

theorem chainRest_consumes (hjoin : join.Joins) (hcontinues : join.Continues)
    (hoperand : Consumes Expression.Spans operand) (bound : Nat) (hleft : left.Spans before) :
    Consumes (fun value more => value.Spans (before ++ more))
      (chainRest join operand bound left) := by
  induction bound generalizing left before with
  | zero => exact fun _ => .exhausted
  | succ bound ih =>
      refine fun cursor => .peek ?_
      cases hcombine : join cursor.kind with
      | none =>
          refine .pure ?_
          rwa [List.append_nil]
      | some combine =>
          refine .skip rfl (hcontinues.ne_endOfFile hcombine) fun after => ?_
          refine (hoperand after).bind fun right taken hright rest => ?_
          -- What was joined is the left operand of the next sign.
          have hjoined := hjoin.spans hcombine hleft ⟨cursor.kind, cursor.position⟩ hright
          refine (ih hjoined rest).mono fun value more hvalue => ?_
          rwa [List.append_assoc] at hvalue

theorem chain_consumes (hjoin : join.Joins) (hcontinues : join.Continues)
    (hoperand : Consumes Expression.Spans operand) (bound : Nat) :
    Consumes Expression.Spans (chain join operand bound) :=
  fun cursor => (hoperand cursor).bind fun _ _ hleft =>
    chainRest_consumes hjoin hcontinues hoperand bound hleft

theorem powers_consumes (hoperand : Consumes Expression.Spans operand) (bound : Nat) :
    Consumes Expression.Spans (powers operand bound) := by
  induction bound with
  | zero => exact fun _ => .exhausted
  | succ bound ih =>
      refine fun cursor => (hoperand cursor).bind fun base taken hbase after => .peek ?_
      split
      · rename_i hlog
        -- The level ends behind `log`: only a looser sign may follow it.
        refine .here (.skip hlog nofun fun _ => .pure ?_)
        exact hbase.extend (logarithm base after.position) rfl rfl rfl (.token (.done []))
      · cases hcombine : powerJoin after.kind with
        | none =>
            refine .pure ?_
            rwa [List.append_nil]
        | some combine =>
            refine .skip rfl (powerJoin_continues.ne_endOfFile hcombine) fun behind => ?_
            refine (ih behind).bind fun right more hright _ => .pure ?_
            rw [List.append_nil]
            exact powerJoin_joins.spans hcombine hbase _ hright

end Levels

/-! ## Operands -/

section Operands

variable {inner : Parser Expression} (hinner : Consumes Expression.Spans inner) (bound : Nat)
include hinner

theorem callArguments_consumes :
    Consumes (fun arguments tokens => tokens ≠ [] ∧ InOrder Expression.Spans arguments tokens)
      (callArguments inner bound) :=
  delimited_consumes _ _ hinner bound

theorem primary_consumes : Consumes Expression.Spans (primary inner bound) := by
  refine fun cursor => .here (.peek ?_)
  cases hkind : cursor.kind with
  | integer value =>
      exact .skip hkind nofun fun _ => .pure (.of_leaf rfl (.token (.done [])))
  | identifier name negative =>
      exact .skip hkind nofun fun _ => .pure (.of_leaf rfl (.token (.done [])))
  | mark sign =>
      cases sign with
      | leftBrace =>
          refine .skip hkind nofun fun after => ?_
          refine (hinner after).bind fun grouped taken hgrouped behind => ?_
          exact .expectClosing fun closedAt _ => .pure (hgrouped.group _ closedAt)
      | _ => exact .reject
  | slot op =>
      refine .skip hkind nofun fun after => ?_
      refine (callArguments_consumes hinner bound after).bind fun arguments taken harguments _ => ?_
      refine .pure (.of_leaf rfl (.token ?_))
      exact harguments.2.expressions.before []
  | _ => exact .reject

theorem call_consumes : Consumes Expression.Spans (call inner bound) := by
  refine fun cursor => .identifier fun name after => ?_
  have hverbs := many_consumes (.mark .colon) nofun (primary_consumes hinner bound) bound
  refine (hverbs after).bind fun verbs taken hverbs behind => ?_
  refine (callArguments_consumes hinner bound behind).bind fun arguments more harguments _ => ?_
  refine .pure (.of_leaf rfl (.token ?_))
  rw [List.append_nil]
  exact (hverbs.append harguments.2).expressions

theorem operand_consumes : Consumes Expression.Spans (operand inner bound) := by
  intro cursor
  cases hcall : startsCall cursor.kind (cursor.kindAt 1) with
  | true =>
      exact (call_consumes hinner bound cursor).congr (operand_of_call hcall)
        (operand_of_call (Cursor.startsCall_cut.trans hcall))
  | false =>
      have hcut := Cursor.startsCall_cut.trans hcall
      by_cases htext : ∃ text, cursor.kind = .text text
      · obtain ⟨text, htext⟩ := htext
        have hstring : ConsumesAt cursor Expression.Spans (string text) :=
          .here (.skip htext nofun fun _ => .pure (.of_leaf rfl (.token (.done []))))
        exact hstring.congr (operand_of_text htext) (operand_of_text (Cursor.kind_cut.trans htext))
      · have noText : ∀ text, cursor.kind ≠ .text text := fun text h => htext ⟨text, h⟩
        exact (primary_consumes hinner bound cursor).congr (operand_of_primary hcall noText)
          (operand_of_primary hcut (by simpa using noText))

theorem expressionOver_consumes : Consumes Expression.Spans (expressionOver inner bound) := by
  have hpowers := powers_consumes (operand_consumes hinner bound) bound
  have hproducts := chain_consumes productJoin_joins productJoin_continues hpowers bound
  have hsums := chain_consumes sumJoin_joins sumJoin_continues hproducts bound
  exact chain_consumes conditionJoin_joins conditionJoin_continues hsums bound

end Operands

theorem expression_consumes (bound : Nat) : Consumes Expression.Spans (expression bound) := by
  induction bound with
  | zero => exact fun _ => .exhausted
  | succ bound ih => exact expressionOver_consumes ih bound

/-! ## Bodies -/

/-- Statements are written in tokens, one behind the other. -/
abbrev BodySpans (statements : List Statement) (tokens : List Token) : Prop :=
  InOrder Part.Spans (statements.map .statement) tokens

section Statements

variable {inner : Parser Statement} (hinner : Consumes Statement.Spans inner) (bound : Nat)

section Bodies

include hinner

theorem statementsUntilClose_consumes :
    Consumes BodySpans (statementsUntilClose inner bound) := by
  induction bound with
  | zero => exact fun _ => .exhausted
  | succ bound ih =>
      refine fun cursor => .peek ?_
      split
      · exact .pure (.done [])
      · refine (hinner cursor).bind fun first taken hfirst behind => ?_
        refine (ih behind).bind fun others more hothers _ => .pure ?_
        rw [List.append_nil]
        exact .cons hfirst hothers

theorem bodyRest_consumes (openedAt : Position) :
    Consumes (fun statements tokens => tokens ≠ [] ∧ BodySpans statements tokens)
      (bodyRest inner bound openedAt) := by
  refine fun cursor => (statementsUntilClose_consumes hinner bound cursor).bind ?_
  intro statements taken hstatements behind
  exact .expectClosing fun closedAt _ => .pure ⟨by simp, hstatements.before _⟩

theorem body_consumes :
    Consumes (fun statements tokens => tokens ≠ [] ∧ BodySpans statements tokens)
      (body inner bound) := by
  refine fun cursor => .expect nofun fun openedAt after => ?_
  refine (bodyRest_consumes hinner bound openedAt after).mono fun statements taken hstatements => ?_
  exact ⟨nofun, hstatements.2.skip _⟩

theorem bodyAfter?_consumes (word : Keyword) :
    Consumes (fun body tokens => InOrder Part.Spans (bodyParts body) tokens)
      (bodyAfter? word inner bound) := by
  refine fun cursor => .eat nofun (fun position after => ?_) (.pure (.done []))
  refine (body_consumes hinner bound after).bind fun statements taken hstatements _ => .pure ?_
  exact (hstatements.2.before []).skip _

theorem arm_consumes :
    Consumes (fun arm tokens => InOrder Part.Spans (armParts arm) tokens) (arm inner bound) := by
  refine fun cursor => (expression_consumes bound cursor).bind fun test taken htest behind => ?_
  refine (body_consumes hinner bound behind).bind fun statements more hstatements _ => .pure ?_
  rw [List.append_nil]
  exact .cons htest hstatements.2

end Bodies

/-! ## Statements with a keyword -/

section Keywords

variable {cursor : Cursor}

theorem declaration_consumes (kind : BindingKind) (hkind : cursor.kind = .keyword kind.word) :
    ConsumesAt cursor Statement.Spans (declaration kind bound) := by
  refine .here (.skip hkind nofun fun after => .identifier fun name after => ?_)
  refine .expect nofun fun _ after => ?_
  refine (expression_consumes bound after).bind fun value taken hvalue _ => .pure ?_
  exact .of_lead rfl (.token (.token (.skip _ (.cons hvalue (.done [])))))

theorem exit_consumes (way : Exit) (hkind : cursor.kind = .keyword way.word) :
    ConsumesAt cursor Statement.Spans (exit way bound) := by
  refine .here (.skip hkind nofun fun after => ?_)
  refine (expression_consumes bound after).bind fun value taken hvalue _ => .pure ?_
  exact .of_lead rfl (.token (.cons hvalue (.done [])))

include hinner

theorem branch_consumes : Consumes Statement.Spans (branch inner bound) := by
  refine fun cursor => .expect nofun fun keyword after => ?_
  refine (arm_consumes hinner bound after).bind fun (condition, statements) taken harm behind => ?_
  have helifs := many_consumes (.keyword .elif) nofun (arm_consumes hinner bound) bound
  refine (helifs behind).bind fun elifs more helifs behind => ?_
  refine (bodyAfter?_consumes hinner bound .else behind).bind fun otherwise most hotherwise _ => ?_
  refine .pure (.of_lead rfl (.token ?_))
  rw [List.append_nil]
  exact harm.append (helifs.flatMap.append hotherwise)

theorem repeatWhile_consumes : Consumes Statement.Spans (repeatWhile inner bound) := by
  refine fun cursor => .expect nofun fun keyword after => ?_
  refine (arm_consumes hinner bound after).bind fun (condition, statements) taken harm _ => ?_
  exact .pure (.of_lead rfl (.token (harm.before [])))

theorem repeatFor_consumes : Consumes Statement.Spans (repeatFor inner bound) := by
  refine fun cursor => .expect nofun fun keyword after => ?_
  refine (expression_consumes bound after).bind fun count taken hcount behind => ?_
  refine .expect nofun fun _ after => .identifier fun placeholder after => ?_
  refine (body_consumes hinner bound after).bind fun statements more hstatements _ => ?_
  refine .pure (.of_lead rfl (.token (.cons hcount (.skip _ (.token ?_)))))
  exact hstatements.2.before []

theorem switch_consumes : Consumes Statement.Spans (switch inner bound) := by
  refine fun cursor => .expect nofun fun keyword after => ?_
  refine (expression_consumes bound after).bind fun condition taken hcondition behind => ?_
  refine .expect nofun fun openedAt after => ?_
  have hcases := many_consumes (.keyword .case) nofun (arm_consumes hinner bound) bound
  refine (hcases after).bind fun cases more hcases behind => ?_
  have hotherwise := bodyAfter?_consumes hinner bound .default behind
  refine hotherwise.bind fun otherwise most hotherwise _ => ?_
  refine .expectClosing fun closedAt _ => .pure (.of_lead rfl (.token ?_))
  refine .cons hcondition (.skip _ ?_)
  rw [← List.append_assoc]
  exact (hcases.flatMap.append hotherwise).before _

end Keywords

/-! ## Blocks -/

theorem populateSource_consumes :
    Consumes (fun source tokens => InOrder Part.Spans source.parts tokens)
      (populateSource bound) := by
  refine fun cursor => .peek ?_
  split
  · rename_i hkind
    exact .skip hkind nofun fun _ => .pure (.done _)
  · have helements :=
      delimited_consumes .leftBracket .rightBracket (expression_consumes bound) bound
    refine (helements cursor).bind fun elements taken helements _ => .pure ?_
    exact helements.2.expressions.before []

theorem populate?_consumes :
    Consumes (fun populate tokens => InOrder Part.Spans (populate.elim [] Populate.parts) tokens)
      (populate? bound) := by
  intro cursor
  cases hseeds : cursor.seeds with
  | true =>
      have hseeding : Consumes
          (fun populate tokens => InOrder Part.Spans (populate.elim [] Populate.parts) tokens)
          (seeding bound) := by
        refine fun cursor => .expect nofun fun openedAt after => ?_
        refine (populateSource_consumes bound after).bind fun source taken hsource behind => ?_
        exact .expectClosing fun closedAt _ => .pure ((hsource.before _).skip _)
      refine (hseeding cursor).congr ?_ ?_
      · rw [populate?_eq, if_pos hseeds]
      · rw [populate?_eq, if_pos (Cursor.seeds_cut.trans hseeds)]
  | false =>
      have hnone : ∀ other : Cursor, other.seeds = false →
          populate? bound other = .accepted none other := fun other hother => by
        rw [populate?_eq, hother]
        rfl
      exact (ConsumesAt.pure (.done [])).congr (hnone cursor hseeds)
        (hnone _ (Cursor.seeds_cut.trans hseeds))

theorem implementing_consumes (name : Identifier) (word : Token) :
    Consumes (fun statement more => statement.Spans (name.token :: word :: more))
      (implementing name bound) := by
  refine fun cursor => .identifier fun parent after => ?_
  refine (populate?_consumes bound after).bind fun populate taken hpopulate _ => ?_
  exact .pure (.of_lead rfl (.token (.skip word (.token (hpopulate.before [])))))

theorem identifier_consumes : Consumes (fun name tokens => tokens = [name.token]) identifier := by
  intro cursor
  have hname : ConsumesAt cursor (fun name tokens => tokens = [name.token])
      (identifier >>= pure) := .identifier fun _ _ => .pure rfl
  rwa [bind_pure] at hname

/-- The body of a block: what it does first, and its program. -/
def blockBody (inner : Parser Statement) (bound : Nat) :
    Parser (Option (List Statement) × List Statement) := do
  let openedAt ← expect (.mark .leftBrace)
  let init ← bodyAfter? .init inner bound
  let program ← bodyRest inner bound openedAt
  return (init, program)

theorem plainBlock_eq (name : Identifier) :
    plainBlock inner name bound = (do
      let verbs ← many (.mark .colon) identifier bound
      let arguments ← delimited .leftBracket .rightBracket identifier bound
      let (init, program) ← blockBody inner bound
      return @Statement.block name verbs arguments init program name.position) := by
  simp only [plainBlock, blockBody, bind_assoc, pure_bind]

section Blocks

include hinner

theorem blockBody_consumes :
    Consumes (fun bodies tokens => tokens ≠ [] ∧
      InOrder Part.Spans (bodyParts bodies.1 ++ bodies.2.map .statement) tokens)
      (blockBody inner bound) := by
  refine fun cursor => .expect nofun fun openedAt after => ?_
  refine (bodyAfter?_consumes hinner bound .init after).bind fun init taken hinit behind => ?_
  refine (bodyRest_consumes hinner bound openedAt behind).bind fun program more hprogram _ => ?_
  refine .pure ⟨List.cons_ne_nil _ _, ?_⟩
  rw [List.append_nil]
  exact (hinit.append hprogram.2).skip _

theorem plainBlock_consumes (name : Identifier) :
    Consumes (fun statement more => statement.Spans (name.token :: more))
      (plainBlock inner name bound) := by
  intro cursor
  rw [plainBlock_eq]
  have hverbs := many_consumes (.mark .colon) nofun identifier_consumes bound
  refine (hverbs cursor).bind fun verbs taken hverbs behind => ?_
  have harguments := delimited_consumes .leftBracket .rightBracket identifier_consumes bound
  refine (harguments behind).bind fun arguments more harguments behind => ?_
  refine (blockBody_consumes hinner bound behind).bind fun (init, program) rest hbodies _ => ?_
  refine .pure (.of_lead rfl (.token ?_))
  rw [← List.append_assoc, List.append_nil]
  exact (hverbs.append harguments.2).names.append hbodies.2

theorem block_consumes : Consumes Statement.Spans (block inner bound) := by
  refine fun cursor => .identifier fun name after => ?_
  refine .eat nofun (fun position => ?_) (plainBlock_consumes hinner bound name after)
  exact implementing_consumes bound name _

end Blocks

/-! ## Statements that start with an expression -/

/-- What follows a target makes a statement of it. -/
theorem afterTarget_consumes {target : Expression} {taken : List Token}
    (htarget : target.Spans taken) :
    Consumes (fun statement more => statement.Spans (taken ++ more))
      (afterTarget target bound) := by
  refine fun cursor => .peek ?_
  split
  · rename_i hkind
    refine .skip hkind nofun fun after => ?_
    -- Braces around the name are gone from the tree, but not from the tokens of the target.
    cases target with
    | reference name =>
        refine (expression_consumes bound after).bind fun value more hvalue _ => .pure ?_
        have hbehind : InOrder Part.Spans [.expression value] (more ++ []) :=
          .cons hvalue (.done [])
        exact htarget.statement rfl rfl rfl rfl (hbehind.skip _)
    | _ => exact .reject
  · rename_i op hkind
    refine .skip hkind nofun fun after => ?_
    unfold change
    split
    · refine (expression_consumes bound after).bind fun operand more hoperand _ => .pure ?_
      have hbehind : InOrder Part.Spans [.expression operand] (more ++ []) :=
        .cons hoperand (.done [])
      exact htarget.statement rfl rfl rfl rfl (hbehind.skip _)
    · exact .pure (htarget.statement rfl rfl rfl rfl (.done _))
  · split
    · exact .pure (htarget.statement rfl rfl rfl rfl (.done []))
    · exact .here .reject

theorem expressionStatement_consumes : Consumes Statement.Spans (expressionStatement bound) := by
  intro cursor
  rw [expressionStatement_eq]
  exact (expression_consumes bound cursor).bind fun _ _ htarget =>
    afterTarget_consumes bound htarget

/-! ## Statements -/

include hinner in
theorem statementOver_consumes : Consumes Statement.Spans (statementOver inner bound) := by
  refine fun cursor => .here (.peek ?_)
  split
  · rename_i hkind
    exact declaration_consumes bound .const hkind
  · rename_i hkind
    exact declaration_consumes bound .let hkind
  · exact branch_consumes hinner bound cursor
  · exact repeatWhile_consumes hinner bound cursor
  · exact repeatFor_consumes hinner bound cursor
  · exact switch_consumes hinner bound cursor
  · rename_i hkind
    exact exit_consumes bound .return hkind
  · rename_i hkind
    exact exit_consumes bound .throw hkind
  · rename_i hkind
    exact .skip hkind nofun fun _ => .pure (.of_lead rfl (.token (.done [])))
  · cases hstarts : startsBlock cursor with
    | true =>
        have hcut := (startsBlock_cut cursor).trans hstarts
        refine (block_consumes hinner bound cursor).congr ?_ ?_
        · rw [standsAtBlock_bind, hstarts, if_pos rfl]
        · rw [standsAtBlock_bind, hcut, if_pos rfl]
    | false =>
        have hcut := (startsBlock_cut cursor).trans hstarts
        refine (expressionStatement_consumes bound cursor).congr ?_ ?_
        · rw [standsAtBlock_bind, hstarts, if_neg nofun]
        · rw [standsAtBlock_bind, hcut, if_neg nofun]
  · exact expressionStatement_consumes bound cursor
  · exact expressionStatement_consumes bound cursor
  · exact expressionStatement_consumes bound cursor
  · exact expressionStatement_consumes bound cursor
  · exact .reject

end Statements

theorem statement_consumes (bound : Nat) : Consumes Statement.Spans (statement bound) := by
  induction bound with
  | zero => exact fun _ => .exhausted
  | succ bound ih => exact statementOver_consumes ih bound

/-! ## Programs -/

theorem importRequest_consumes : Consumes Import.Spans importRequest := by
  refine fun cursor => .expect nofun fun position after => .here (.peek ?_)
  split
  · rename_i name hkind
    exact .skip hkind nofun fun _ => .pure ⟨after.position, rfl⟩
  · exact .reject

theorem programRest_consumes {inner : Parser Statement} (hinner : Consumes Statement.Spans inner)
    (bound : Nat) (inHeader : Bool) :
    Consumes Program.Spans (programRest inner bound inHeader) := by
  induction bound generalizing inHeader with
  | zero => exact fun _ => .exhausted
  | succ bound ih =>
      refine fun cursor => .peek ?_
      split
      · exact .pure ⟨.done [], .done []⟩
      · split
        · refine (importRequest_consumes cursor).bind fun request taken hrequest behind => ?_
          refine (ih inHeader behind).bind fun rest more hrest _ => .pure ?_
          rw [List.append_nil]
          exact ⟨.cons hrequest hrest.imports, hrest.statements.behind taken⟩
        · refine (hinner cursor).bind fun first taken hfirst behind => ?_
          refine (ih _ behind).bind fun rest more hrest _ => .pure ?_
          rw [List.append_nil]
          exact ⟨hrest.imports.behind taken, .cons hfirst hrest.statements⟩

theorem program_consumes (bound : Nat) : Consumes Program.Spans (program bound) :=
  programRest_consumes (statement_consumes bound) bound true

/-- Every position in a program that tokens are read as is that of one of them.  An expression
stands where its left-most leaf does, whatever braces are around it; a statement stands where its
keyword, its comment or the name of its block does, or else the left-most leaf of its target. -/
theorem positions_come_from_leading_tokens {tokens : List Token} {program : Program}
    (h : Program.ofTokens tokens = .ok program) :
    program.Written tokens ∧ program.Spans tokens := by
  obtain ⟨bound, rest, hread⟩ := accepted_of_ofTokens h
  obtain ⟨taken, htaken, -, hspans⟩ := (program_consumes bound _).takes _ _ hread
  -- What is read are the first tokens, up to the end of the file at most.
  have hprefix : taken <+: tokens := by
    have hcursor : (Cursor.ofTokens tokens).tokens = taken ++ rest.tokens := by rw [htaken]; rfl
    exact (List.prefix_append taken rest.tokens).trans (hcursor ▸ List.takeWhile_prefix _)
  obtain ⟨more, rfl⟩ := hprefix
  refine ⟨?_, hspans.imports.before more, hspans.statements.before more⟩
  cases htokens : taken ++ more with
  | nil =>
      rw [htokens] at h
      cases h
      exact ⟨nofun, nofun⟩
  | cons token others =>
      have hwritten : Program.ReadFrom (taken ++ more) (Program.ofTokens (taken ++ more)) :=
        Program.ofTokens_readFrom (by simp [htokens])
      rw [h] at hwritten
      exact htokens ▸ hwritten

/-- An assignment to a name in braces, `{x} = 10 log`. -/
def groupedAssignment : List Token :=
  [⟨.mark .leftBrace, ⟨1, 1⟩⟩, ⟨.identifier "x" false, ⟨1, 2⟩⟩, ⟨.mark .rightBrace, ⟨1, 3⟩⟩,
    ⟨.mark .equals, ⟨1, 5⟩⟩, ⟨.integer 10, ⟨1, 7⟩⟩, ⟨.keyword .log, ⟨1, 10⟩⟩,
    ⟨.endOfFile, ⟨1, 13⟩⟩]

/-- The assignment stands at the name, and its value at the number. -/
theorem positions_come_from_leading_tokens_of_group :
    ∃ name value position,
      let assigned : Program := { statements := [@Statement.assign name value position] }
      Program.ofTokens groupedAssignment = .ok assigned ∧
        position = ⟨1, 2⟩ ∧ name.position = ⟨1, 2⟩ ∧ value.position = ⟨1, 7⟩ ∧
        assigned.Written groupedAssignment ∧ assigned.Spans groupedAssignment :=
  have hread : Program.ofTokens groupedAssignment = .ok
      { statements := [@Statement.assign { name := "x", position := ⟨1, 2⟩ }
          (logarithm (.integer 10 ⟨1, 7⟩) ⟨1, 10⟩) ⟨1, 2⟩] } := rfl
  ⟨_, _, _, hread, rfl, rfl, rfl, positions_come_from_leading_tokens hread⟩

end Grammar
end Bir
