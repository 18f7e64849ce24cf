import Bir.Proofs.Source.First

/-!
# Follow — what may stand behind an expression or a statement

Nothing marks the end of an expression or of a statement.  It ends before the first token that
cannot go on with it, so what is read does not change where another such token follows.  This file
defines:

* `PastExpression` and `PastStatement` — what may stand behind an expression and behind most
  statements;
* `Behind statement` — what may stand behind a statement.

There is one lemma for each production of the grammar, up to `expression_local` and
`statement_local`.  Each compares a parser with the same one under a greater bound.
-/

namespace Bir

/-- Whether a statement is a block that implements another without values for its slots. -/
def Statement.isUnseeded : Statement → Bool
  | .implementing _ _ none => true
  | _ => false

namespace Grammar

open Bir.Grammar.Parser

/-- Behind an expression nothing goes on with it that did not before. -/
abbrev PastExpression : View := Stays Token.Kind.continuesExpression

/-- Behind a statement nothing goes on with it that did not before. -/
abbrev PastStatement : View := Stays Token.Kind.continuesStatement

theorem PastStatement.expression {cursor cursor' : Cursor} (h : PastStatement cursor cursor') :
    PastExpression cursor cursor' :=
  h.mono fun _ => Token.Kind.continuesStatement_of_expression

/-- Whether the next tokens may seed slots. -/
def Cursor.seeds (cursor : Cursor) : Bool := startsPopulate cursor.kind (cursor.kindAt 1)

/-- What may stand behind a statement: nothing that goes on with it, and behind a block without
values for its slots none either. -/
structure Behind (statement : Statement) (cursor cursor' : Cursor) : Prop where
  past : PastStatement cursor cursor'
  seeds : statement.isUnseeded = true → cursor'.seeds = true → cursor.seeds = true

theorem SameView.seeds {cursor cursor' : Cursor} (h : SameView cursor cursor') :
    cursor.seeds = cursor'.seeds := by
  unfold Cursor.seeds
  rw [← h.kind]
  by_cases hbrace : cursor.kind = .mark .leftBrace
  · rw [h.second hbrace]
  · unfold startsPopulate
    split <;> first | contradiction | skip
    split <;> first | contradiction | rfl

/-- Nothing but a brace may start what seeds slots. -/
theorem kind_of_seeds {cursor : Cursor} (h : cursor.seeds = true) :
    cursor.kind = .mark .leftBrace := by
  unfold Cursor.seeds startsPopulate at h
  split at h
  · assumption
  · assumption
  · cases h

theorem SameView.behind {cursor cursor' : Cursor} (h : SameView cursor cursor')
    (statement : Statement) : Behind statement cursor cursor' where
  past := .of_kind h.kind
  seeds _ hseeds := h.seeds.trans hseeds

variable {bound bound' : Nat}

/-! ## Levels -/

/-- No level has the end of the file for a sign. -/
theorem Join.Continues.ne_endOfFile {join : Join} (hjoin : join.Continues) {kind : Token.Kind}
    {combine : Expression → Expression → Expression} (h : join kind = some combine) :
    kind ≠ .endOfFile := by
  rintro rfl
  rw [hjoin .endOfFile rfl] at h
  cases h

/-- Where a level ends, it ends as well before a token that does not go on with an expression. -/
theorem Join.Continues.past {join : Join} (hjoin : join.Continues) {cursor cursor' : Cursor}
    (h : join cursor.kind = none) (hpast : PastExpression cursor cursor') :
    join cursor'.kind = none := by
  cases hcontinues : cursor'.kind.continuesExpression with
  | false => exact hjoin _ hcontinues
  | true => rwa [← hpast hcontinues]

section Levels

variable {join : Join} {operand operand' : Parser Expression} {before behind : View}
  (hoperand : Local behind (fun _ => PastExpression) operand operand') {cursor : Cursor}
  (hfirst : LocalAt cursor before (fun _ => PastExpression) operand operand')
include hoperand

theorem chainRest_local (hjoin : join.Continues) (le : bound ≤ bound') (left : Expression) :
    Local PastExpression (fun _ => PastExpression) (chainRest join operand bound left)
      (chainRest join operand' bound' left) := by
  induction bound generalizing bound' left with
  | zero => exact .exhausted
  | succ bound ih =>
      cases bound' with
      | zero => omega
      | succ bound' =>
          intro cursor
          cases hcombine : join cursor.kind with
          | none =>
              refine .peek ?_ fun cursor' hpast => ?_
              · rw [hcombine]
                exact .pure
              · rw [hcombine, hjoin.past hcombine hpast]
          | some combine =>
              refine .widen (SameHead Anywhere) ?_ fun _ h => .of_kind h.kind
              refine .peek ?_ fun cursor' hhead => by rw [hhead.kind]
              rw [hcombine]
              refine (LocalAt.skip (hjoin.ne_endOfFile hcombine)).bind fun _ => ?_
              refine .widen behind ?_ fun _ _ _ => trivial
              exact hoperand.bind fun right =>
                ih (Nat.le_of_succ_le_succ le) (combine left right)

include hfirst

theorem chain_local (hjoin : join.Continues) (le : bound ≤ bound') :
    LocalAt cursor before (fun _ => PastExpression) (chain join operand bound)
      (chain join operand' bound') :=
  hfirst.bind fun left => chainRest_local hoperand hjoin le left

theorem powers_local (le : bound ≤ bound') :
    LocalAt cursor before (fun _ => PastExpression) (powers operand bound)
      (powers operand' bound') := by
  induction bound generalizing bound' before cursor with
  | zero => exact .exhausted
  | succ bound ih =>
      cases bound' with
      | zero => omega
      | succ bound' =>
          refine hfirst.bind fun base cursor => ?_
          by_cases hlog : cursor.kind = .keyword .log
          · refine .widen (SameHead Anywhere) ?_ fun _ h => .of_kind h.kind
            refine .peek ?_ fun cursor' hhead => by rw [hhead.kind]
            rw [if_pos hlog, if_pos hlog]
            refine .here ?_ fun cursor' hhead => hhead.position
            refine (LocalAt.skip (by simp [hlog])).bind fun _ => ?_
            exact .widen _ .pure fun _ _ _ => trivial
          · cases hcombine : powerJoin cursor.kind with
            | none =>
                refine .peek ?_ fun cursor' hpast => ?_
                · rw [if_neg hlog, if_neg hlog, hcombine]
                  exact .pure
                · have hlog' : cursor'.kind ≠ .keyword .log := fun h =>
                    hlog ((hpast (by rw [h]; rfl)).trans h)
                  rw [if_neg hlog, if_neg hlog', hcombine, powerJoin_continues.past hcombine hpast]
            | some combine =>
                refine .widen (SameHead Anywhere) ?_ fun _ h => .of_kind h.kind
                refine .peek ?_ fun cursor' hhead => by rw [hhead.kind]
                rw [if_neg hlog, if_neg hlog, hcombine]
                refine (LocalAt.skip (powerJoin_continues.ne_endOfFile hcombine)).bind fun _ => ?_
                refine .widen behind (fun cursor => ?_) fun _ _ _ => trivial
                exact (ih (hoperand cursor) (Nat.le_of_succ_le_succ le)).bind fun right => .pure

end Levels

/-! ## Operands -/

section Operands

variable {inner inner' : Parser Expression} (le : bound ≤ bound')
  (hinner : Local SameStart (fun _ => PastExpression) inner inner')
include le hinner

theorem callArguments_local :
    Local SameStart (fun _ => Anywhere) (callArguments inner bound)
      (callArguments inner' bound') :=
  .delimited le _ (by decide) <| hinner.mono (fun _ _ h => h) fun _ _ _ h => .of_kind h

theorem primary_local :
    Local SameStart (fun _ => Anywhere) (primary inner bound) (primary inner' bound') := by
  refine fun cursor => .here ?_ fun _ h => h.position
  refine .peek ?_ fun _ h => by rw [h.kind]
  cases hkind : cursor.kind with
  | integer value =>
      refine .widen (SameHead Anywhere) ?_ fun _ h => h.sameStart_of_ne (by simp [hkind])
      exact (LocalAt.skip (by simp [hkind])).bind fun _ => .pure
  | identifier name negative =>
      refine .widen (SameHead Anywhere) ?_ fun _ h => h.sameStart_of_ne (by simp [hkind])
      exact (LocalAt.skip (by simp [hkind])).bind fun _ => .pure
  | mark sign =>
      cases sign with
      | leftBrace =>
          refine .widen (SameHead SameKind) ?_ fun _ h => h.sameStart
          refine (LocalAt.skip (by simp [hkind])).bind fun _ => ?_
          refine .widen SameStart (hinner.bind fun grouped => ?_) fun _ _ h => h.kind
          refine .widen SameStart ?_ fun _ _ h => .of_kind h.kind
          exact (Local.expectClosing _ (by decide) _).bind fun _ => .pure
      | _ => exact .reject
  | slot op =>
      refine .widen (SameHead Anywhere) ?_ fun _ h => h.sameStart_of_ne (by simp [hkind])
      refine (LocalAt.skip (by simp [hkind])).bind fun _ => ?_
      refine .widen SameStart ?_ fun _ _ _ => trivial
      exact (callArguments_local le hinner).bind fun arguments => .pure
  | _ => exact .reject

theorem call_local :
    Local (SameHead SameKind) (fun _ => Anywhere) (call inner bound) (call inner' bound') := by
  have hverb : Local SameStart (fun _ => Stays fun _ => true) (primary inner bound)
      (primary inner' bound') :=
    (primary_local le hinner).mono (fun _ _ h => h) fun _ _ _ _ => trivial
  refine Local.identifier.bind fun name => ?_
  refine .widen (Stays fun _ => true) ?_ fun _ _ h => h rfl
  refine (Local.many le (.mark .colon) nofun (.stays rfl) hverb).bind fun verbs => ?_
  refine .widen SameStart ?_ fun _ _ h => .of_kind h.kind
  exact (callArguments_local le hinner).bind fun arguments => .pure

omit le hinner in
/-- Before the same name, a call starts where it did if the name ends an expression alike. -/
theorem startsCall_past {cursor cursor' : Cursor} (h : SameHead PastExpression cursor cursor')
    (noCall : startsCall cursor.kind (cursor.kindAt 1) = false) :
    startsCall cursor'.kind (cursor'.kindAt 1) = false := by
  obtain ⟨token, rest, rest', rfl, rfl, hpast⟩ := h
  simp only [Cursor.kindAt_one, Cursor.kind_prepend_singleton,
    Cursor.next_prepend_singleton] at noCall ⊢
  cases hcall : startsCall token.kind rest'.kind with
  | false => rfl
  | true =>
      have hsame : rest.kind = rest'.kind := hpast (startsCall_eq_true hcall).2
      rw [hsame, hcall] at noCall
      cases noCall

theorem operand_local :
    Local SameStart (fun _ => PastExpression) (operand inner bound) (operand inner' bound') := by
  intro cursor
  cases hcall : startsCall cursor.kind (cursor.kindAt 1) with
  | true =>
      refine .mono (.congr (call_local le hinner cursor) (operand_of_call hcall) ?_)
        (fun _ h => h.sameStart) fun _ _ _ _ => trivial
      intro cursor' value rest hhead _
      exact operand_of_call (by rwa [← hhead.kind, ← hhead.second])
  | false =>
      cases hkind : cursor.kind with
      | identifier name negative =>
          -- What follows a name must not make it a call.
          have htake : LocalAt cursor (SameHead PastExpression) (fun _ => PastExpression)
              (primary inner bound) (primary inner' bound') :=
            .take (by simp [hkind]) (primary_of_name hkind) fun cursor' hhead => by
              rw [primary_of_name (hhead.kind.symm.trans hkind), hhead.position]
          refine .widen _ (htake.congr (operand_of_primary hcall (by simp [hkind])) ?_) fun _ h =>
            h.sameStart_of_ne (by simp [hkind])
          intro cursor' value rest hhead _
          exact operand_of_primary (startsCall_past hhead hcall) (by simp [← hhead.kind, hkind])
      | text text =>
          have htake : LocalAt cursor (SameHead PastExpression) (fun _ => PastExpression)
              (string text) (string text) :=
            .here ((LocalAt.skip (by simp [hkind])).bind fun _ => .pure) fun _ h => h.position
          refine .widen _ (htake.congr (operand_of_text hkind) ?_) fun _ h =>
            h.sameStart_of_ne (by simp [hkind])
          intro cursor' value rest hhead _
          exact operand_of_text (hhead.kind.symm.trans hkind)
      | _ =>
          refine .mono (.congr (primary_local le hinner cursor)
            (operand_of_primary hcall (by simp [hkind])) ?_) (fun _ h => h) fun _ _ _ _ => trivial
          intro cursor' value rest hstart _
          have hkind' := hstart.kind.symm.trans hkind
          exact operand_of_primary (by rw [hkind']; rfl) (by simp [hkind'])

theorem expressionOver_local :
    Local SameStart (fun _ => PastExpression) (expressionOver inner bound)
      (expressionOver inner' bound') := by
  have hpowers := fun cursor =>
    powers_local (operand_local le hinner) (operand_local le hinner cursor) le
  have hproducts := fun cursor => chain_local hpowers (hpowers cursor) productJoin_continues le
  have hsums := fun cursor => chain_local hproducts (hproducts cursor) sumJoin_continues le
  exact fun cursor => chain_local hsums (hsums cursor) conditionJoin_continues le

end Operands

/-- What is read as an expression does not depend on what follows, as long as that does not go on
with it. -/
theorem expression_local (le : bound ≤ bound') :
    Local SameStart (fun _ => PastExpression) (expression bound) (expression bound') := by
  induction bound generalizing bound' with
  | zero => exact .exhausted
  | succ bound ih =>
      cases bound' with
      | zero => omega
      | succ bound' =>
          have le' := Nat.le_of_succ_le_succ le
          exact expressionOver_local le' (ih le')

/-! ## Bodies -/

section Statements

variable {inner inner' : Parser Statement} (le : bound ≤ bound')
  (hinner : Local SameStart Behind inner inner')

section Bodies

include le hinner

theorem statementsUntilClose_local :
    Local SameView (fun _ => SameView) (statementsUntilClose inner bound)
      (statementsUntilClose inner' bound') := by
  induction bound generalizing bound' with
  | zero => exact .exhausted
  | succ bound ih =>
      cases bound' with
      | zero => omega
      | succ bound' =>
          refine fun cursor => .peek ?_ fun _ h => by rw [h.kind]
          split
          · exact .pure
          · refine .widen SameStart ?_ fun _ h => h.toSameView
            refine (hinner cursor).bind fun first => ?_
            refine .widen SameView ?_ fun _ _ h => h.behind first
            exact (ih (Nat.le_of_succ_le_succ le)).bind fun rest => .pure

theorem bodyRest_local (openedAt : Position) :
    Local SameView (fun _ => Anywhere) (bodyRest inner bound openedAt)
      (bodyRest inner' bound' openedAt) := by
  refine (statementsUntilClose_local le hinner).bind fun statements => ?_
  refine .widen SameStart ?_ fun _ _ h => h.toSameView
  exact (Local.expectClosing _ (by decide) _).bind fun _ => .pure

theorem body_local :
    Local SameStart (fun _ => Anywhere) (body inner bound) (body inner' bound') := by
  refine .widen (SameHead SameView) ?_ fun _ _ h => (h.mono fun _ _ h => h.kind).sameStart
  exact (Local.expect (.mark .leftBrace) nofun).bind fun openedAt =>
    bodyRest_local le hinner openedAt

theorem bodyAfter?_local {word : Keyword} {view : View}
    (tells : Tells view SameStart (.keyword word)) :
    Local view (fun _ => view) (bodyAfter? word inner bound) (bodyAfter? word inner' bound') := by
  refine (Local.eat? (.keyword word) nofun tells).bind fun found => ?_
  cases found with
  | false => exact .pure
  | true =>
      refine (body_local le hinner).bind fun statements => ?_
      exact .widen _ .pure fun _ _ _ => trivial

theorem arm_local :
    Local SameStart (fun _ => Anywhere) (arm inner bound) (arm inner' bound') := by
  refine (expression_local le).bind fun test => ?_
  refine .widen SameStart ?_ fun _ _ h => .of_kind h.kind
  exact (body_local le hinner).bind fun statements => .pure

end Bodies

/-! ## Statements with a keyword -/

section Keywords

include le

theorem declaration_local {cursor : Cursor} {word : Keyword} (hword : cursor.kind = .keyword word)
    (kind : BindingKind) :
    LocalAt cursor SameStart (fun _ => PastStatement) (declaration kind bound)
      (declaration kind bound') := by
  refine .here ?_ fun _ h => h.position
  refine .widen (SameHead Anywhere) ?_ fun _ h => h.sameStart_of_ne (by simp [hword])
  refine (LocalAt.skip (by simp [hword])).bind fun _ => ?_
  refine .widen (SameHead (SameHead SameStart)) ?_ fun _ _ _ => trivial
  refine Local.identifier.bind fun name => (Local.expect (.mark .equals) nofun).bind fun _ => ?_
  exact (expression_local le).bind fun value => .widen _ .pure fun _ _ h => h.expression

theorem exit_local {cursor : Cursor} {word : Keyword} (hword : cursor.kind = .keyword word)
    (way : Exit) :
    LocalAt cursor SameStart (fun _ => PastStatement) (exit way bound) (exit way bound') := by
  refine .here ?_ fun _ h => h.position
  refine .widen (SameHead Anywhere) ?_ fun _ h => h.sameStart_of_ne (by simp [hword])
  refine (LocalAt.skip (by simp [hword])).bind fun _ => ?_
  refine .widen SameStart ?_ fun _ _ _ => trivial
  exact (expression_local le).bind fun value => .widen _ .pure fun _ _ h => h.expression

include hinner

theorem branch_local :
    Local SameStart (fun _ => PastStatement) (branch inner bound) (branch inner' bound') := by
  refine .widen (SameHead SameStart) ?_ fun _ _ h => (h.mono fun _ _ h => h.kind).sameStart
  refine (Local.expect (.keyword .if) nofun).bind fun keyword => ?_
  refine (arm_local le hinner).bind fun (condition, statements) => ?_
  refine .widen PastStatement ?_ fun _ _ _ => trivial
  have harm : Local SameStart (fun _ => PastStatement) (arm inner bound) (arm inner' bound') :=
    (arm_local le hinner).mono (fun _ _ h => h) fun _ _ _ _ => trivial
  refine (Local.many le (.keyword .elif) nofun (.stays rfl) harm).bind fun elifs => ?_
  exact (bodyAfter?_local le hinner (.stays rfl)).bind fun otherwise => .pure

theorem repeatWhile_local :
    Local SameStart (fun _ => Anywhere) (repeatWhile inner bound) (repeatWhile inner' bound') := by
  refine .widen (SameHead SameStart) ?_ fun _ _ h => (h.mono fun _ _ h => h.kind).sameStart
  refine (Local.expect (.keyword .while) nofun).bind fun keyword => ?_
  exact (arm_local le hinner).bind fun (condition, statements) => .pure

theorem repeatFor_local :
    Local SameStart (fun _ => Anywhere) (repeatFor inner bound) (repeatFor inner' bound') := by
  refine .widen (SameHead SameStart) ?_ fun _ _ h => (h.mono fun _ _ h => h.kind).sameStart
  refine (Local.expect (.keyword .for) nofun).bind fun keyword => ?_
  refine (expression_local le).bind fun count => ?_
  refine .widen (SameHead (SameHead SameStart)) ?_ fun _ _ h => .of_kind h.kind
  refine (Local.expect (.keyword .as) nofun).bind fun _ => ?_
  refine Local.identifier.bind fun placeholder => ?_
  exact (body_local le hinner).bind fun statements => .pure

theorem switch_local :
    Local SameStart (fun _ => Anywhere) (switch inner bound) (switch inner' bound') := by
  have harm : Local SameStart (fun _ => Stays fun _ => true) (arm inner bound)
      (arm inner' bound') :=
    (arm_local le hinner).mono (fun _ _ h => h) fun _ _ _ _ => trivial
  refine .widen (SameHead SameStart) ?_ fun _ _ h => (h.mono fun _ _ h => h.kind).sameStart
  refine (Local.expect (.keyword .switch) nofun).bind fun keyword => ?_
  refine (expression_local le).bind fun condition => ?_
  refine .widen (SameHead (Stays fun _ => true)) ?_ fun _ _ h => .of_kind h.kind
  refine (Local.expect (.mark .leftBrace) nofun).bind fun openedAt => ?_
  refine (Local.many le (.keyword .case) nofun (.stays rfl) harm).bind fun cases => ?_
  refine (bodyAfter?_local le hinner (.stays rfl)).bind fun otherwise => ?_
  refine .widen SameStart ?_ fun _ _ h => .of_kind h.kind
  exact (Local.expectClosing _ (by decide) _).bind fun _ => .pure

end Keywords

/-! ## Blocks -/

section Blocks

include le

theorem populateSource_local :
    Local SameStart (fun _ => Anywhere) (populateSource bound) (populateSource bound') := by
  refine fun cursor => .peek ?_ fun _ h => by rw [h.kind]
  split
  · rename_i hkind
    refine .widen (SameHead Anywhere) ?_ fun _ h => h.sameStart_of_ne (by simp [hkind])
    exact (LocalAt.skip (by simp [hkind])).bind fun _ => .pure
  · have helement : Local SameStart (fun _ => SameKind) (expression bound) (expression bound') :=
      (expression_local le).mono (fun _ _ h => h) fun _ _ _ h => .of_kind h
    exact ((Local.delimited le _ (by decide) helement).bind fun elements => .pure) cursor

/-- What seeds the slots, in its braces. -/
def seeding (bound : Nat) : Parser (Option Populate) := do
  let openedAt ← expect (.mark .leftBrace)
  let source ← populateSource bound
  expectClosing .leftBrace .rightBrace openedAt
  return some source

theorem seeding_local :
    Local (SameHead SameKind) (fun _ => Anywhere) (seeding bound) (seeding bound') := by
  refine .widen (SameHead SameStart) ?_ fun _ _ h => h.mono fun _ _ h => h.kind
  refine (Local.expect (.mark .leftBrace) nofun).bind fun openedAt => ?_
  refine (populateSource_local le).bind fun source => ?_
  refine .widen SameStart ?_ fun _ _ _ => trivial
  exact (Local.expectClosing _ (by decide) _).bind fun _ => .pure

omit le in
theorem populate?_eq (cursor : Cursor) :
    populate? bound cursor =
      if cursor.seeds then seeding bound cursor else .accepted none cursor := by
  change (if cursor.seeds then seeding bound else Parser.pure none : Parser _) cursor = _
  split <;> rfl

theorem populate?_local :
    Local Anywhere
      (fun populate rest left => populate = none → left.seeds = true → rest.seeds = true)
      (populate? bound) (populate? bound') := by
  intro cursor
  cases hseeds : cursor.seeds with
  | true =>
      refine .mono (.congr (seeding_local le cursor) (by rw [populate?_eq, if_pos hseeds]) ?_)
        (fun _ _ => trivial) fun _ _ _ _ => trivial
      intro cursor' value rest hhead _
      have hseeds' : cursor'.seeds = true := by
        rw [← hhead.sameStart.seeds]
        exact hseeds
      rw [populate?_eq, if_pos hseeds']
  | false =>
      intro value rest hread
      rw [populate?_eq, hseeds] at hread
      cases hread
      refine ⟨[], rfl, fun left hleft => ⟨?_, trivial⟩⟩
      cases hseeds' : left.seeds with
      | false =>
          rw [Cursor.prepend_nil, populate?_eq, hseeds']
          rfl
      | true =>
          rw [hleft rfl hseeds'] at hseeds
          cases hseeds

theorem implementing_local (name : Identifier) :
    Local SameStart Behind (implementing name bound) (implementing name bound') := by
  refine Local.name.bind fun parent => (populate?_local le).bind fun populate => ?_
  refine .widen _ .pure ?_
  rintro rest left hbehind rfl
  exact hbehind.seeds rfl

include hinner

theorem plainBlock_local (name : Identifier) :
    Local SameKind (fun _ => Anywhere) (plainBlock inner name bound)
      (plainBlock inner' name bound') := by
  have hverb : Local SameStart (fun _ => Stays fun _ => true) identifier identifier :=
    Local.name.mono (fun _ _ h => h) fun _ _ _ _ => trivial
  have hargument : Local SameStart (fun _ => SameKind) identifier identifier :=
    Local.name.mono (fun _ _ h => h) fun _ _ _ _ => trivial
  refine .widen (Stays fun _ => true) ?_ fun _ _ h => h rfl
  refine (Local.many le (.mark .colon) nofun (.stays rfl) hverb).bind fun verbs => ?_
  refine .widen SameStart ?_ fun _ _ h => .of_kind h.kind
  refine (Local.delimited le _ (by decide) hargument).bind fun arguments => ?_
  refine .widen (SameHead (Stays fun _ => true)) ?_ fun _ _ _ => trivial
  refine (Local.expect (.mark .leftBrace) nofun).bind fun openedAt => ?_
  refine (bodyAfter?_local le hinner (.stays rfl)).bind fun init => ?_
  refine .widen SameView ?_ fun _ _ h => .of_kind h.kind
  exact (bodyRest_local le hinner openedAt).bind fun program => .pure

theorem block_local :
    Local SameStart Behind (block inner bound) (block inner' bound') := by
  refine .widen (SameHead SameKind) ?_ fun _ _ h => h.sameStart
  refine Local.identifier.bind fun name => ?_
  refine .widen (Stays fun _ => true) ?_ fun _ _ h => h rfl
  have tells : Tells (Stays fun _ => true) SameStart (.keyword .implements) := .stays rfl
  refine (Local.eat? (.keyword .implements) nofun tells).bind fun implements => ?_
  cases implements with
  | true => exact implementing_local le name
  | false =>
      exact (plainBlock_local le hinner name).mono (fun _ _ h _ => h) fun _ _ _ _ => trivial

end Blocks

/-! ## Statements that start with an expression -/

section

include le

theorem assignment_local (target : Expression) :
    Local Anywhere (fun _ => PastExpression) (assignment target bound)
      (assignment target bound') := by
  cases target with
  | reference name =>
      refine .widen SameStart ?_ fun _ _ _ => trivial
      exact (expression_local le).bind fun value => .pure
  | _ => exact fun _ => .reject

theorem change_local (op : QuantityOp) (target : Expression) :
    Local Anywhere (fun _ => PastExpression) (change op target bound)
      (change op target bound') := by
  unfold change
  split
  · refine .widen SameStart ?_ fun _ _ _ => trivial
    exact (expression_local le).bind fun operand => .pure
  · exact .widen _ .pure fun _ _ _ => trivial

theorem afterTarget_local (target : Expression) :
    Local PastStatement (fun _ => PastStatement) (afterTarget target bound)
      (afterTarget target bound') := by
  intro cursor
  by_cases hequals : cursor.kind = .mark .equals
  · refine .widen (SameHead Anywhere) ?_ fun _ h => .of_kind h.kind
    refine .peek ?_ fun _ h => by rw [h.kind]
    rw [hequals]
    refine (LocalAt.skip (by simp [hequals])).bind fun _ => ?_
    exact (assignment_local le target).mono (fun _ _ h => h) fun _ _ _ h => h.expression
  · by_cases hchange : ∃ op, cursor.kind = .quantity op
    · obtain ⟨op, hchange⟩ := hchange
      refine .widen (SameHead Anywhere) ?_ fun _ h => .of_kind h.kind
      refine .peek ?_ fun _ h => by rw [h.kind]
      rw [hchange]
      refine (LocalAt.skip (by simp [hchange])).bind fun _ => ?_
      exact (change_local le op target).mono (fun _ _ h => h) fun _ _ _ h => h.expression
    · intro value rest hread
      rw [afterTarget_of_ne hequals fun op h => hchange ⟨op, h⟩] at hread
      split at hread
      · rename_i heffect
        cases hread
        refine ⟨[], rfl, fun left hpast => ⟨?_, hpast⟩⟩
        rw [Cursor.prepend_nil, afterTarget_of_ne, if_pos heffect]
        · intro h
          exact hequals ((hpast (by rw [h]; rfl)).trans h)
        · intro op h
          exact hchange ⟨op, (hpast (by rw [h]; rfl)).trans h⟩
      · cases hread

theorem expressionStatement_local :
    Local SameStart (fun _ => PastStatement) (expressionStatement bound)
      (expressionStatement bound') :=
  (expression_local le).bind fun target =>
    (afterTarget_local le target).widen _ fun _ _ h => h.expression

end

/-! ## Statements -/

include le hinner in
theorem statementOver_local :
    Local SameStart Behind (statementOver inner bound) (statementOver inner' bound') := by
  refine fun cursor => .here ?_ fun _ h => h.position
  refine .peek ?_ fun _ h => by rw [h.kind]
  split
  · rename_i hkind
    exact (declaration_local le hkind .const).mono (fun _ h => h) fun _ _ _ h => h.past
  · rename_i hkind
    exact (declaration_local le hkind .let).mono (fun _ h => h) fun _ _ _ h => h.past
  · exact (branch_local le hinner cursor).mono (fun _ h => h) fun _ _ _ h => h.past
  · exact (repeatWhile_local le hinner cursor).mono (fun _ h => h) fun _ _ _ _ => trivial
  · exact (repeatFor_local le hinner cursor).mono (fun _ h => h) fun _ _ _ _ => trivial
  · exact (switch_local le hinner cursor).mono (fun _ h => h) fun _ _ _ _ => trivial
  · rename_i hkind
    exact (exit_local le hkind .return).mono (fun _ h => h) fun _ _ _ h => h.past
  · rename_i hkind
    exact (exit_local le hkind .throw).mono (fun _ h => h) fun _ _ _ h => h.past
  · rename_i hkind
    refine .widen (SameHead Anywhere) ?_ fun _ h => h.sameStart_of_ne (by simp [hkind])
    refine (LocalAt.skip (by simp [hkind])).bind fun _ => ?_
    exact .widen _ .pure fun _ _ _ => trivial
  · cases hstarts : startsBlock cursor with
    | true =>
        refine .congr (block_local le hinner cursor) ?_ fun cursor' value rest _ hblock => ?_
        · rw [standsAtBlock_bind, hstarts, if_pos rfl]
        · rw [standsAtBlock_bind, startsBlock_of_block hblock, if_pos rfl]
    | false =>
        refine .mono (.congr (expressionStatement_local le cursor) ?_ ?_) (fun _ h => h)
          fun _ _ _ h => h.past
        · rw [standsAtBlock_bind, hstarts, if_neg nofun]
        · intro cursor' value rest _ h
          cases hstarts' : startsBlock cursor' with
          | true => exact absurd h (not_expressionStatement_of_startsBlock hstarts')
          | false => rw [standsAtBlock_bind, hstarts', if_neg nofun]
  · exact (expressionStatement_local le cursor).mono (fun _ h => h) fun _ _ _ h => h.past
  · exact (expressionStatement_local le cursor).mono (fun _ h => h) fun _ _ _ h => h.past
  · exact (expressionStatement_local le cursor).mono (fun _ h => h) fun _ _ _ h => h.past
  · exact (expressionStatement_local le cursor).mono (fun _ h => h) fun _ _ _ h => h.past
  · exact .reject

end Statements

/-- What is read as a statement does not depend on what follows, as long as that does not go on with
it. -/
theorem statement_local (le : bound ≤ bound') :
    Local SameStart Behind (statement bound) (statement bound') := by
  induction bound generalizing bound' with
  | zero => exact .exhausted
  | succ bound ih =>
      cases bound' with
      | zero => omega
      | succ bound' =>
          have le' := Nat.le_of_succ_le_succ le
          exact statementOver_local le' (ih le')

end Grammar
end Bir
