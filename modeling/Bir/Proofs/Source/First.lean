import Bir.Grammar.Statement
import Bir.Proofs.Layout.Grammar
import Bir.Proofs.Source.Locality

/-!
# First — what an accepted reading starts with

What is read from a cursor tells what stood there.  This file defines:

* `Token.Kind.continuesExpression` and `Token.Kind.continuesStatement` — the kinds of tokens that go
  on with an expression and with a statement;
* `Token.Kind.startsExpression` and `Token.Kind.startsStatement` — those that start one.

Where a block is declared, `startsBlock` says so; where it says so, no other statement is read.  So
a reader that looks ahead to the bracket of a block is never mistaken about what it reads.
-/

namespace Bir

namespace Token.Kind

/-- Whether a token of this kind behind an expression goes on with it. -/
def continuesExpression : Token.Kind → Bool
  | .arithmetic _ => true
  | .condition _ => true
  | .keyword .log => true
  | .mark .colon => true
  | .mark .leftParen => true
  | _ => false

/-- Whether a token of this kind behind a statement goes on with it. -/
def continuesStatement : Token.Kind → Bool
  | .quantity _ => true
  | .keyword .elif => true
  | .keyword .else => true
  | .mark .equals => true
  | kind => kind.continuesExpression

/-- Whether a token of this kind starts an expression. -/
def startsExpression : Token.Kind → Bool
  | .integer _ => true
  | .text _ => true
  | .identifier _ _ => true
  | .slot _ => true
  | .mark .leftBrace => true
  | _ => false

/-- Whether a token of this kind starts a statement. -/
def startsStatement : Token.Kind → Bool
  | .comment _ => true
  | .keyword .const => true
  | .keyword .let => true
  | .keyword .if => true
  | .keyword .while => true
  | .keyword .for => true
  | .keyword .switch => true
  | .keyword .return => true
  | .keyword .throw => true
  | kind => kind.startsExpression

theorem continuesStatement_of_expression {kind : Token.Kind}
    (h : kind.continuesExpression = true) : kind.continuesStatement = true := by
  unfold continuesStatement
  split <;> first | rfl | exact h

theorem eq_identifier {kind : Token.Kind} (h : kind.isIdentifier = true) :
    ∃ name negative, kind = .identifier name negative := by
  cases kind with
  | identifier name negative => exact ⟨name, negative, rfl⟩
  | _ => cases h

/-- No token both starts a statement and goes on with one. -/
theorem continuesStatement_of_starts {kind : Token.Kind} (h : kind.startsStatement = true) :
    kind.continuesStatement = false := by
  cases kind with
  | keyword word => cases word <;> first | rfl | cases h
  | mark sign => cases sign <;> first | rfl | cases h
  | _ => first | rfl | cases h

end Token.Kind

namespace Grammar

open Bir.Grammar.Parser

/-! ## Accepted steps -/

namespace Parser

variable {α β : Type} {cursor rest : Cursor}

/-- A sequence accepts where its parts accept one after the other. -/
theorem bind_eq_accepted {first : Parser α} {next : α → Parser β} {value : β} :
    (first >>= next) cursor = .accepted value rest ↔
      ∃ head middle, first cursor = .accepted head middle ∧
        next head middle = .accepted value rest := by
  change Parser.bind first next cursor = _ ↔ _
  unfold Parser.bind
  constructor
  · intro h
    cases hfirst : first cursor with
    | accepted head middle =>
        rw [hfirst] at h
        exact ⟨head, middle, rfl, h⟩
    | rejected error => simp [hfirst] at h
    | exhausted => simp [hfirst] at h
  · rintro ⟨head, middle, hfirst, hnext⟩
    rw [hfirst]
    exact hnext

/-- A sequence goes on where its first part stops. -/
theorem bind_of_accepted {first : Parser α} {next : α → Parser β} {head : α} {middle : Cursor}
    (h : first cursor = .accepted head middle) : (first >>= next) cursor = next head middle := by
  change Parser.bind first next cursor = _
  unfold Parser.bind
  rw [h]

/-- A sequence stops where its first part rejects. -/
theorem bind_of_rejected {first : Parser α} {next : α → Parser β} {error : SyntaxError}
    (h : first cursor = .rejected error) : (first >>= next) cursor = .rejected error := by
  change Parser.bind first next cursor = _
  unfold Parser.bind
  rw [h]

/-- A sequence rejects where one of its parts does. -/
theorem bind_eq_rejected {first : Parser α} {next : α → Parser β} {error : SyntaxError} :
    (first >>= next) cursor = .rejected error ↔
      first cursor = .rejected error ∨
        ∃ head middle, first cursor = .accepted head middle ∧
          next head middle = .rejected error := by
  change Parser.bind first next cursor = _ ↔ _
  unfold Parser.bind
  cases first cursor <;> simp [and_assoc]

theorem peek_bind (next : Token.Kind → Parser β) :
    (peek >>= next) cursor = next cursor.kind cursor := rfl

theorem here_bind (next : Position → Parser β) :
    (here >>= next) cursor = next cursor.position cursor := rfl

theorem skip_bind (next : Unit → Parser β) :
    (skip >>= next) cursor = next () cursor.next := rfl

theorem identifier_eq_accepted {name : Identifier} (h : identifier cursor = .accepted name rest) :
    cursor.kind.isIdentifier = true ∧ rest = cursor.next := by
  unfold identifier at h
  split at h
  · rename_i hkind
    cases h
    exact ⟨by rw [hkind]; rfl, rfl⟩
  · cases h

theorem expect_eq_accepted {kind : Token.Kind} {position : Position}
    (h : expect kind cursor = .accepted position rest) :
    cursor.kind = kind ∧ rest = cursor.next := by
  unfold expect at h
  split at h
  · cases h
    exact ⟨‹_›, rfl⟩
  · cases h

theorem eat?_of_eq {kind : Token.Kind} (h : cursor.kind = kind) :
    eat? kind cursor = .accepted true cursor.next :=
  if_pos h

theorem eat?_of_ne {kind : Token.Kind} (h : cursor.kind ≠ kind) :
    eat? kind cursor = .accepted false cursor :=
  if_neg h

end Parser

variable {cursor rest : Cursor} {bound : Nat}

/-! ## Expressions -/

section Levels

variable {join : Join} {operand : Parser Expression} {value : Expression}

/-- The signs of a level are among those that go on with an expression. -/
def Join.Continues (join : Join) : Prop :=
  ∀ kind, kind.continuesExpression = false → join kind = none

theorem conditionJoin_continues : conditionJoin.Continues := by
  intro kind hkind
  unfold conditionJoin
  split <;> simp_all [Token.Kind.continuesExpression]

theorem sumJoin_continues : sumJoin.Continues := by
  intro kind hkind
  unfold sumJoin
  split <;> simp_all [Token.Kind.continuesExpression]

theorem productJoin_continues : productJoin.Continues := by
  intro kind hkind
  unfold productJoin
  split <;> simp_all [Token.Kind.continuesExpression]

theorem powerJoin_continues : powerJoin.Continues := by
  intro kind hkind
  unfold powerJoin
  split <;> simp_all [Token.Kind.continuesExpression]

/-- A level reads an operand first. -/
theorem chain_eq_accepted (h : chain join operand bound cursor = .accepted value rest) :
    ∃ left middle, operand cursor = .accepted left middle := by
  obtain ⟨left, middle, hleft, -⟩ := bind_eq_accepted.1 h
  exact ⟨left, middle, hleft⟩

theorem powers_eq_accepted (h : powers operand bound cursor = .accepted value rest) :
    ∃ base middle, operand cursor = .accepted base middle := by
  cases bound with
  | zero => cases h
  | succ bound =>
      obtain ⟨base, middle, hbase, -⟩ := bind_eq_accepted.1 h
      exact ⟨base, middle, hbase⟩

/-- A level stops where no sign of it follows. -/
theorem chainRest_stop (turns : Nat) (left : Expression) (h : join cursor.kind = none) :
    chainRest join operand (turns + 1) left cursor = .accepted left cursor := by
  unfold chainRest
  rw [peek_bind, h]
  rfl

/-- A sign of a level joins what follows it to what was read. -/
theorem chainRest_step {combine : Expression → Expression → Expression} {right : Expression}
    (turns : Nat) (left : Expression) (hjoin : join cursor.kind = some combine)
    (hright : operand cursor.next = .accepted right rest) :
    chainRest join operand (turns + 1) left cursor =
      chainRest join operand turns (combine left right) rest := by
  rw [chainRest, peek_bind, hjoin]
  exact (skip_bind _).trans (bind_of_accepted hright)

/-- What no sign of a level follows is all that the level reads. -/
theorem chain_of_stop (hjoin : join.Continues) (h : operand cursor = .accepted value rest)
    (stop : rest.kind.continuesExpression = false) :
    chain join operand (bound + 1) cursor = .accepted value rest :=
  (bind_of_accepted h).trans (chainRest_stop bound value (hjoin _ stop))

/-- What neither `log` nor the sign of a power follows is all that the level of powers reads. -/
theorem powers_stop (h : operand cursor = .accepted value rest)
    (noLog : rest.kind ≠ .keyword .log) (noSign : powerJoin rest.kind = none) :
    powers operand (bound + 1) cursor = .accepted value rest := by
  refine (bind_of_accepted h).trans ?_
  rw [peek_bind, if_neg noLog, noSign]
  rfl

/-- The sign of a power joins all powers behind it to what stands before it. -/
theorem powers_step {combine : Expression → Expression → Expression} {base right : Expression}
    {middle : Cursor} (hbase : operand cursor = .accepted base middle)
    (hjoin : powerJoin middle.kind = some combine)
    (hright : powers operand bound middle.next = .accepted right rest) :
    powers operand (bound + 1) cursor = .accepted (combine base right) rest := by
  have noLog : middle.kind ≠ .keyword .log := by
    intro hlog
    rw [hlog] at hjoin
    cases hjoin
  refine (bind_of_accepted hbase).trans ?_
  rw [peek_bind, if_neg noLog, hjoin]
  exact (skip_bind _).trans (bind_of_accepted hright)

theorem powers_of_stop (h : operand cursor = .accepted value rest)
    (stop : rest.kind.continuesExpression = false) :
    powers operand (bound + 1) cursor = .accepted value rest := by
  refine powers_stop h ?_ (powerJoin_continues _ stop)
  intro hlog
  rw [hlog] at stop
  cases stop

end Levels

/-! ## Operands -/

section Operands

variable {inner : Parser Expression}

/-- Nothing but a name starts a call, and the sign behind it goes on with an expression. -/
theorem startsCall_eq_true {kind following : Token.Kind} (h : startsCall kind following = true) :
    kind.isIdentifier = true ∧ following.continuesExpression = true := by
  unfold startsCall at h
  split at h
  · exact ⟨rfl, rfl⟩
  · exact ⟨rfl, rfl⟩
  · cases h

theorem operand_of_call (h : startsCall cursor.kind (cursor.kindAt 1) = true) :
    operand inner bound cursor = call inner bound cursor := by
  change (if startsCall cursor.kind (cursor.kindAt 1) then _ else _ : Parser Expression) cursor = _
  rw [if_pos h]

/-- A string. -/
def string (text : String) : Parser Expression := do
  let position ← here
  skip
  return .string text position

theorem operand_of_text {text : String} (h : cursor.kind = .text text) :
    operand inner bound cursor = string text cursor := by
  obtain ⟨_ | ⟨⟨kind, position⟩, rest⟩, stop⟩ := cursor <;> cases h
  rfl

theorem operand_of_primary (noCall : startsCall cursor.kind (cursor.kindAt 1) = false)
    (noText : ∀ text, cursor.kind ≠ .text text) :
    operand inner bound cursor = primary inner bound cursor := by
  change (if startsCall cursor.kind (cursor.kindAt 1) then _ else _ : Parser Expression) cursor = _
  rw [noCall]
  obtain ⟨_ | ⟨⟨kind, position⟩, rest⟩, stop⟩ := cursor
  · rfl
  · cases kind with
    | text text => exact absurd rfl (noText text)
    | _ => rfl

theorem primary_of_name {name : String} {negative : Bool}
    (h : cursor.kind = .identifier name negative) :
    primary inner bound cursor =
      .accepted (.reference { name, negative, position := cursor.position }) cursor.next := by
  obtain ⟨_ | ⟨⟨kind, position⟩, rest⟩, stop⟩ := cursor <;> cases h
  rfl

/-- What is read as a primary is read as an operand, unless a call goes on with it. -/
theorem operand_of_primary_accepted {value : Expression}
    (h : primary inner bound cursor = .accepted value rest) (noVerb : rest.kind ≠ .mark .colon)
    (noArguments : rest.kind ≠ .mark .leftParen) :
    operand inner bound cursor = .accepted value rest := by
  cases hkind : cursor.kind with
  | identifier name negative =>
      have hrest : rest = cursor.next := by
        cases (primary_of_name hkind).symm.trans h
        rfl
      have noCall : startsCall cursor.kind (cursor.kindAt 1) = false := by
        rw [Cursor.kindAt_one, ← hrest]
        unfold startsCall
        split
        · contradiction
        · contradiction
        · rfl
      exact (operand_of_primary noCall (by simp [hkind])).trans h
  | text text =>
      obtain ⟨_ | ⟨⟨kind, position⟩, tokens⟩, stop⟩ := cursor <;> cases hkind
      cases h
  | _ => exact (operand_of_primary (by rw [hkind]; rfl) (by simp [hkind])).trans h

/-- A group, from its opening brace on. -/
theorem primary_of_group (h : cursor.kind = .mark .leftBrace) :
    primary inner bound cursor =
      (do
        let grouped ← inner
        expectClosing .leftBrace .rightBrace cursor.position
        return grouped : Parser Expression) cursor.next := by
  obtain ⟨_ | ⟨⟨kind, position⟩, rest⟩, stop⟩ := cursor <;> cases h
  rfl

theorem primary_of_integer {value : Int64} (h : cursor.kind = .integer value) :
    primary inner bound cursor = .accepted (.integer value cursor.position) cursor.next := by
  obtain ⟨_ | ⟨⟨kind, position⟩, rest⟩, stop⟩ := cursor <;> cases h
  rfl

/-- A slot operation, from its arguments on. -/
theorem primary_of_slot {op : SlotOp} (h : cursor.kind = .slot op) :
    primary inner bound cursor =
      (do
        let arguments ← callArguments inner bound
        return .slot op arguments cursor.position : Parser Expression) cursor.next := by
  obtain ⟨_ | ⟨⟨kind, position⟩, rest⟩, stop⟩ := cursor <;> cases h
  rfl

theorem startsExpression_of_primary {value : Expression}
    (h : primary inner bound cursor = .accepted value rest) :
    cursor.kind.startsExpression = true := by
  obtain ⟨_ | ⟨⟨kind, position⟩, tokens⟩, stop⟩ := cursor
  · cases h
  · cases kind with
    | mark sign => cases sign <;> first | rfl | cases h
    | _ => first | rfl | cases h

theorem startsExpression_of_operand {value : Expression}
    (h : operand inner bound cursor = .accepted value rest) :
    cursor.kind.startsExpression = true := by
  cases hkind : cursor.kind with
  | text text => rfl
  | identifier name negative => rfl
  | _ =>
      rw [operand_of_primary (by rw [hkind]; rfl) (by simp [hkind])] at h
      rw [← hkind]
      exact startsExpression_of_primary h

/-- A group in braces is an operand. -/
theorem inner_of_operand {value : Expression} (hkind : cursor.kind = .mark .leftBrace)
    (h : operand inner bound cursor = .accepted value rest) :
    ∃ grouped middle, inner cursor.next = .accepted grouped middle := by
  rw [operand_of_primary (by rw [hkind]; rfl) (by simp [hkind]), primary_of_group hkind] at h
  obtain ⟨grouped, middle, hgrouped, -⟩ := bind_eq_accepted.1 h
  exact ⟨grouped, middle, hgrouped⟩

end Operands

/-- An expression starts with an operand. -/
theorem operand_of_expression {value : Expression}
    (h : expression bound cursor = .accepted value rest) :
    ∃ (inner : Parser Expression) (deeper : Nat) (first : Expression) (middle : Cursor),
      inner = expression deeper ∧ operand inner deeper cursor = .accepted first middle := by
  cases bound with
  | zero => cases h
  | succ bound =>
      obtain ⟨sum, afterSum, hsum⟩ := chain_eq_accepted h
      obtain ⟨product, afterProduct, hproduct⟩ := chain_eq_accepted hsum
      obtain ⟨power, afterPower, hpower⟩ := chain_eq_accepted hproduct
      obtain ⟨base, afterBase, hbase⟩ := powers_eq_accepted hpower
      exact ⟨expression bound, bound, base, afterBase, rfl, hbase⟩

theorem startsExpression_of_expression {value : Expression}
    (h : expression bound cursor = .accepted value rest) :
    cursor.kind.startsExpression = true := by
  obtain ⟨inner, deeper, first, middle, -, hoperand⟩ := operand_of_expression h
  exact startsExpression_of_operand hoperand

/-- What an opening brace starts goes on with an expression. -/
theorem startsExpression_of_group {value : Expression} (hkind : cursor.kind = .mark .leftBrace)
    (h : expression bound cursor = .accepted value rest) :
    cursor.next.kind.startsExpression = true := by
  obtain ⟨inner, deeper, first, middle, rfl, hoperand⟩ := operand_of_expression h
  obtain ⟨grouped, afterGroup, hgrouped⟩ := inner_of_operand hkind hoperand
  exact startsExpression_of_expression hgrouped

/-- A name is all that is read where nothing behind it goes on with an expression. -/
theorem expression_of_name {name : String} {negative : Bool}
    (hname : cursor.kind = .identifier name negative)
    (stop : cursor.next.kind.continuesExpression = false) (bound : Nat) :
    expression (bound + 2) cursor =
      .accepted (.reference { name, negative, position := cursor.position }) cursor.next := by
  have noCall : startsCall cursor.kind (cursor.kindAt 1) = false := by
    cases hcall : startsCall cursor.kind (cursor.kindAt 1) with
    | false => rfl
    | true =>
        rw [Cursor.kindAt_one] at hcall
        rw [(startsCall_eq_true hcall).2] at stop
        cases stop
  have hoperand : operand (fun cursor => expression (bound + 1) cursor) (bound + 1) cursor =
      .accepted (.reference { name, negative, position := cursor.position }) cursor.next :=
    (operand_of_primary noCall (by simp [hname])).trans (primary_of_name hname)
  exact chain_of_stop conditionJoin_continues (chain_of_stop sumJoin_continues
    (chain_of_stop productJoin_continues (powers_of_stop hoperand stop) stop) stop) stop

/-! ## Statements that start with an expression -/

/-- The rest of a statement that starts with an expression. -/
def afterTarget (target : Expression) (bound : Nat) : Parser Statement := do
  match ← peek with
  | .mark .equals =>
    skip
    assignment target bound
  | .quantity op =>
    skip
    change op target bound
  | found =>
    if isEffect target then return @Statement.evaluate target target.position
    else
      let position ← here
      reject (.unexpectedToken .change found) position

theorem expressionStatement_eq :
    expressionStatement bound =
      (expression bound >>= fun target => afterTarget target bound) := rfl

/-- An expression that nothing is done to is a statement if it is an effect. -/
theorem afterTarget_of_ne (noEquals : cursor.kind ≠ .mark .equals)
    (noChange : ∀ op, cursor.kind ≠ .quantity op) (target : Expression) :
    afterTarget target bound cursor =
      if isEffect target then .accepted (@Statement.evaluate target target.position) cursor
      else .rejected ⟨.unexpectedToken .change cursor.kind, cursor.position⟩ := by
  unfold afterTarget
  change Parser.bind peek _ cursor = _
  simp only [Parser.bind, peek]
  cases isEffect target <;> split <;> first | contradiction | rfl

/-! ## Blocks -/

/-- The tokens behind the name of a block go on with a bracket, or with a verb first. -/
theorem verbsThenBracket_eq (cursor : Cursor) :
    verbsThenBracket cursor.tokens = (decide (cursor.kind = .mark .leftBracket) ||
      (decide (cursor.kind = .mark .colon) && cursor.next.kind.isIdentifier &&
        verbsThenBracket cursor.next.next.tokens)) := by
  obtain ⟨_ | ⟨⟨kind, position⟩, tokens⟩, stop⟩ := cursor
  · rfl
  · cases kind with
    | mark sign =>
        cases sign with
        | colon =>
            obtain _ | ⟨⟨kind, position⟩, tokens⟩ := tokens
            · rfl
            · cases kind <;> rfl
        | _ => rfl
    | _ => rfl

theorem standsAtBlock_bind {α : Type} (next : Bool → Parser α) :
    (standsAtBlock >>= next) cursor = next (startsBlock cursor) cursor := rfl

/-- Verbs are names where a block is declared, so its bracket follows them. -/
theorem verbsThenBracket_of_many {turns : Nat} {verbs : List Identifier}
    (h : many (.mark .colon) identifier turns cursor = .accepted verbs rest)
    (hbracket : rest.kind = .mark .leftBracket) : verbsThenBracket cursor.tokens = true := by
  induction turns generalizing cursor verbs with
  | zero => cases h
  | succ turns ih =>
      rw [verbsThenBracket_eq]
      obtain ⟨found, afterFound, hfound, h⟩ := bind_eq_accepted.1 h
      by_cases hcolon : cursor.kind = .mark .colon
      · cases (eat?_of_eq hcolon).symm.trans hfound
        obtain ⟨verb, afterVerb, hverb, h⟩ := bind_eq_accepted.1 h
        obtain ⟨hname, rfl⟩ := identifier_eq_accepted hverb
        obtain ⟨others, afterOthers, hothers, h⟩ := bind_eq_accepted.1 h
        cases h
        simp [hcolon, hname, ih hothers]
      · cases (eat?_of_ne hcolon).symm.trans hfound
        cases h
        simp [hbracket]

/-- The verbs of a call take what the verbs of a block take. -/
theorem bracket_of_many {inner : Parser Expression} {turns : Nat} {verbs : List Expression}
    (hverbs : verbsThenBracket cursor.tokens = true)
    (h : many (.mark .colon) (primary inner bound) turns cursor = .accepted verbs rest) :
    rest.kind = .mark .leftBracket := by
  induction turns generalizing cursor verbs with
  | zero => cases h
  | succ turns ih =>
      rw [verbsThenBracket_eq] at hverbs
      obtain ⟨found, afterFound, hfound, h⟩ := bind_eq_accepted.1 h
      by_cases hcolon : cursor.kind = .mark .colon
      · cases (eat?_of_eq hcolon).symm.trans hfound
        obtain ⟨verb, afterVerb, hverb, h⟩ := bind_eq_accepted.1 h
        obtain ⟨others, afterOthers, hothers, h⟩ := bind_eq_accepted.1 h
        cases h
        have hbehind : cursor.next.kind.isIdentifier = true ∧
            verbsThenBracket cursor.next.next.tokens = true := by
          simpa [hcolon] using hverbs
        obtain ⟨name, negative, hname⟩ := Token.Kind.eq_identifier hbehind.1
        cases (primary_of_name hname).symm.trans hverb
        exact ih hbehind.2 hothers
      · cases (eat?_of_ne hcolon).symm.trans hfound
        cases h
        simpa [hcolon] using hverbs

/-- Where a block is read, it is declared. -/
theorem startsBlock_of_block {inner : Parser Statement} {value : Statement}
    (h : block inner bound cursor = .accepted value rest) : startsBlock cursor = true := by
  rw [startsBlock_eq]
  obtain ⟨name, afterName, hname, h⟩ := bind_eq_accepted.1 h
  obtain ⟨hidentifier, rfl⟩ := identifier_eq_accepted hname
  by_cases himplements : cursor.next.kind = .keyword .implements
  · simp [hidentifier, himplements]
  · rw [bind_of_accepted (eat?_of_ne himplements)] at h
    obtain ⟨verbs, afterVerbs, hmany, h⟩ := bind_eq_accepted.1 h
    obtain ⟨arguments, afterArguments, hdelimited, -⟩ := bind_eq_accepted.1 h
    obtain ⟨openedAt, afterBracket, hexpect, -⟩ := bind_eq_accepted.1 hdelimited
    have hbracket := (expect_eq_accepted hexpect).1
    simp [hidentifier, verbsThenBracket_of_many hmany hbracket]

/-- Where a block is declared, no statement starts with an expression. -/
theorem not_expressionStatement_of_startsBlock {value : Statement}
    (hstarts : startsBlock cursor = true) :
    expressionStatement bound cursor ≠ .accepted value rest := by
  intro h
  rw [startsBlock_eq] at hstarts
  simp only [Bool.and_eq_true, Bool.or_eq_true, decide_eq_true_eq] at hstarts
  obtain ⟨hidentifier, hbehind⟩ := hstarts
  obtain ⟨name, negative, hname⟩ := Token.Kind.eq_identifier hidentifier
  obtain ⟨target, middle, htarget, h⟩ := bind_eq_accepted.1 (expressionStatement_eq ▸ h)
  by_cases hcolon : cursor.next.kind = .mark .colon
  · -- A call takes the verbs, but no parenthesis follows them.
    obtain ⟨inner, deeper, first, afterFirst, -, hoperand⟩ := operand_of_expression htarget
    rw [operand_of_call (by rw [Cursor.kindAt_one, hname, hcolon]; rfl)] at hoperand
    obtain ⟨_, afterName, hread, hoperand⟩ := bind_eq_accepted.1 hoperand
    obtain ⟨-, rfl⟩ := identifier_eq_accepted hread
    obtain ⟨verbs, afterVerbs, hmany, hoperand⟩ := bind_eq_accepted.1 hoperand
    obtain ⟨arguments, afterArguments, hdelimited, -⟩ := bind_eq_accepted.1 hoperand
    obtain ⟨openedAt, afterOpening, hexpect, -⟩ := bind_eq_accepted.1 hdelimited
    have hbracket := bracket_of_many (by simpa [hcolon] using hbehind) hmany
    exact absurd ((expect_eq_accepted hexpect).1.symm.trans hbracket) nofun
  · -- The name is all of the expression, and a name alone is no statement.
    have hsign : cursor.next.kind = .keyword .implements ∨
        cursor.next.kind = .mark .leftBracket := by
      simpa [verbsThenBracket_eq cursor.next, hcolon] using hbehind
    have stop : cursor.next.kind.continuesExpression = false := by
      rcases hsign with hsign | hsign <;> rw [hsign] <;> rfl
    match bound with
    | 0 => cases htarget
    | 1 =>
        obtain ⟨sum, afterSum, hsum⟩ := chain_eq_accepted htarget
        obtain ⟨product, afterProduct, hproduct⟩ := chain_eq_accepted hsum
        obtain ⟨power, afterPower, hpower⟩ := chain_eq_accepted hproduct
        cases hpower
    | bound + 2 =>
        cases (expression_of_name hname stop bound).symm.trans htarget
        rw [afterTarget_of_ne] at h
        · cases h
        · rcases hsign with hsign | hsign <;> rw [hsign] <;> nofun
        · rcases hsign with hsign | hsign <;> rw [hsign] <;> nofun

/-! ## Statements -/

/-- What starts no statement is not read as one. -/
theorem startsStatement_of_statement {value : Statement}
    (h : statement bound cursor = .accepted value rest) : cursor.kind.startsStatement = true := by
  cases bound with
  | zero => cases h
  | succ bound =>
      obtain ⟨_ | ⟨⟨kind, position⟩, tokens⟩, stop⟩ := cursor
      · cases h
      · cases kind with
        | mark sign => cases sign <;> first | rfl | cases h
        | keyword word => cases word <;> first | rfl | cases h
        | _ => first | rfl | cases h

/-- What starts a statement with an opening brace goes on with an expression. -/
theorem startsExpression_of_statement {value : Statement} (hkind : cursor.kind = .mark .leftBrace)
    (h : statement bound cursor = .accepted value rest) :
    cursor.next.kind.startsExpression = true := by
  cases bound with
  | zero => cases h
  | succ bound =>
      have hstatement : statement (bound + 1) cursor = expressionStatement bound cursor := by
        obtain ⟨_ | ⟨⟨kind, position⟩, tokens⟩, stop⟩ := cursor <;> cases hkind
        rfl
      rw [hstatement] at h
      obtain ⟨target, middle, htarget, -⟩ := bind_eq_accepted.1 (expressionStatement_eq ▸ h)
      exact startsExpression_of_group hkind htarget

end Grammar
end Bir
