import Bir.Program
import Bir.Token.Basic

/-!
# Leaves — the tokens that a tree has its positions from

A tree keeps positions where it has words, names and literals of its own, and every node keeps one
for itself, which is to be that of its left-most leaf.  This file says which tokens these are and
where they are found.  It defines:

* `Expression.leaf` and `Statement.lead` — the token that an expression or a statement starts with;
* `Part` and `Part.parts` — what a tree is made of, in the order in which it is written;
* `InOrder` — things that are written in tokens, one behind the other;
* `Part.Spans` — a part of a tree is written in certain tokens: it stands where the first of them
  does that is no brace around it, and its own parts are written in them in their order.
-/

namespace Bir

/-! ## Things one behind the other -/

/-- Things are written in tokens, one behind the other; other tokens may stand before, between and
behind them. -/
inductive InOrder {α : Type} (spans : α → List Token → Prop) : List α → List Token → Prop where
  | done (tokens : List Token) : InOrder spans [] tokens
  | next {item : α} {items : List α} {inside after : List Token} (before : List Token)
      (here : spans item inside) (there : InOrder spans items after) :
      InOrder spans (item :: items) (before ++ (inside ++ after))

namespace InOrder

variable {α β : Type} {spans : α → List Token → Prop} {item : α} {items others : List α}
variable {tokens inside after : List Token}

theorem behind (before : List Token) (h : InOrder spans items tokens) :
    InOrder spans items (before ++ tokens) := by
  cases h with
  | done => exact .done _
  | next between here there =>
      rw [← List.append_assoc]
      exact .next _ here there

theorem skip (token : Token) (h : InOrder spans items tokens) :
    InOrder spans items (token :: tokens) :=
  h.behind [token]

theorem cons (here : spans item inside) (there : InOrder spans items after) :
    InOrder spans (item :: items) (inside ++ after) :=
  .next [] here there

theorem append (h : InOrder spans items tokens) (h' : InOrder spans others after) :
    InOrder spans (items ++ others) (tokens ++ after) := by
  induction h with
  | done tokens => exact h'.behind tokens
  | next before here there ih =>
      rw [List.append_assoc, List.append_assoc]
      exact .next before here ih

theorem before (h : InOrder spans items tokens) (after : List Token) :
    InOrder spans items (tokens ++ after) := by
  have happend := h.append (.done after)
  rwa [List.append_nil] at happend

theorem map {f : β → α} {items : List β} (h : InOrder (fun item => spans (f item)) items tokens) :
    InOrder spans (items.map f) tokens := by
  induction h with
  | done tokens => exact .done tokens
  | next before here there ih => exact .next before here ih

/-- Where the parts of things are in order in each of them, all parts are. -/
theorem flatMap {f : β → List α} {items : List β}
    (h : InOrder (fun item => InOrder spans (f item)) items tokens) :
    InOrder spans (items.flatMap f) tokens := by
  induction h with
  | done tokens => exact .done tokens
  | next before here there ih => exact (here.append ih).behind before

end InOrder

/-! ## First tokens -/

/-- The token that a name is. -/
def Identifier.token (name : Identifier) : Token :=
  ⟨.identifier name.name name.negative, name.position⟩

/-- The word that declares a kind of binding, as a token. -/
def BindingKind.word : BindingKind → Keyword
  | .const => .const
  | .let => .let

/-- The word that leaves a block, as a token. -/
def Exit.word : Exit → Keyword
  | .return => .return
  | .throw => .throw

/-- The left-most leaf of an expression: a literal, a name or the word of a slot operation. -/
def Expression.leaf : Expression → Token
  | .arithmetic _ left _ => left.leaf
  | .condition _ left _ => left.leaf
  | .logarithm operand _ => operand.leaf
  | .call name _ _ => name.token
  | .slot op _ keyword => ⟨.slot op, keyword⟩
  | .integer value position => ⟨.integer value, position⟩
  | .string text position => ⟨.text text, position⟩
  | .reference name => name.token

namespace Statement

/-- The token that a statement starts with: its keyword, its comment, the name of its block, or the
left-most leaf of the expression that it is about. -/
def lead : Statement → Token
  | .declare kind _ _ keyword => ⟨.keyword kind.word, keyword⟩
  | .block name _ _ _ _ => name.token
  | .implementing name _ _ => name.token
  | .assign target _ => target.token
  | .modify _ target _ => target.leaf
  | .exit way _ keyword => ⟨.keyword way.word, keyword⟩
  | .branch _ _ _ _ keyword => ⟨.keyword .if, keyword⟩
  | .repeatWhile _ _ keyword => ⟨.keyword .while, keyword⟩
  | .repeatFor _ _ _ keyword => ⟨.keyword .for, keyword⟩
  | .switch _ _ _ keyword => ⟨.keyword .switch, keyword⟩
  | .evaluate value => value.leaf
  | .comment text position => ⟨.comment text, position⟩

/-- Whether a statement is about an expression that it starts with. -/
def startsWithTarget : Statement → Bool
  | .assign _ _ => true
  | .modify _ _ _ => true
  | .evaluate _ => true
  | _ => false

end Statement

/-- Tokens start with a certain one, which stands at a position.  Where it may be grouped, nothing
but opening braces stands before it, and nothing at all elsewhere. -/
structure Led (grouped : Bool) (lead : Token) (position : Position) (tokens : List Token) :
    Prop where
  position : lead.position = position
  first : ∃ braces rest, tokens = braces ++ lead :: rest ∧
    (∀ brace ∈ braces, brace.kind = .mark .leftBrace) ∧ (grouped = false → braces = [])

namespace Led

variable {grouped : Bool} {lead : Token} {position : Position} {tokens : List Token}

theorem ne_nil (h : Led grouped lead position tokens) : tokens ≠ [] := by
  obtain ⟨-, braces, rest, rfl, -⟩ := h
  simp

theorem word (h : lead.position = position) (rest : List Token) :
    Led grouped lead position (lead :: rest) :=
  ⟨h, [], rest, rfl, nofun, fun _ => rfl⟩

theorem append (h : Led grouped lead position tokens) (after : List Token) :
    Led grouped lead position (tokens ++ after) := by
  obtain ⟨hposition, braces, rest, rfl, hbraces⟩ := h
  exact ⟨hposition, braces, rest ++ after, by simp, hbraces⟩

theorem group (h : Led true lead position tokens) (openedAt : Position) :
    Led true lead position (⟨.mark .leftBrace, openedAt⟩ :: tokens) := by
  obtain ⟨hposition, braces, rest, rfl, hbraces, -⟩ := h
  exact ⟨hposition, _ :: braces, rest, rfl, by simpa using hbraces, nofun⟩

end Led

/-! ## Parts -/

/-- A part of a tree, or a token that the tree keeps the position of. -/
inductive Part where
  | token (token : Token)
  | expression (expression : Expression)
  | statement (statement : Statement)

/-- The parts of an expression, in the order in which they are written. -/
def Expression.parts : Expression → List Part
  | .arithmetic _ left right => [.expression left, .expression right]
  | .condition _ left right => [.expression left, .expression right]
  | .logarithm operand keyword => [.expression operand, .token ⟨.keyword .log, keyword⟩]
  | .call name verbs arguments => .token name.token :: (verbs ++ arguments).map .expression
  | .slot op arguments keyword => .token ⟨.slot op, keyword⟩ :: arguments.map .expression
  | .integer value position => [.token ⟨.integer value, position⟩]
  | .string text position => [.token ⟨.text text, position⟩]
  | .reference name => [.token name.token]

/-- The parts of what seeds slots. -/
def Populate.parts : Populate → List Part
  | .string _ => []
  | .array elements => elements.map .expression

/-- The parts of an expression and of the statements behind it. -/
def armParts (arm : Expression × List Statement) : List Part :=
  .expression arm.1 :: arm.2.map .statement

/-- The parts of statements that may be missing. -/
def bodyParts (body : Option (List Statement)) : List Part := (body.getD []).map .statement

/-- The parts of a statement, in the order in which they are written. -/
def Statement.parts : Statement → List Part
  | .declare kind name value keyword =>
    [.token ⟨.keyword kind.word, keyword⟩, .token name.token, .expression value]
  | .block name verbs arguments init program =>
    .token name.token ::
      ((verbs ++ arguments).map fun name => .token name.token) ++
      (bodyParts init ++ program.map .statement)
  | .implementing name parent populate =>
    .token name.token :: .token parent.token :: populate.elim [] Populate.parts
  | .assign target value => [.expression (.reference target), .expression value]
  | .modify _ target operand => .expression target :: operand.toList.map .expression
  | .exit way value keyword => [.token ⟨.keyword way.word, keyword⟩, .expression value]
  | .branch condition body elifs otherwise keyword =>
    .token ⟨.keyword .if, keyword⟩ :: armParts (condition, body) ++
      (elifs.flatMap armParts ++ bodyParts otherwise)
  | .repeatWhile condition body keyword =>
    .token ⟨.keyword .while, keyword⟩ :: armParts (condition, body)
  | .repeatFor count placeholder body keyword =>
    .token ⟨.keyword .for, keyword⟩ :: .expression count :: .token placeholder.token ::
      body.map .statement
  | .switch condition cases otherwise keyword =>
    .token ⟨.keyword .switch, keyword⟩ :: .expression condition ::
      (cases.flatMap armParts ++ bodyParts otherwise)
  | .evaluate value => [.expression value]
  | .comment text position => [.token ⟨.comment text, position⟩]

/-- A part is written in certain tokens.  They start with the leaf of an expression, or with what a
statement starts with, and the part stands there; its own parts are written in them in order. -/
inductive Part.Spans : Part → List Token → Prop where
  | token (token : Token) : Spans (.token token) [token]
  | expression {expression : Expression} {tokens : List Token}
      (led : Led true expression.leaf expression.position tokens)
      (inside : InOrder Spans expression.parts tokens) : Spans (.expression expression) tokens
  | statement {statement : Statement} {tokens : List Token}
      (led : Led statement.startsWithTarget statement.lead statement.position tokens)
      (inside : InOrder Spans statement.parts tokens) : Spans (.statement statement) tokens

/-- An expression is written in certain tokens. -/
abbrev Expression.Spans (expression : Expression) (tokens : List Token) : Prop :=
  Part.Spans (.expression expression) tokens

/-- A statement is written in certain tokens. -/
abbrev Statement.Spans (statement : Statement) (tokens : List Token) : Prop :=
  Part.Spans (.statement statement) tokens

/-- An import is its word and the name of a module. -/
def Import.Spans (request : Import) (tokens : List Token) : Prop :=
  ∃ named, tokens = [⟨.keyword .use, request.position⟩, ⟨.text request.module, named⟩]

namespace InOrder

/-- A token is written as itself. -/
theorem token {token : Token} {parts : List Part} {tokens : List Token}
    (there : InOrder Part.Spans parts tokens) :
    InOrder Part.Spans (.token token :: parts) (token :: tokens) :=
  .cons (.token token) there

theorem expressions {expressions : List Expression} {tokens : List Token}
    (h : InOrder Expression.Spans expressions tokens) :
    InOrder Part.Spans (expressions.map .expression) tokens :=
  InOrder.map (f := Part.expression) h

theorem names {names : List Identifier} {tokens : List Token}
    (h : InOrder (fun name inside => inside = [name.token]) names tokens) :
    InOrder Part.Spans (names.map fun name => .token name.token) tokens := by
  induction h with
  | done tokens => exact .done tokens
  | @next name _ _ _ before here there ih =>
      subst here
      exact .next before (.token name.token) ih

end InOrder

/-- A program is its imports in their order and its statements in theirs. -/
structure Program.Spans (program : Program) (tokens : List Token) : Prop where
  imports : InOrder Import.Spans program.imports tokens
  statements : InOrder Statement.Spans program.statements tokens

namespace Expression.Spans

variable {expression : Expression} {tokens : List Token}

/-- An expression that is no group starts with its leaf. -/
theorem of_leaf (stands : expression.leaf.position = expression.position)
    (inside : InOrder Part.Spans expression.parts (expression.leaf :: tokens)) :
    expression.Spans (expression.leaf :: tokens) :=
  .expression (.word stands tokens) inside

theorem led (h : expression.Spans tokens) :
    Led true expression.leaf expression.position tokens := by
  cases h with
  | expression led inside => exact led

theorem ne_nil (h : expression.Spans tokens) : tokens ≠ [] := h.led.ne_nil

/-- Braces around an expression are no part of it. -/
theorem group (h : expression.Spans tokens) (openedAt closedAt : Position) :
    expression.Spans
      (⟨.mark .leftBrace, openedAt⟩ :: (tokens ++ [⟨.mark .rightBrace, closedAt⟩])) := by
  cases h with
  | expression led inside =>
      exact .expression ((led.append _).group openedAt) ((inside.before _).skip _)

/-- What is joined to an expression stands behind it, and the whole where the expression does. -/
theorem extend (whole : Expression) {behind : List Part} (h : expression.Spans tokens)
    (leaf : whole.leaf = expression.leaf) (stands : whole.position = expression.position)
    (parts : whole.parts = .expression expression :: behind) {after : List Token}
    (hbehind : InOrder Part.Spans behind after) : whole.Spans (tokens ++ after) := by
  refine .expression ?_ ?_
  · rw [leaf, stands]
    exact h.led.append after
  · rw [parts]
    exact .cons h hbehind

/-- A statement is written from its target on, and stands where that does. -/
theorem statement {statement : Statement} {behind : List Part} (h : expression.Spans tokens)
    (starts : statement.startsWithTarget = true) (lead : statement.lead = expression.leaf)
    (stands : statement.position = expression.position)
    (parts : statement.parts = .expression expression :: behind) {after : List Token}
    (hbehind : InOrder Part.Spans behind after) : statement.Spans (tokens ++ after) := by
  refine .statement ?_ ?_
  · rw [starts, lead, stands]
    exact h.led.append after
  · rw [parts]
    exact .cons h hbehind

end Expression.Spans

namespace Statement.Spans

variable {statement : Statement} {tokens : List Token}

/-- A statement with a word or a name of its own starts with it. -/
theorem of_lead (stands : statement.lead.position = statement.position)
    (inside : InOrder Part.Spans statement.parts (statement.lead :: tokens)) :
    statement.Spans (statement.lead :: tokens) :=
  .statement (.word stands tokens) inside

theorem ne_nil (h : statement.Spans tokens) : tokens ≠ [] := by
  cases h with
  | statement led inside => exact led.ne_nil

end Statement.Spans

end Bir
