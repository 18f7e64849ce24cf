import Bir.Grammar.Error
import Bir.Program

/-!
# Layout — programs without their positions

Where something stands in a source text is kept in every node of its tree.  This file defines
`unplaced`, which takes all positions away, for what the grammar reads and for what it makes:

* `Token.unplaced`, and `SyntaxError.unplaced` for what is no program;
* `Identifier.unplaced`, `Expression.unplaced` and `Populate.unplaced`;
* `Statement.unplaced` with `Statement.unplacedArm`, and `Program.unplaced`.

A position that was taken away is the synthetic one.
-/

namespace Bir

/-! ## Tokens -/

/-- A token without its position. -/
def Token.unplaced (token : Token) : Token := { token with position := .synthetic }

@[simp]
theorem Token.kind_unplaced (token : Token) : token.unplaced.kind = token.kind := rfl

@[simp]
theorem Token.position_unplaced (token : Token) : token.unplaced.position = .synthetic := rfl

/-- Tokens without positions are their kinds. -/
theorem Token.map_unplaced_eq_iff {tokens tokens' : List Token} :
    tokens.map unplaced = tokens'.map unplaced ↔ tokens.map kind = tokens'.map kind := by
  have hkind : ∀ tokens : List Token,
      tokens.map unplaced = (tokens.map kind).map fun kind => ⟨kind, .synthetic⟩ := by
    intro tokens
    simp [unplaced, Function.comp_def]
  constructor
  · intro h
    simpa [Function.comp_def] using congrArg (List.map kind) h
  · intro h
    rw [hkind, hkind, h]

/-! ## Syntax errors -/

namespace SyntaxError

/-- A cause without the position that it names. -/
def Cause.unplaced : Cause → Cause
  | .unclosedDelimiter opening _ => .unclosedDelimiter opening .synthetic
  | cause => cause

/-- A syntax error without its positions. -/
def unplaced (error : SyntaxError) : SyntaxError := ⟨error.cause.unplaced, .synthetic⟩

end SyntaxError

/-! ## Expressions -/

/-- A name without its position. -/
def Identifier.unplaced (name : Identifier) : Identifier := { name with position := .synthetic }

@[simp]
theorem Identifier.name_unplaced (name : Identifier) : name.unplaced.name = name.name := rfl

@[simp]
theorem Identifier.negative_unplaced (name : Identifier) :
    name.unplaced.negative = name.negative := rfl

@[simp]
theorem Identifier.position_unplaced (name : Identifier) :
    name.unplaced.position = .synthetic := rfl

namespace Expression

mutual

/-- An expression without its positions. -/
def unplaced : Expression → Expression
  | .arithmetic op left right => @arithmetic op left.unplaced right.unplaced .synthetic
  | .condition op left right => @condition op left.unplaced right.unplaced .synthetic
  | .logarithm operand _ => @logarithm operand.unplaced .synthetic .synthetic
  | .call name verbs arguments =>
    @call name.unplaced (unplacedAll verbs) (unplacedAll arguments) .synthetic
  | .slot op arguments _ => .slot op (unplacedAll arguments) .synthetic
  | .integer value _ => .integer value .synthetic
  | .string text _ => .string text .synthetic
  | .reference name => .reference name.unplaced

/-- Expressions without their positions. -/
def unplacedAll : List Expression → List Expression
  | [] => []
  | first :: rest => first.unplaced :: unplacedAll rest

end

@[simp]
theorem unplacedAll_eq_map (expressions : List Expression) :
    unplacedAll expressions = expressions.map unplaced := by
  induction expressions with
  | nil => rfl
  | cons first rest ih => rw [unplacedAll, ih, List.map_cons]

@[simp]
theorem position_unplaced (expression : Expression) :
    expression.unplaced.position = .synthetic := by
  cases expression <;> simp [unplaced, position]

theorem reference?_unplaced (expression : Expression) :
    expression.unplaced.reference? = expression.reference?.map Identifier.unplaced := by
  cases expression <;> rfl

end Expression

/-- What seeds slots, without its positions. -/
def Populate.unplaced : Populate → Populate
  | .string text => .string text
  | .array elements => .array (elements.map Expression.unplaced)

/-! ## Statements -/

namespace Statement

mutual

/-- A statement without its positions. -/
def unplaced : Statement → Statement
  | .declare kind name value _ => .declare kind name.unplaced value.unplaced .synthetic
  | .block name verbs arguments init program =>
    @block name.unplaced (verbs.map Identifier.unplaced) (arguments.map Identifier.unplaced)
      (unplacedRest init) (unplacedBody program) .synthetic
  | .implementing name parent populate =>
    @implementing name.unplaced parent.unplaced (populate.map Populate.unplaced) .synthetic
  | .assign target value => @assign target.unplaced value.unplaced .synthetic
  | .modify op target operand =>
    @modify op target.unplaced (operand.map Expression.unplaced) .synthetic
  | .exit way value _ => .exit way value.unplaced .synthetic
  | .branch condition body elifs otherwise _ =>
    .branch condition.unplaced (unplacedBody body) (unplacedArms elifs) (unplacedRest otherwise)
      .synthetic
  | .repeatWhile condition body _ =>
    .repeatWhile condition.unplaced (unplacedBody body) .synthetic
  | .repeatFor count placeholder body _ =>
    .repeatFor count.unplaced placeholder.unplaced (unplacedBody body) .synthetic
  | .switch condition cases otherwise _ =>
    .switch condition.unplaced (unplacedArms cases) (unplacedRest otherwise) .synthetic
  | .evaluate value => @evaluate value.unplaced .synthetic
  | .comment text _ => .comment text .synthetic

/-- The statements of a body without their positions. -/
def unplacedBody : List Statement → List Statement
  | [] => []
  | first :: rest => first.unplaced :: unplacedBody rest

/-- Arms without their positions. -/
def unplacedArms : List (Expression × List Statement) → List (Expression × List Statement)
  | [] => []
  | first :: rest => unplacedArm first :: unplacedArms rest

/-- A test and its body without their positions. -/
def unplacedArm : Expression × List Statement → Expression × List Statement
  | (test, body) => (test.unplaced, unplacedBody body)

/-- A last body without its positions. -/
def unplacedRest : Option (List Statement) → Option (List Statement)
  | none => none
  | some body => some (unplacedBody body)

end

@[simp]
theorem unplacedBody_eq_map (body : List Statement) : unplacedBody body = body.map unplaced := by
  induction body with
  | nil => rfl
  | cons first rest ih => rw [unplacedBody, ih, List.map_cons]

@[simp]
theorem unplacedArms_eq_map (arms : List (Expression × List Statement)) :
    unplacedArms arms = arms.map unplacedArm := by
  induction arms with
  | nil => rfl
  | cons first rest ih => rw [unplacedArms, ih, List.map_cons]

@[simp]
theorem unplacedArm_eq (arm : Expression × List Statement) :
    unplacedArm arm = (arm.1.unplaced, arm.2.map unplaced) := by
  rw [unplacedArm, unplacedBody_eq_map]

@[simp]
theorem unplacedRest_eq_map (rest : Option (List Statement)) :
    unplacedRest rest = rest.map (List.map unplaced) := by
  cases rest with
  | none => rfl
  | some body => rw [unplacedRest, unplacedBody_eq_map, Option.map_some]

@[simp]
theorem position_unplaced (statement : Statement) : statement.unplaced.position = .synthetic := by
  cases statement <;> simp [unplaced, Statement.position]

@[simp]
theorem isComment_unplaced (statement : Statement) :
    statement.unplaced.isComment = statement.isComment := by
  cases statement <;> rfl

end Statement

/-! ## Programs -/

/-- A request for a module without its position. -/
def Import.unplaced (request : Import) : Import := { request with position := .synthetic }

@[simp]
theorem Import.module_unplaced (request : Import) : request.unplaced.module = request.module := rfl

/-- A program without its positions. -/
def Program.unplaced (program : Program) : Program where
  imports := program.imports.map Import.unplaced
  statements := program.statements.map Statement.unplaced

end Bir
