import Bir.Program

/-!
# Code — the parts that programs are made of

This file lists what stands directly inside an expression or a statement:

* `Expression.operands` — the expressions that an expression evaluates;
* `Statement.expressions` and `Statement.bodies` — the expressions and frames of a statement;
* `Statement.marks` — the positions that a statement itself may give to a failure;
* `names` and `keywords` — the names of an expression or a statement, and its other positions;
* `Law`, and what it is for a law to hold `Throughout` an expression or a statement;
* `Law.Places` — what a law says of positions, which is then true of where code may fail.

What holds of a program and is handed on to all parts holds of everything that is evaluated.
-/

namespace Bir

/-- The expressions that an expression evaluates. -/
def Expression.operands : Expression → List Expression
  | .arithmetic _ left right => [left, right]
  | .condition _ left right => [left, right]
  | .logarithm operand _ => [operand]
  | .call _ verbs arguments => verbs ++ arguments
  | .slot _ arguments _ => arguments
  | .integer _ _ => []
  | .string _ _ => []
  | .reference _ => []

/-- The expressions that seed slots. -/
def Populate.expressions : Populate → List Expression
  | .string _ => []
  | .array elements => elements

namespace Statement

/-- The expressions that a statement evaluates. -/
def expressions : Statement → List Expression
  | .declare _ _ value _ => [value]
  | .block _ _ _ _ _ => []
  | .implementing _ _ populate => populate.elim [] Populate.expressions
  | .assign _ value => [value]
  | .modify _ target operand => target :: operand.toList
  | .exit _ value _ => [value]
  | .branch condition _ elifs _ _ => condition :: elifs.map (·.1)
  | .repeatWhile condition _ _ => [condition]
  | .repeatFor count _ _ _ => [count]
  | .switch condition cases _ _ => condition :: cases.map (·.1)
  | .evaluate value => [value]
  | .comment _ _ => []

/-- The frames that a statement runs, or gives to the block that it declares. -/
def bodies : Statement → List (List Statement)
  | .block _ _ _ init program => init.toList ++ [program]
  | .branch _ body elifs otherwise _ => body :: elifs.map (·.2) ++ otherwise.toList
  | .repeatWhile _ body _ => [body]
  | .repeatFor _ _ body _ => [body]
  | .switch _ cases otherwise _ => cases.map (·.2) ++ otherwise.toList
  | _ => []

/-- Whether a statement gives its bodies to a block, and does not run them itself. -/
def isDeclaration : Statement → Bool
  | .block _ _ _ _ _ => true
  | .implementing _ _ _ => true
  | _ => false

/-- The positions that a statement gives to its own failures. -/
def marks : Statement → List Position
  | .declare _ name _ _ => [name.position]
  | .block name _ _ _ _ => [name.position]
  | .implementing name _ _ => [name.position]
  | .assign target _ => [target.position]
  | .modify _ target _ => [target.position]
  | _ => []

end Statement

/-! ## Names and positions -/

/-- The names in an expression that are in none of its operands. -/
def Expression.names : Expression → List Identifier
  | .call name _ _ => [name]
  | .reference name => [name]
  | _ => []

/-- The positions that an expression has beside those of its names and operands. -/
def Expression.keywords : Expression → List Position
  | @arithmetic _ _ _ position => [position]
  | @condition _ _ _ position => [position]
  | @logarithm _ keyword position => [keyword, position]
  | @call _ _ _ position => [position]
  | .slot _ _ keyword => [keyword]
  | .integer _ position => [position]
  | .string _ position => [position]
  | .reference _ => []

/-- The names in a statement that are in none of its expressions and bodies. -/
def Statement.names : Statement → List Identifier
  | .declare _ name _ _ => [name]
  | .block name verbs arguments _ _ => name :: verbs ++ arguments
  | .implementing name parent _ => [name, parent]
  | .assign target _ => [target]
  | .repeatFor _ placeholder _ _ => [placeholder]
  | _ => []

/-- The positions that a statement has beside those of its names, expressions and bodies. -/
def Statement.keywords : Statement → List Position
  | .declare _ _ _ keyword => [keyword]
  | @block _ _ _ _ _ position => [position]
  | @implementing _ _ _ position => [position]
  | @assign _ _ position => [position]
  | @modify _ _ _ position => [position]
  | .exit _ _ keyword => [keyword]
  | .branch _ _ _ _ keyword => [keyword]
  | .repeatWhile _ _ keyword => [keyword]
  | .repeatFor _ _ _ keyword => [keyword]
  | .switch _ _ _ keyword => [keyword]
  | @evaluate _ position => [position]
  | .comment _ position => [position]

/-! ## Laws -/

/-- What is asked of the names and of the other positions in a program. -/
structure Law where
  name : Identifier → Prop
  keyword : Position → Prop

/-- A law holds of an expression and of all that it evaluates. -/
inductive Expression.Throughout (law : Law) : Expression → Prop where
  | intro {expression : Expression} (names : ∀ name ∈ expression.names, law.name name)
      (keywords : ∀ keyword ∈ expression.keywords, law.keyword keyword)
      (operands : ∀ operand ∈ expression.operands, Throughout law operand) :
      Throughout law expression

/-- A law holds of a statement, its expressions and the statements of its bodies. -/
inductive Statement.Throughout (law : Law) : Statement → Prop where
  | intro {statement : Statement} (names : ∀ name ∈ statement.names, law.name name)
      (keywords : ∀ keyword ∈ statement.keywords, law.keyword keyword)
      (expressions : ∀ expression ∈ statement.expressions, expression.Throughout law)
      (bodies : ∀ body ∈ statement.bodies, ∀ inner ∈ body, Throughout law inner) :
      Throughout law statement

theorem Expression.Throughout.operand {law : Law} {expression operand : Expression}
    (h : expression.Throughout law) (hmem : operand ∈ expression.operands) :
    operand.Throughout law := by
  cases h with
  | intro _ _ operands => exact operands operand hmem

namespace Statement.Throughout

variable {law : Law} {statement : Statement} (h : statement.Throughout law)
include h

theorem name {name : Identifier} (hmem : name ∈ statement.names) : law.name name := by
  cases h with
  | intro names _ _ _ => exact names name hmem

theorem keyword {keyword : Position} (hmem : keyword ∈ statement.keywords) :
    law.keyword keyword := by
  cases h with
  | intro _ keywords _ _ => exact keywords keyword hmem

theorem expression {expression : Expression} (hmem : expression ∈ statement.expressions) :
    expression.Throughout law := by
  cases h with
  | intro _ _ expressions _ => exact expressions expression hmem

theorem body {body : List Statement} (hmem : body ∈ statement.bodies) :
    ∀ inner ∈ body, inner.Throughout law := by
  cases h with
  | intro _ _ _ bodies => exact bodies body hmem

end Statement.Throughout

/-- One law asks for no more than another. -/
structure Law.Implies (law law' : Law) : Prop where
  name : ∀ name, law.name name → law'.name name
  keyword : ∀ keyword, law.keyword keyword → law'.keyword keyword

theorem Expression.Throughout.mono {law law' : Law} (implies : law.Implies law')
    {expression : Expression} (h : expression.Throughout law) : expression.Throughout law' := by
  induction h with
  | intro names keywords operands ih =>
      exact .intro (fun name hmem => implies.name name (names name hmem))
        (fun keyword hmem => implies.keyword keyword (keywords keyword hmem)) ih

theorem Statement.Throughout.mono {law law' : Law} (implies : law.Implies law')
    {statement : Statement} (h : statement.Throughout law) : statement.Throughout law' := by
  induction h with
  | intro names keywords expressions bodies ih =>
      refine .intro (fun name hmem => implies.name name (names name hmem))
        (fun keyword hmem => implies.keyword keyword (keywords keyword hmem)) ?_ ih
      intro expression hmem
      exact (expressions expression hmem).mono implies

/-! ## Places -/

/-- All positions that a law allows are such places. -/
structure Law.Places (law : Law) (place : Position → Prop) : Prop where
  name : ∀ {name}, law.name name → place name.position
  keyword : ∀ {keyword}, law.keyword keyword → place keyword

/-- An expression stands where its name does, or at a position of its own. -/
theorem Expression.position_mem (expression : Expression) :
    expression.position ∈
      expression.names.map Identifier.position ++ expression.keywords := by
  cases expression <;> simp [position, names, keywords]

/-- A statement stands at a position of its own. -/
theorem Statement.position_mem (statement : Statement) :
    statement.position ∈ statement.keywords := by
  cases statement <;> simp [position, keywords]

theorem Expression.Throughout.placed {law : Law} {place : Position → Prop}
    (places : law.Places place) {expression : Expression} (h : expression.Throughout law) :
    place expression.position := by
  cases h with
  | intro names keywords operands =>
      rcases List.mem_append.1 expression.position_mem with hname | hkeyword
      · obtain ⟨name, hmem, hposition⟩ := List.mem_map.1 hname
        exact hposition ▸ places.name (names name hmem)
      · exact places.keyword (keywords _ hkeyword)

namespace Statement.Throughout

variable {law : Law} {place : Position → Prop} {statement : Statement}

theorem placed (places : law.Places place) (h : statement.Throughout law) :
    place statement.position :=
  places.keyword (h.keyword statement.position_mem)

/-- Where a statement marks its own failures is such a place as well. -/
theorem placed_mark (places : law.Places place) (h : statement.Throughout law)
    {position : Position} (hmem : position ∈ statement.marks) : place position := by
  have hname : ∀ name ∈ statement.names, place name.position :=
    fun name hmem => places.name (h.name hmem)
  cases statement with
  | declare kind name value keyword =>
      rw [List.mem_singleton.1 hmem]
      exact hname name (by simp [names])
  | block name verbs arguments init program =>
      rw [List.mem_singleton.1 hmem]
      exact hname name (by simp [names])
  | implementing name parent populate =>
      rw [List.mem_singleton.1 hmem]
      exact hname name (by simp [names])
  | assign target value =>
      rw [List.mem_singleton.1 hmem]
      exact hname target (by simp [names])
  | modify op target operand =>
      rw [List.mem_singleton.1 hmem]
      exact (h.expression (by simp [expressions])).placed places
  | _ => cases hmem

end Statement.Throughout

end Bir
