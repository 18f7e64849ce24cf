import Bir.Proofs.Source.First

/-!
# Spelling — how an expression is written

This file defines:

* `Level` — the levels of the grammar, from the loosest to the tightest;
* `Spelled level expression kinds` — that the kinds of tokens write an expression at a level;
* `Expression.spelling` — the kinds that write an expression with no more braces than its levels
  ask for.

A group in braces is of the tightest level, whatever is in it, so an expression is spelled in more
than one way: `Expression.spelling_spelled` says that the shortest is among them.
-/

namespace Bir

/-! ## Levels -/

/-- The levels of the grammar.  A verb is a primary; a call and a string are operands. -/
inductive Level where
  | condition
  | sum
  | product
  | power
  | operand
  | primary
  deriving DecidableEq, Repr, Inhabited

namespace Level

/-- How tight a level binds. -/
def rank : Level → Nat
  | .condition => 0
  | .sum => 1
  | .product => 2
  | .power => 3
  | .operand => 4
  | .primary => 5

/-- The next tighter level. -/
def tighter : Level → Level
  | .condition => .sum
  | .sum => .product
  | .product => .power
  | .power => .operand
  | .operand => .primary
  | .primary => .primary

theorem rank_injective {level level' : Level} (h : level.rank = level'.rank) : level = level' := by
  cases level <;> cases level' <;> first | rfl | cases h

theorem rank_tighter {level level' : Level} (h : level.rank < level'.rank) :
    level.tighter.rank = level.rank + 1 := by
  cases level <;> first | rfl | (cases level' <;> simp [rank] at h)

end Level

/-- The level of an operator. -/
def ArithmeticOp.level : ArithmeticOp → Level
  | .addition => .sum
  | .subtraction => .sum
  | .multiplication => .product
  | .division => .product
  | .exponent => .power
  | .root => .power
  | .modulus => .power

/-- The level of what may stand to the left of an operator.  Powers associate to the right. -/
def ArithmeticOp.leftLevel (op : ArithmeticOp) : Level :=
  match op.level with
  | .power => .operand
  | level => level

/-- The level of what may stand to the right of an operator. -/
def ArithmeticOp.rightLevel (op : ArithmeticOp) : Level :=
  match op.level with
  | .power => .power
  | level => level.tighter

/-- The level of an expression without braces around it. -/
def Expression.level : Expression → Level
  | .condition _ _ _ => .condition
  | .arithmetic op _ _ => op.level
  | .logarithm _ _ => .power
  | .call _ _ _ => .operand
  | .string _ _ => .operand
  | .slot _ _ _ => .primary
  | .integer _ _ => .primary
  | .reference _ => .primary

namespace Grammar

/-! ## Kinds -/

/-- Kinds in braces. -/
def enclosed (kinds : List Token.Kind) : List Token.Kind :=
  .mark .leftBrace :: kinds ++ [.mark .rightBrace]

/-- Verbs, each behind a colon. -/
def verbKinds (verbs : List (List Token.Kind)) : List Token.Kind :=
  verbs.flatMap fun kinds => .mark .colon :: kinds

/-- Arguments, with commas between them. -/
def argumentKinds : List (List Token.Kind) → List Token.Kind
  | [] => [.mark .leftParen, .mark .rightParen]
  | first :: others =>
    .mark .leftParen :: first ++ others.flatMap (fun kinds => .mark .comma :: kinds) ++
      [.mark .rightParen]

/-- Parts with a sign before each are longer than each part. -/
theorem length_lt_flatMap (sign : Token.Kind) {parts : List (List Token.Kind)}
    {kinds : List Token.Kind} (hmem : kinds ∈ parts) :
    kinds.length < (parts.flatMap fun kinds => sign :: kinds).length := by
  have hpart : sign :: kinds ∈ parts.map fun kinds => sign :: kinds :=
    List.mem_map.2 ⟨kinds, hmem, rfl⟩
  exact (List.sublist_flatten_of_mem hpart).length_le

theorem length_le_flatMap (sign : Token.Kind) (parts : List (List Token.Kind)) :
    parts.length ≤ (parts.flatMap fun kinds => sign :: kinds).length := by
  induction parts with
  | nil => exact Nat.le_refl _
  | cons first parts ih =>
      simp only [List.flatMap_cons, List.length_append, List.length_cons]
      omega

/-- Kinds of tokens that write an expression at a level. -/
inductive Spelled : Level → Expression → List Token.Kind → Prop
  | integer (value : Int64) (position : Position) :
      Spelled .primary (.integer value position) [.integer value]
  | reference (name : Identifier) :
      Spelled .primary (.reference name) [.identifier name.name name.negative]
  | slot (op : SlotOp) (keyword : Position) (arguments : List (Expression × List Token.Kind))
      (written : ∀ argument ∈ arguments, Spelled .condition argument.1 argument.2) :
      Spelled .primary (.slot op (arguments.map Prod.fst) keyword)
        (.slot op :: argumentKinds (arguments.map Prod.snd))
  | group {expression : Expression} {kinds : List Token.Kind}
      (written : Spelled .condition expression kinds) :
      Spelled .primary expression (enclosed kinds)
  | string (text : String) (position : Position) :
      Spelled .operand (.string text position) [.text text]
  | call (name : Identifier) (verbs arguments : List (Expression × List Token.Kind))
      (position : Position)
      (verbs_written : ∀ verb ∈ verbs, Spelled .primary verb.1 verb.2)
      (arguments_written : ∀ argument ∈ arguments, Spelled .condition argument.1 argument.2) :
      Spelled .operand
        (@Expression.call name (verbs.map Prod.fst) (arguments.map Prod.fst) position)
        (.identifier name.name name.negative :: verbKinds (verbs.map Prod.snd) ++
          argumentKinds (arguments.map Prod.snd))
  | logarithm {operand : Expression} {kinds : List Token.Kind} (keyword position : Position)
      (written : Spelled .operand operand kinds) :
      Spelled .power (@Expression.logarithm operand keyword position) (kinds ++ [.keyword .log])
  | arithmetic (op : ArithmeticOp) {left right : Expression} {before behind : List Token.Kind}
      (position : Position) (left_written : Spelled op.leftLevel left before)
      (right_written : Spelled op.rightLevel right behind) :
      Spelled op.level (@Expression.arithmetic op left right position)
        (before ++ .arithmetic op :: behind)
  | condition (op : ConditionOp) {left right : Expression} {before behind : List Token.Kind}
      (position : Position) (left_written : Spelled .condition left before)
      (right_written : Spelled .sum right behind) :
      Spelled .condition (@Expression.condition op left right position)
        (before ++ .condition op :: behind)
  | looser {level : Level} {expression : Expression} {kinds : List Token.Kind}
      (written : Spelled level.tighter expression kinds) : Spelled level expression kinds

/-- What is spelled takes a token. -/
theorem Spelled.length_pos {level : Level} {expression : Expression} {kinds : List Token.Kind}
    (h : Spelled level expression kinds) : 0 < kinds.length := by
  induction h with
  | looser _ ih => exact ih
  | _ =>
      simp only [enclosed, List.length_append, List.length_cons]
      omega

/-- What is spelled at a level is spelled at the looser ones. -/
theorem Spelled.mono {level level' : Level} {expression : Expression} {kinds : List Token.Kind}
    (h : Spelled level expression kinds) (le : level'.rank ≤ level.rank) :
    Spelled level' expression kinds := by
  obtain hsame | hlooser := Nat.eq_or_lt_of_le le
  · rwa [Level.rank_injective hsame]
  · have htighter : level'.tighter.rank = level'.rank + 1 := Level.rank_tighter hlooser
    exact .looser (h.mono (by omega))
termination_by level.rank - level'.rank

/-! ## The shortest spelling -/

/-- Kinds with braces around them, unless they are of a level that is tight enough. -/
def bracedBelow (level : Level) (expression : Expression) (kinds : List Token.Kind) :
    List Token.Kind :=
  if level.rank ≤ expression.level.rank then kinds else enclosed kinds

end Grammar

open Grammar

mutual

/-- The kinds of tokens that write an expression, with braces around its parts only where their
levels ask for them. -/
def Expression.spelling : Expression → List Token.Kind
  | .arithmetic op left right =>
    bracedBelow op.leftLevel left left.spelling ++
      .arithmetic op :: bracedBelow op.rightLevel right right.spelling
  | .condition op left right =>
    bracedBelow .condition left left.spelling ++
      .condition op :: bracedBelow .sum right right.spelling
  | .logarithm operand _ => bracedBelow .operand operand operand.spelling ++ [.keyword .log]
  | .call name verbs arguments =>
    .identifier name.name name.negative :: verbKinds (Expression.spellings .primary verbs) ++
      argumentKinds (Expression.spellings .condition arguments)
  | .slot op arguments _ =>
    .slot op :: argumentKinds (Expression.spellings .condition arguments)
  | .integer value _ => [.integer value]
  | .string text _ => [.text text]
  | .reference name => [.identifier name.name name.negative]

/-- The kinds that write expressions at a level. -/
def Expression.spellings (level : Level) : List Expression → List (List Token.Kind)
  | [] => []
  | first :: others => bracedBelow level first first.spelling :: spellings level others

end

namespace Expression

/-- Braces make an expression fit for every level. -/
theorem spelled_bracedBelow {expression : Expression} (level : Level)
    (h : Spelled expression.level expression expression.spelling) :
    Spelled level expression (bracedBelow level expression expression.spelling) := by
  unfold bracedBelow
  split
  · rename_i le
    exact h.mono le
  · have htightest : level.rank ≤ Level.rank .primary := by
      cases level <;> simp [Level.rank]
    exact (Spelled.group (h.mono (Nat.zero_le _))).mono htightest

theorem spellings_eq_map (level : Level) (expressions : List Expression) :
    spellings level expressions =
      expressions.map fun expression => bracedBelow level expression expression.spelling := by
  induction expressions with
  | nil => rfl
  | cons first others ih => rw [spellings, ih, List.map_cons]

mutual

/-- The shortest spelling is one. -/
theorem spelled_spelling : ∀ expression : Expression,
    Spelled expression.level expression expression.spelling
  | @arithmetic op left right position =>
      .arithmetic op position (spelled_bracedBelow _ (spelled_spelling left))
        (spelled_bracedBelow _ (spelled_spelling right))
  | @condition op left right position =>
      .condition op position (spelled_bracedBelow _ (spelled_spelling left))
        (spelled_bracedBelow _ (spelled_spelling right))
  | @logarithm operand keyword position =>
      .logarithm keyword position (spelled_bracedBelow _ (spelled_spelling operand))
  | @call name verbs arguments position => by
      have hverbs := spelled_spellings .primary verbs
      have harguments := spelled_spellings .condition arguments
      have hcall := Spelled.call name _ _ position hverbs harguments
      simpa [level, spelling, spellings_eq_map, Function.comp_def] using hcall
  | .slot op arguments keyword => by
      have hslot := Spelled.slot op keyword _ (spelled_spellings .condition arguments)
      simpa [level, spelling, spellings_eq_map, Function.comp_def] using hslot
  | .integer value position => .integer value position
  | .string text position => .string text position
  | .reference name => .reference name

/-- The shortest spellings of verbs or arguments are spellings. -/
theorem spelled_spellings (level : Level) : ∀ expressions : List Expression,
    ∀ part ∈ expressions.map (fun expression =>
      (expression, bracedBelow level expression expression.spelling)),
        Spelled level part.1 part.2
  | [] => by simp
  | first :: others => by
      have hfirst := spelled_bracedBelow level (spelled_spelling first)
      have hothers := spelled_spellings level others
      simp only [List.map_cons, List.forall_mem_cons]
      exact ⟨hfirst, hothers⟩

end

end Expression

end Bir
