import Bir.Proofs.Code
import Mathlib.Data.List.MinMax
import Mathlib.Order.Nat

/-!
# What stands in statements

Statements have bodies, and these have statements.  This file defines:

* `Statement.bodies_induction`, as the parts of a statement are smaller than the statement;
* `Statement.fold` — a value for each statement from the values of the statements in its bodies;
* `Statement.within` — all statements that stand in a statement, itself included;
* `Statement.nesting` — how deep the bodies that a statement runs itself are nested.

The bodies of a declared block are not run by its declaration, so that they start to nest anew.
-/

namespace Bir

/-! ## Sizes -/

theorem Expression.sizeOf_operand {expression operand : Expression}
    (h : operand ∈ expression.operands) : sizeOf operand < sizeOf expression := by
  cases expression with
  | call name verbs arguments =>
      have hsizes : sizeOf operand < sizeOf verbs ∨ sizeOf operand < sizeOf arguments :=
        (List.mem_append.1 h).imp List.sizeOf_lt_of_mem List.sizeOf_lt_of_mem
      simp only [call.sizeOf_spec]
      omega
  | slot op arguments keyword =>
      have hsize : sizeOf operand < sizeOf arguments := List.sizeOf_lt_of_mem h
      simp only [slot.sizeOf_spec]
      omega
  | arithmetic op left right =>
      simp only [operands, List.mem_cons, List.not_mem_nil, or_false] at h
      rcases h with rfl | rfl <;> simp only [arithmetic.sizeOf_spec] <;> omega
  | condition op left right =>
      simp only [operands, List.mem_cons, List.not_mem_nil, or_false] at h
      rcases h with rfl | rfl <;> simp only [condition.sizeOf_spec] <;> omega
  | logarithm inner keyword =>
      rw [List.mem_singleton.1 h]
      simp only [logarithm.sizeOf_spec]
      omega
  | _ => cases h

namespace Statement

theorem sizeOf_arm {arms : List (Expression × List Statement)} {arm : Expression × List Statement}
    (h : arm ∈ arms) : sizeOf arm.1 < sizeOf arms ∧ sizeOf arm.2 < sizeOf arms := by
  obtain ⟨test, body⟩ := arm
  have hsize : sizeOf (test, body) < sizeOf arms := List.sizeOf_lt_of_mem h
  simp only [Prod.mk.sizeOf_spec] at hsize
  simp only
  omega

theorem sizeOf_rest {α : Type} [SizeOf α] {rest : Option α} {part : α} (h : part ∈ rest.toList) :
    sizeOf part < sizeOf rest := by
  rw [Option.mem_toList] at h
  cases h
  simp only [Option.some.sizeOf_spec]
  omega

theorem sizeOf_body {statement : Statement} {body : List Statement}
    (h : body ∈ statement.bodies) : sizeOf body < sizeOf statement := by
  cases statement with
  | block name verbs arguments init program =>
      simp only [bodies, List.mem_append, List.mem_singleton] at h
      simp only [block.sizeOf_spec]
      rcases h with hinit | rfl
      · have hsize := sizeOf_rest hinit
        omega
      · omega
  | branch condition first elifs rest keyword =>
      simp only [bodies, List.mem_append, List.mem_cons, List.mem_map] at h
      simp only [branch.sizeOf_spec]
      rcases h with (rfl | ⟨arm, harm, rfl⟩) | hrest
      · omega
      · have hsize := sizeOf_arm harm
        omega
      · have hsize := sizeOf_rest hrest
        omega
  | switch condition arms rest keyword =>
      simp only [bodies, List.mem_append, List.mem_map] at h
      simp only [switch.sizeOf_spec]
      rcases h with ⟨arm, harm, rfl⟩ | hrest
      · have hsize := sizeOf_arm harm
        omega
      · have hsize := sizeOf_rest hrest
        omega
  | repeatWhile condition inner keyword =>
      rw [List.mem_singleton.1 h]
      simp only [repeatWhile.sizeOf_spec]
      omega
  | repeatFor count placeholder inner keyword =>
      rw [List.mem_singleton.1 h]
      simp only [repeatFor.sizeOf_spec]
      omega
  | _ => cases h

theorem sizeOf_part {statement : Statement} {part : Expression}
    (h : part ∈ statement.expressions) : sizeOf part < sizeOf statement := by
  cases statement with
  | implementing name parent populate =>
      cases populate with
      | none => cases h
      | some source =>
          cases source with
          | string text => cases h
          | array elements =>
              have hsize : sizeOf part < sizeOf elements := List.sizeOf_lt_of_mem h
              simp only [implementing.sizeOf_spec, Option.some.sizeOf_spec, Populate.array.sizeOf_spec]
              omega
  | modify op target operand =>
      simp only [expressions, List.mem_cons] at h
      simp only [modify.sizeOf_spec]
      rcases h with rfl | hoperand
      · omega
      · have hsize := sizeOf_rest hoperand
        omega
  | branch condition first elifs rest keyword =>
      simp only [expressions, List.mem_cons, List.mem_map] at h
      simp only [branch.sizeOf_spec]
      rcases h with rfl | ⟨arm, harm, rfl⟩
      · omega
      · have hsize := sizeOf_arm harm
        omega
  | switch condition arms rest keyword =>
      simp only [expressions, List.mem_cons, List.mem_map] at h
      simp only [switch.sizeOf_spec]
      rcases h with rfl | ⟨arm, harm, rfl⟩
      · omega
      · have hsize := sizeOf_arm harm
        omega
  | block => cases h
  | comment => cases h
  | _ =>
      rw [List.mem_singleton.1 h]
      simp only [declare.sizeOf_spec, assign.sizeOf_spec, exit.sizeOf_spec,
        repeatWhile.sizeOf_spec, repeatFor.sizeOf_spec, evaluate.sizeOf_spec]
      omega

/-- What holds of a statement if it holds of all statements in its bodies holds of all. -/
theorem bodies_induction {holds : Statement → Prop}
    (step : ∀ statement, (∀ body ∈ statement.bodies, ∀ first ∈ body, holds first) →
      holds statement) (statement : Statement) : holds statement := by
  induction hsize : sizeOf statement using Nat.strongRecOn generalizing statement with
  | ind size ih =>
      refine step statement fun body hbody first hfirst => ih (sizeOf first) ?_ first rfl
      have hin := List.sizeOf_lt_of_mem hfirst
      have hout := sizeOf_body hbody
      omega

/-! ## Folding -/

section Fold

variable {α : Type} (combine : Statement → List (List α) → α)

mutual

/-- Combine the values of the statements in all bodies. -/
def fold : Statement → α
  | @block name verbs arguments init program position =>
    combine (@block name verbs arguments init program position)
      (foldRest init ++ [foldFrame program])
  | .branch condition body elifs rest keyword =>
    combine (.branch condition body elifs rest keyword)
      (foldFrame body :: foldArms elifs ++ foldRest rest)
  | .repeatWhile condition body keyword =>
    combine (.repeatWhile condition body keyword) [foldFrame body]
  | .repeatFor count placeholder body keyword =>
    combine (.repeatFor count placeholder body keyword) [foldFrame body]
  | .switch condition cases rest keyword =>
    combine (.switch condition cases rest keyword) (foldArms cases ++ foldRest rest)
  | .declare kind name value keyword => combine (.declare kind name value keyword) []
  | @implementing name parent populate position =>
    combine (@implementing name parent populate position) []
  | @assign target value position => combine (@assign target value position) []
  | @modify op target operand position => combine (@modify op target operand position) []
  | .exit kind value keyword => combine (.exit kind value keyword) []
  | @evaluate value position => combine (@evaluate value position) []
  | .comment text position => combine (.comment text position) []

/-- The values of the statements of a frame. -/
def foldFrame : List Statement → List α
  | [] => []
  | first :: rest => fold first :: foldFrame rest

/-- The values of the statements of each arm. -/
def foldArms : List (Expression × List Statement) → List (List α)
  | [] => []
  | (_, body) :: arms => foldFrame body :: foldArms arms

/-- The values of the statements of a body that may be missing. -/
def foldRest : Option (List Statement) → List (List α)
  | none => []
  | some body => [foldFrame body]

end

theorem foldFrame_eq (statements : List Statement) :
    foldFrame combine statements = statements.map (fold combine) := by
  induction statements with
  | nil => rfl
  | cons first rest ih => simp [foldFrame, ih]

theorem foldArms_eq (arms : List (Expression × List Statement)) :
    foldArms combine arms = (arms.map (·.2)).map (List.map (fold combine)) := by
  induction arms with
  | nil => rfl
  | cons arm arms ih => simp [foldArms, foldFrame_eq, ih]

theorem foldRest_eq (rest : Option (List Statement)) :
    foldRest combine rest = rest.toList.map (List.map (fold combine)) := by
  cases rest with
  | none => rfl
  | some body => simp [foldRest, foldFrame_eq]

/-- The value of a statement comes from those of the statements in its bodies. -/
theorem fold_eq (statement : Statement) :
    fold combine statement =
      combine statement (statement.bodies.map (List.map (fold combine))) := by
  cases statement <;> simp [fold, bodies, foldFrame_eq, foldArms_eq, foldRest_eq]

end Fold

/-! ## All statements -/

/-- The statements that stand in a statement, itself included. -/
def within : Statement → List Statement :=
  fold fun statement inner => statement :: inner.flatten.flatten

theorem mem_within {statement inner : Statement} :
    inner ∈ statement.within ↔
      inner = statement ∨ ∃ body ∈ statement.bodies, ∃ first ∈ body, inner ∈ first.within := by
  have hwithin : statement.within =
      statement :: (statement.bodies.map (List.map within)).flatten.flatten := fold_eq _ statement
  rw [hwithin]
  simp only [List.mem_cons, List.mem_flatten, List.mem_map]
  constructor
  · rintro (rfl | ⟨_, ⟨_, ⟨body, hbody, rfl⟩, hmem⟩, hinner⟩)
    · exact Or.inl rfl
    · obtain ⟨first, hfirst, rfl⟩ := List.mem_map.1 hmem
      exact Or.inr ⟨body, hbody, first, hfirst, hinner⟩
  · rintro (rfl | ⟨body, hbody, first, hfirst, hinner⟩)
    · exact Or.inl rfl
    · exact Or.inr ⟨_, ⟨_, ⟨body, hbody, rfl⟩, List.mem_map_of_mem hfirst⟩, hinner⟩

theorem mem_within_self (statement : Statement) : statement ∈ statement.within :=
  mem_within.2 (Or.inl rfl)

/-- What stands in a statement of a body stands in the statement. -/
theorem mem_within_of_body {statement first inner : Statement} {body : List Statement}
    (hbody : body ∈ statement.bodies) (hfirst : first ∈ body) (h : inner ∈ first.within) :
    inner ∈ statement.within :=
  mem_within.2 (Or.inr ⟨body, hbody, first, hfirst, h⟩)

/-- The statements of a body stand in all that the statement stands in. -/
theorem mem_within_trans {outer statement first : Statement} {body : List Statement}
    (hbody : body ∈ statement.bodies) (hfirst : first ∈ body) (h : statement ∈ outer.within) :
    first ∈ outer.within := by
  induction outer using bodies_induction with
  | step outer ih =>
      rcases mem_within.1 h with rfl | ⟨body', hbody', between, hbetween, hinner⟩
      · exact mem_within_of_body hbody hfirst (mem_within_self first)
      · exact mem_within_of_body hbody' hbetween (ih body' hbody' between hbetween hinner)

/-! ## Nesting -/

/-- How deep the bodies that a statement runs itself are nested. -/
def nesting : Statement → Nat :=
  fold fun statement inner =>
    if statement.isDeclaration || inner.isEmpty then 0 else inner.flatten.foldr max 0 + 1

/-- A body that a statement runs itself nests less deep, and so do the statements in it. -/
theorem nesting_of_body {statement : Statement} {body : List Statement}
    (runs : statement.isDeclaration = false) (hbody : body ∈ statement.bodies) :
    1 ≤ statement.nesting ∧ ∀ first ∈ body, first.nesting + 1 ≤ statement.nesting := by
  have hsome : statement.bodies ≠ [] := List.ne_nil_of_mem hbody
  have hnesting : statement.nesting =
      ((statement.bodies.map (List.map nesting)).flatten.foldr max 0) + 1 := by
    unfold nesting
    rw [fold_eq]
    simp [runs, hsome]
  rw [hnesting]
  refine ⟨Nat.le_add_left 1 _, fun first hfirst => Nat.add_le_add_right ?_ 1⟩
  refine List.le_max_of_le ?_ (Nat.le_refl first.nesting)
  exact List.mem_flatten.2 ⟨_, List.mem_map_of_mem hbody, List.mem_map_of_mem hfirst⟩

end Statement

end Bir
