import Bir.Proofs.Source.Placement
import Bir.Proofs.Source.Precedence
import Bir.Proofs.Source.Settled

/-!
# Termination — a parser always comes to an end

Whatever tokens a parser is given, whether they end in an end of the file or have one in their
midst, it ends.  Each production that is accepted has taken a token, each turn of a loop takes one
before the next, and neither goes past the first end of the file.  This file defines:

* `Cursor.Advances` and `Parser.Advances` — tokens were taken, one at least, and not the end of the
  file;
* `Round` and `loop` — what one turn of a loop comes to, and the loop over such turns;
* `LoopOf round parser` — a parser is the loop over its rounds, and each round that goes on
  advances;
* `Productions` and `Loops` — the productions and the loops of the grammar, all of which advance.

`parsing_always_ends` puts these together with `program_settled`.
-/

namespace Bir
namespace Grammar

open Bir.Grammar.Parser

/-! ## Advances -/

/-- Tokens were taken to come from one cursor to another, one at least, and the end of the file is
not among them. -/
def Cursor.Advances (cursor rest : Cursor) : Prop :=
  ∃ taken, taken ≠ [] ∧ Endless taken ∧ cursor = rest.prepend taken

namespace Parser

variable {σ α : Type} {good : α → List Token → Prop} {parser : Parser α}

/-- A parser advances where it accepts. -/
def Advances (parser : Parser α) : Prop :=
  ∀ cursor value rest, parser cursor = .accepted value rest → cursor.Advances rest

theorem Consumes.advances (h : Consumes good parser)
    (some' : ∀ value taken, good value taken → taken ≠ []) : Advances parser := by
  intro cursor value rest hread
  obtain ⟨taken, hcursor, hendless, hgood⟩ := (h cursor).takes value rest hread
  exact ⟨taken, some' value taken hgood, hendless, hcursor⟩

/-! ## Rounds -/

/-- What one turn of a loop comes to: the value of the loop, or the state of the next turn and what
is to be made of the value that the turns from there on yield. -/
inductive Round (σ α : Type) where
  | stop (value : α)
  | goOn (state : σ) (finish : α → α)

/-- Go on after a round, if it is not the last. -/
def Round.proceed (again : σ → Parser α) : Round σ α → Parser α
  | .stop value => return value
  | .goOn state finish => do
    let value ← again state
    return finish value

/-- A loop over rounds, with a bound on their number. -/
def loop (round : σ → Parser (Round σ α)) : Nat → σ → Parser α
  | 0, _ => exhausted
  | bound + 1, state => do
    let result ← round state
    result.proceed (loop round bound)

/-- What a round takes if it goes on: a token at least. -/
def Round.Taken : Round σ α → List Token → Prop
  | .stop _, _ => True
  | .goOn _ _, tokens => tokens ≠ []

/-- A parser is a loop, and each of its rounds advances unless it is the last. -/
structure LoopOf (round : σ → Parser (Round σ α)) (parser : Nat → σ → Parser α) : Prop where
  same : ∀ bound state, parser bound state = loop round bound state
  advances : ∀ state cursor next finish rest,
    round state cursor = .accepted (.goOn next finish) rest → cursor.Advances rest

/-- What takes one round and goes on with the same is a loop. -/
theorem LoopOf.of_step {round : σ → Parser (Round σ α)} {parser : Nat → σ → Parser α}
    (start : ∀ state, parser 0 state = exhausted)
    (step : ∀ bound state, parser (bound + 1) state = round state >>= Round.proceed (parser bound))
    (hround : ∀ state, Consumes Round.Taken (round state)) : LoopOf round parser where
  same bound state := by
    induction bound generalizing state with
    | zero => exact start state
    | succ bound ih =>
        have hsame : parser bound = loop round bound := funext ih
        rw [step, hsame]
        rfl
  advances state cursor next finish rest hread := by
    obtain ⟨taken, hcursor, hendless, hsome⟩ := (hround state cursor).takes _ _ hread
    exact ⟨taken, hsome, hendless, hcursor⟩

/-- A round of a loop over a sign: the sign and an item. -/
def manyRound (start : Token.Kind) (item : Parser α) (_ : Unit) : Parser (Round Unit (List α)) := do
  if ← eat? start then
    let first ← item
    return .goOn () (first :: ·)
  else return .stop []

theorem many_loop (start : Token.Kind) (some' : start ≠ .endOfFile) {item : Parser α}
    (hitem : Consumes good item) :
    LoopOf (manyRound start item) fun bound _ => many start item bound := by
  refine .of_step (fun _ => rfl) (fun bound _ => ?_) fun _ cursor => ?_
  · simp only [many, manyRound, bind_assoc]
    congr
    funext found
    cases found <;> simp [Round.proceed]
  · refine .eat some' (fun position after => ?_) (.pure trivial)
    exact (hitem after).bind fun first taken _ _ => .pure nofun

end Parser

/-- A round of a level that associates to the left: a sign and an operand. -/
def chainRound (join : Join) (operand : Parser Expression) (left : Expression) :
    Parser (Round Expression Expression) := do
  match join (← peek) with
  | some combine =>
    skip
    let right ← operand
    return .goOn (combine left right) id
  | none => return .stop left

theorem chainRest_loop {join : Join} (hcontinues : join.Continues) {operand : Parser Expression}
    (hoperand : Consumes Expression.Spans operand) :
    LoopOf (chainRound join operand) (chainRest join operand) := by
  refine .of_step (fun _ => rfl) (fun bound left => ?_) fun left cursor => .peek ?_
  · simp only [chainRest, chainRound, bind_assoc]
    congr
    funext kind
    cases join kind <;> simp [Round.proceed]
  · cases hcombine : join cursor.kind with
    | none => exact .pure trivial
    | some combine =>
        refine .skip rfl (hcontinues.ne_endOfFile hcombine) fun after => ?_
        exact (hoperand after).bind fun right taken _ _ => .pure (List.cons_ne_nil _ _)

/-- A round of powers: an operand, and the sign of a power behind it. -/
def powersRound (operand : Parser Expression) (_ : Unit) :
    Parser (Round Unit Expression) := do
  let base ← operand
  let kind ← peek
  if kind = .keyword .log then
    let position ← here
    skip
    return .stop (logarithm base position)
  else
    match powerJoin kind with
    | some combine =>
      skip
      return .goOn () (combine base)
    | none => return .stop base

theorem powers_loop {operand : Parser Expression}
    (hoperand : Consumes Expression.Spans operand) :
    LoopOf (powersRound operand) fun bound _ => powers operand bound := by
  refine .of_step (fun _ => rfl) (fun bound _ => ?_) fun _ cursor => ?_
  · simp only [powers, powersRound, bind_assoc]
    congr
    funext base
    congr
    funext kind
    split
    · simp [Round.proceed]
    · cases powerJoin kind <;> simp [Round.proceed]
  · refine (hoperand cursor).bind fun base taken hbase after => .peek ?_
    split
    · rename_i hlog
      exact .here (.skip hlog (by simp) fun _ => .pure trivial)
    · cases hcombine : powerJoin after.kind with
      | none => exact .pure trivial
      | some combine =>
          refine .skip rfl (powerJoin_continues.ne_endOfFile hcombine) fun _ => .pure ?_
          exact List.append_ne_nil_of_left_ne_nil hbase.ne_nil _

/-- A round of a body: a statement. -/
def bodyRound (inner : Parser Statement) (_ : Unit) :
    Parser (Round Unit (List Statement)) := do
  let kind ← peek
  if kind = .mark .rightBrace ∨ kind = .endOfFile then return .stop []
  else
    let first ← inner
    return .goOn () (first :: ·)

theorem statementsUntilClose_loop {inner : Parser Statement}
    (hinner : Consumes Statement.Spans inner) :
    LoopOf (bodyRound inner) fun bound _ => statementsUntilClose inner bound := by
  refine .of_step (fun _ => rfl) (fun bound _ => ?_) fun _ cursor => .peek ?_
  · simp only [statementsUntilClose, bodyRound, bind_assoc]
    congr
    funext kind
    split <;> simp [Round.proceed]
  · split
    · exact .pure trivial
    · refine (hinner cursor).bind fun first taken hfirst _ => .pure ?_
      exact List.append_ne_nil_of_left_ne_nil hfirst.ne_nil _

/-- A round of a program: an import, as long as it is in its header, or a statement. -/
def programRound (inner : Parser Statement) (inHeader : Bool) : Parser (Round Bool Program) := do
  let kind ← peek
  if kind = .endOfFile then return .stop {}
  else if inHeader ∧ kind = .keyword .use then
    let request ← importRequest
    return .goOn inHeader fun rest => { rest with imports := request :: rest.imports }
  else
    let first ← inner
    return .goOn (inHeader && first.isComment) fun rest =>
      { rest with statements := first :: rest.statements }

theorem programRest_loop {inner : Parser Statement} (hinner : Consumes Statement.Spans inner) :
    LoopOf (programRound inner) (programRest inner) := by
  refine .of_step (fun _ => rfl) (fun bound inHeader => ?_) fun inHeader cursor => .peek ?_
  · simp only [programRest, programRound, bind_assoc]
    congr
    funext kind
    split
    · simp [Round.proceed]
    · split <;> simp [Round.proceed]
  · split
    · exact .pure trivial
    · split
      · refine (importRequest_consumes cursor).bind fun request taken hrequest _ => .pure ?_
        obtain ⟨named, rfl⟩ := hrequest
        simp [Round.Taken]
      · refine (hinner cursor).bind fun first taken hfirst _ => .pure ?_
        exact List.append_ne_nil_of_left_ne_nil hfirst.ne_nil _

/-! ## The grammar -/

/-- The productions that take tokens whatever they read, as they stand under a bound: where they
accept, they advance. -/
structure Productions (bound : Nat) : Prop where
  statements : Advances (statement bound)
  expressions : Advances (expression bound)
  powers : ∀ turns, Advances (powers (operandAt bound) turns)
  primary : Advances (primary (expression bound) bound)
  arguments : Advances (callArguments (expression bound) bound)
  elements : Advances (delimited .leftBracket .rightBracket (expression bound) bound)
  parameters : Advances (delimited .leftBracket .rightBracket identifier bound)
  body : Advances (body (statement bound) bound)
  bodyRest : ∀ openedAt, Advances (bodyRest (statement bound) bound openedAt)
  blockBody : Advances (blockBody (statement bound) bound)

/-- The loops of the grammar, as they stand under a bound: each of their rounds advances. -/
structure Loops (bound : Nat) : Prop where
  conditions :
    LoopOf (chainRound conditionJoin (sumAt bound)) (chainRest conditionJoin (sumAt bound))
  sums : LoopOf (chainRound sumJoin (productAt bound)) (chainRest sumJoin (productAt bound))
  products : LoopOf (chainRound productJoin (powerAt bound)) (chainRest productJoin (powerAt bound))
  powers : LoopOf (powersRound (operandAt bound)) fun turns _ => powers (operandAt bound) turns
  callVerbs : LoopOf (manyRound (.mark .colon) (primary (expression bound) bound)) fun turns _ =>
    many (.mark .colon) (primary (expression bound) bound) turns
  expressions : LoopOf (manyRound (.mark .comma) (expression bound)) fun turns _ =>
    many (.mark .comma) (expression bound) turns
  blockVerbs : LoopOf (manyRound (.mark .colon) identifier) fun turns _ =>
    many (.mark .colon) identifier turns
  parameters : LoopOf (manyRound (.mark .comma) identifier) fun turns _ =>
    many (.mark .comma) identifier turns
  elifs : LoopOf (manyRound (.keyword .elif) (arm (statement bound) bound)) fun turns _ =>
    many (.keyword .elif) (arm (statement bound) bound) turns
  cases : LoopOf (manyRound (.keyword .case) (arm (statement bound) bound)) fun turns _ =>
    many (.keyword .case) (arm (statement bound) bound) turns
  bodies : LoopOf (bodyRound (statement bound)) fun turns _ =>
    statementsUntilClose (statement bound) turns
  programs : LoopOf (programRound (statement bound)) (programRest (statement bound))

section

variable (bound : Nat)

theorem productions : Productions bound :=
  have hexpression := expression_consumes bound
  have hstatement := statement_consumes bound
  have hspans : ∀ (expression : Expression) taken, expression.Spans taken → taken ≠ [] :=
    fun _ _ h => h.ne_nil
  { statements := hstatement.advances fun _ _ h => h.ne_nil
    expressions := hexpression.advances hspans
    powers := fun turns =>
      (powers_consumes (operand_consumes hexpression bound) turns).advances hspans
    primary := (primary_consumes hexpression bound).advances hspans
    arguments := (callArguments_consumes hexpression bound).advances fun _ _ h => h.1
    elements := (delimited_consumes _ _ hexpression bound).advances fun _ _ h => h.1
    parameters := (delimited_consumes _ _ identifier_consumes bound).advances fun _ _ h => h.1
    body := (body_consumes hstatement bound).advances fun _ _ h => h.1
    bodyRest := fun openedAt =>
      (bodyRest_consumes hstatement bound openedAt).advances fun _ _ h => h.1
    blockBody := (blockBody_consumes hstatement bound).advances fun _ _ h => h.1 }

theorem loops : Loops bound :=
  have hexpression := expression_consumes bound
  have hoperands := operand_consumes hexpression bound
  have hpowers := powers_consumes hoperands bound
  have hproducts := chain_consumes productJoin_joins productJoin_continues hpowers bound
  have hsums := chain_consumes sumJoin_joins sumJoin_continues hproducts bound
  have hstatement := statement_consumes bound
  have harms := arm_consumes hstatement bound
  { conditions := chainRest_loop conditionJoin_continues hsums
    sums := chainRest_loop sumJoin_continues hproducts
    products := chainRest_loop productJoin_continues hpowers
    powers := powers_loop hoperands
    callVerbs := many_loop (.mark .colon) nofun (primary_consumes hexpression bound)
    expressions := many_loop (.mark .comma) nofun hexpression
    blockVerbs := many_loop (.mark .colon) nofun identifier_consumes
    parameters := many_loop (.mark .comma) nofun identifier_consumes
    elifs := many_loop (.keyword .elif) nofun harms
    cases := many_loop (.keyword .case) nofun harms
    bodies := statementsUntilClose_loop hstatement
    programs := programRest_loop hstatement }

end

/-! ## Looking ahead -/

/-- Whether a block is declared is told by the tokens before an end of the file. -/
theorem startsBlock_before {ending : Token} (hending : ending.kind = .endOfFile)
    (before after : List Token) (stop stop' : Position) :
    startsBlock ⟨before ++ ending :: after, stop⟩ = startsBlock ⟨before, stop'⟩ := by
  have htake : (before ++ ending :: after).takeWhile (fun token => token.kind ≠ .endOfFile) =
      before.takeWhile fun token => token.kind ≠ .endOfFile := by
    induction before with
    | nil => simp [hending]
    | cons token before ih => rw [List.cons_append, List.takeWhile_cons, List.takeWhile_cons, ih]
  rw [← startsBlock_cut ⟨before ++ ending :: after, stop⟩, ← startsBlock_cut ⟨before, stop'⟩]
  simp only [startsBlock, Cursor.cut, htake]

/-! ## Programs -/

theorem outcome_cut {α : Type} (cursor : Cursor) (reading : Reading α) :
    outcome cursor.cut reading.cut = outcome cursor reading := by
  cases reading with
  | exhausted => simp [Reading.cut, outcome]
  | _ => rfl

/-- All tokens are read as those before the first end of the file are, under the bound of a program
of their number or a greater one. -/
theorem outcome_whole (tokens : List Token) (more : Nat) :
    outcome (.whole tokens) (program (sufficientBound tokens.length + more) (.whole tokens)) =
      Program.ofTokens tokens := by
  -- The bound is set by all tokens; those before the end of the file are no more than these.
  have hbound : sufficientBound (Cursor.ofTokens tokens).tokens.length ≤
      sufficientBound tokens.length + more := by
    have hshorter := (List.takeWhile_prefix (l := tokens)
      fun token => decide (token.kind ≠ .endOfFile)).length_le
    simp only [sufficientBound, Cursor.ofTokens]
    omega
  have hfirst : program (sufficientBound tokens.length + more) (.ofTokens tokens) =
      program (sufficientBound (Cursor.ofTokens tokens).tokens.length) (.ofTokens tokens) :=
    (program_settled hbound (Nat.le_refl _)).same
  have hcut := (program_consumes (sufficientBound tokens.length + more) (.whole tokens)).cut
  rw [Cursor.cut_whole, hfirst] at hcut
  rw [← outcome_cut, ← hcut, Cursor.cut_whole]
  rfl

/-- Whatever the tokens, a program is read from them without exhausting its bound, and what stands
behind the first end of the file is not looked at.  On the way there, all productions and all rounds
of loops that are accepted have taken a token and stay before that end, and so does the look ahead
to the bracket of a block. -/
theorem parsing_always_ends (tokens : List Token) :
    (∀ more, program (sufficientBound tokens.length + more) (.whole tokens) ≠ .exhausted ∧
      outcome (.whole tokens) (program (sufficientBound tokens.length + more) (.whole tokens)) =
        Program.ofTokens tokens) ∧
    (∀ bound, Productions bound ∧ Loops bound) ∧
    ∀ before ending after stop stop', ending.kind = .endOfFile →
      startsBlock ⟨before ++ ending :: after, stop⟩ = startsBlock ⟨before, stop'⟩ := by
  refine ⟨fun more => ⟨?_, outcome_whole tokens more⟩, fun bound => ?_, ?_⟩
  · have hsettled : SettledAt (.whole tokens) 0 (program (sufficientBound tokens.length + more))
        (program (sufficientBound tokens.length + more)) :=
      program_settled (Nat.le_refl _) (Nat.le_add_right _ more)
    exact hsettled.ends
  · exact ⟨productions bound, loops bound⟩
  · exact fun before ending after stop stop' hending =>
      startsBlock_before hending before after stop stop'

end Grammar
end Bir
