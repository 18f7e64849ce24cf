import Bir.Proofs.Layout.Grammar
import Bir.Proofs.Source.Follow
import Bir.Proofs.Source.Spelling
import Bir.Proofs.Source.Turns

/-!
# Precedence — a spelling is read as what it spells

Each level of the grammar reads what is spelled at that level and stops before a sign that binds
looser.  This file defines:

* `Token.Kind.level?` — the level that the sign of a token belongs to;
* `written` — a cursor with kinds before it, at no positions;
* `ReadAt` — that a level reads kinds as an expression.

A level that associates to the left does not stop before its own signs.  There `ReadAt` says that
reading goes on with the expression as the left operand.
-/

namespace Bir

/-- The level of the sign of a token, if the token goes on with an expression. -/
def Token.Kind.level? : Token.Kind → Option Level
  | .condition _ => some .condition
  | .arithmetic op => some op.level
  | .keyword .log => some .power
  | .mark .colon => some .operand
  | .mark .leftParen => some .operand
  | _ => none

/-- No sign of the level or of a tighter one. -/
def Token.Kind.Looser (kind : Token.Kind) (level : Level) : Prop :=
  ∀ sign, kind.level? = some sign → sign.rank < level.rank

namespace Token.Kind

variable {kind : Token.Kind} {level level' : Level}

theorem Looser.mono (h : kind.Looser level) (le : level.rank ≤ level'.rank) :
    kind.Looser level' :=
  fun sign hsign => Nat.lt_of_lt_of_le (h sign hsign) le

theorem Looser.of_level (h : kind.level? = some level) (lt : level.rank < level'.rank) :
    kind.Looser level' := by
  intro sign hsign
  cases h.symm.trans hsign
  exact lt

theorem Looser.ne (h : kind.Looser level) : kind.level? ≠ some level :=
  fun hsign => Nat.lt_irrefl _ (h level hsign)

/-- What does not go on with an expression is looser than every level. -/
theorem Looser.of_stop (h : kind.continuesExpression = false) : kind.Looser level := by
  intro sign hsign
  unfold level? at hsign
  split at hsign <;> first | cases h | cases hsign

end Token.Kind

namespace Grammar

open Bir.Grammar.Parser

/-! ## Levels as parsers -/

/-- The operands of an expression under a bound. -/
abbrev operandAt (bound : Nat) : Parser Expression :=
  operand (fun cursor => expression bound cursor) bound

/-- The powers of an expression under a bound. -/
abbrev powerAt (bound : Nat) : Parser Expression := powers (operandAt bound) bound

/-- The products of an expression under a bound. -/
abbrev productAt (bound : Nat) : Parser Expression := chain productJoin (powerAt bound) bound

/-- The sums of an expression under a bound. -/
abbrev sumAt (bound : Nat) : Parser Expression := chain sumJoin (productAt bound) bound

/-- The signs of a level are those that its join takes. -/
def Join.Of (join : Join) (level : Level) : Prop :=
  ∀ kind, kind.level? ≠ some level → join kind = none

theorem conditionJoin_of : conditionJoin.Of .condition := by
  intro kind hkind
  unfold conditionJoin
  split
  · exact absurd rfl hkind
  · rfl

theorem sumJoin_of : sumJoin.Of .sum := by
  intro kind hkind
  unfold sumJoin
  split
  · exact absurd rfl hkind
  · exact absurd rfl hkind
  · rfl

theorem productJoin_of : productJoin.Of .product := by
  intro kind hkind
  unfold productJoin
  split
  · exact absurd rfl hkind
  · exact absurd rfl hkind
  · rfl

theorem powerJoin_of : powerJoin.Of .power := by
  intro kind hkind
  unfold powerJoin
  split
  · exact absurd rfl hkind
  · exact absurd rfl hkind
  · exact absurd rfl hkind
  · rfl

/-! ## Kinds at no positions -/

/-- A cursor with kinds before it, at no positions. -/
def written (kinds : List Token.Kind) (rest : Cursor) : Cursor :=
  rest.prepend (kinds.map fun kind => ⟨kind, .synthetic⟩)

section

variable (kind : Token.Kind) (kinds : List Token.Kind) (rest : Cursor)

@[simp]
theorem written_nil : written [] rest = rest := rfl

@[simp]
theorem written_append (more : List Token.Kind) :
    written (kinds ++ more) rest = written kinds (written more rest) := by
  simp [written]

@[simp]
theorem kind_written : (written (kind :: kinds) rest).kind = kind := rfl

@[simp]
theorem position_written : (written (kind :: kinds) rest).position = .synthetic := rfl

@[simp]
theorem next_written : (written (kind :: kinds) rest).next = written kinds rest := rfl

end

/-! ## Reading at a level -/

/-- A level that associates to the left reads kinds as the left operand of what follows. -/
def ReadsLeft (join : Join) (operand : Nat → Parser Expression) (level : Level)
    (expression : Expression) (kinds : List Token.Kind) : Prop :=
  ∀ bound rest, kinds.length ≤ bound → rest.kind.Looser level.tighter →
    ∃ turns, bound < turns + kinds.length ∧
      chain join (operand bound) bound (written kinds rest) =
        chainRest join (operand bound) turns expression.unplaced rest

/-- Kinds are read as an expression at a level, up to a sign that binds looser. -/
def ReadAt (expression : Expression) (kinds : List Token.Kind) : Level → Prop
  | .condition => ReadsLeft conditionJoin sumAt .condition expression kinds
  | .sum => ReadsLeft sumJoin productAt .sum expression kinds
  | .product => ReadsLeft productJoin powerAt .product expression kinds
  | .power => ∀ bound turns rest, kinds.length ≤ bound → kinds.length ≤ turns →
      rest.kind.Looser .power →
        powers (operandAt bound) turns (written kinds rest) = .accepted expression.unplaced rest
  | .operand => ∀ bound rest, kinds.length ≤ bound → rest.kind.Looser .operand →
      operandAt bound (written kinds rest) = .accepted expression.unplaced rest
  | .primary => ∀ bound rest, kinds.length ≤ bound →
      primary (fun cursor => Grammar.expression bound cursor) bound (written kinds rest) =
        .accepted expression.unplaced rest

/-! ## Levels that associate to the left -/

namespace ReadsLeft

variable {join : Join} {operand : Nat → Parser Expression} {level : Level}
  {left right : Expression} {before behind : List Token.Kind}

/-- Before a looser sign the level stops. -/
theorem accepts (h : ReadsLeft join operand level left before) (hjoin : join.Of level)
    {bound : Nat} {rest : Cursor} (room : before.length ≤ bound) (looser : rest.kind.Looser level)
    (tighter : level.rank ≤ level.tighter.rank) :
    chain join (operand bound) bound (written before rest) = .accepted left.unplaced rest := by
  obtain ⟨turns, hturns, hchain⟩ := h bound rest room (looser.mono tighter)
  obtain _ | turns := turns
  · omega
  · exact hchain.trans (chainRest_stop turns _ (hjoin _ looser.ne))

/-- What the tighter level reads is a left operand. -/
theorem of_operand (pos : 0 < before.length)
    (reads : ∀ bound rest, before.length ≤ bound → rest.kind.Looser level.tighter →
      operand bound (written before rest) = .accepted left.unplaced rest) :
    ReadsLeft join operand level left before := by
  intro bound rest room looser
  exact ⟨bound, by omega, bind_of_accepted (reads bound rest room looser)⟩

/-- A sign of the level joins the operand behind it to what stands before it. -/
theorem step (h : ReadsLeft join operand level left before)
    {joined : Expression} {sign : Token.Kind} {combine : Expression → Expression → Expression}
    (hsign : sign.level? = some level) (hjoin : join sign = some combine)
    (strict : level.rank < level.tighter.rank)
    (reads : ∀ bound rest, behind.length ≤ bound → rest.kind.Looser level.tighter →
      operand bound (written behind rest) = .accepted right.unplaced rest)
    (hjoined : joined.unplaced = combine left.unplaced right.unplaced) :
    ReadsLeft join operand level joined (before ++ sign :: behind) := by
  intro bound rest room looser
  simp only [List.length_append, List.length_cons] at room ⊢
  obtain ⟨turns, hturns, hchain⟩ := h bound (written (sign :: behind) rest) (by omega)
    (.of_level hsign strict)
  obtain _ | turns := turns
  · omega
  · refine ⟨turns, by omega, ?_⟩
    have hoperand := reads bound rest (by omega) looser
    rw [written_append, hchain, hjoined]
    exact chainRest_step turns _ hjoin hoperand

end ReadsLeft

/-! ## Tighter levels -/

section

variable {value : Expression} {kinds : List Token.Kind}

/-- Under a greater bound the loosest level is an expression. -/
theorem ReadAt.expression (h : ReadAt value kinds .condition) {bound : Nat} {rest : Cursor}
    (room : kinds.length < bound) (looser : rest.kind.Looser .condition) :
    Grammar.expression bound (written kinds rest) = .accepted value.unplaced rest := by
  obtain _ | bound := bound
  · cases room
  · exact ReadsLeft.accepts h conditionJoin_of (Nat.le_of_lt_succ room) looser (by decide)

/-- What a level reads, the next looser one reads. -/
theorem ReadAt.looser {level : Level} (pos : 0 < kinds.length)
    (h : ReadAt value kinds level.tighter) : ReadAt value kinds level := by
  cases level with
  | condition =>
      exact ReadsLeft.of_operand pos fun bound rest room looser =>
        ReadsLeft.accepts h sumJoin_of room looser (by decide)
  | sum =>
      exact ReadsLeft.of_operand pos fun bound rest room looser =>
        ReadsLeft.accepts h productJoin_of room looser (by decide)
  | product =>
      exact ReadsLeft.of_operand pos fun bound rest room looser =>
        h bound bound rest room room looser
  | power =>
      intro bound turns rest room hturns looser
      obtain _ | turns := turns
      · omega
      · have hoperand := h bound rest room (looser.mono (by decide))
        refine powers_stop hoperand ?_ (powerJoin_of _ looser.ne)
        intro hlog
        exact looser.ne (by rw [hlog]; rfl)
  | operand =>
      intro bound rest room looser
      refine operand_of_primary_accepted (h bound rest room) ?_ ?_
      · intro hcolon
        exact looser.ne (by rw [hcolon]; rfl)
      · intro hparen
        exact looser.ne (by rw [hparen]; rfl)
  | primary => exact h

/-- A group is read as what it encloses. -/
theorem ReadAt.group (h : ReadAt value kinds .condition) :
    ReadAt value (enclosed kinds) .primary := by
  intro bound rest room
  simp only [enclosed, List.length_append, List.length_cons, List.length_nil] at room
  have hinner : Grammar.expression bound (written kinds (written [.mark .rightBrace] rest)) =
      .accepted value.unplaced (written [.mark .rightBrace] rest) :=
    ReadAt.expression h (by omega) (.of_stop rfl)
  refine (primary_of_group rfl).trans ?_
  have hnext : (written (enclosed kinds) rest).next =
      written kinds (written [.mark .rightBrace] rest) := by
    simp [enclosed]
  rw [hnext]
  exact (bind_of_accepted hinner).trans rfl

end

/-! ## Parts with a sign before each -/

theorem turns_written (follows : Cursor → Prop) {sign : Token.Kind} {item : Parser Expression}
    {parts : List (Expression × List Token.Kind)}
    (reads : ∀ part ∈ parts, ∀ rest, follows rest →
      item (written part.2 rest) = .accepted part.1.unplaced rest)
    (signs : ∀ kinds rest, follows (written (sign :: kinds) rest)) {rest : Cursor}
    (hrest : follows rest) :
    Turns sign item (written ((parts.map Prod.snd).flatMap fun kinds => sign :: kinds) rest)
      (parts.map fun part => part.1.unplaced) rest := by
  induction parts with
  | nil => exact .done rest
  | cons first parts ih =>
      have hothers := ih fun part hmem => reads part (by simp [hmem])
      have hfollows : follows
          (written ((parts.map Prod.snd).flatMap fun kinds => sign :: kinds) rest) := by
        cases parts with
        | nil => exact hrest
        | cons second parts =>
            rw [List.map_cons, List.flatMap_cons]
            exact signs _ _
      have hfirst := reads first (by simp) _ hfollows
      rw [List.map_cons, List.flatMap_cons, List.map_cons, written_append]
      exact .step rfl hfirst hothers

section

variable {bound : Nat} {rest : Cursor} {arguments : List (Expression × List Token.Kind)}
  (h : ∀ argument ∈ arguments, ReadAt argument.1 argument.2 .condition)
include h

/-- Arguments behind commas are read up to the closing mark. -/
theorem many_written (closed : rest.kind = .mark .rightParen)
    (room : ((arguments.map Prod.snd).flatMap fun kinds => .mark .comma :: kinds).length < bound) :
    many (.mark .comma) (fun cursor => expression bound cursor) bound
        (written ((arguments.map Prod.snd).flatMap fun kinds => .mark .comma :: kinds) rest) =
      .accepted (arguments.map fun argument => argument.1.unplaced) rest := by
  have hturns : Turns (.mark .comma) (fun cursor => expression bound cursor)
      (written ((arguments.map Prod.snd).flatMap fun kinds => .mark .comma :: kinds) rest)
      (arguments.map fun argument => argument.1.unplaced) rest := by
    refine turns_written (fun cursor => cursor.kind.Looser .condition) ?_
      (fun _ _ => .of_stop rfl) (.of_stop (by rw [closed]; rfl))
    intro argument hmem rest looser
    have hlength := length_lt_flatMap (.mark .comma)
      (List.mem_map.2 ⟨argument, hmem, rfl⟩ : argument.2 ∈ arguments.map Prod.snd)
    exact (h argument hmem).expression (by omega) looser
  refine hturns.many ?_ (by rw [closed]; exact nofun)
  have hlength := length_le_flatMap (.mark .comma) (arguments.map Prod.snd)
  simp only [List.length_map] at hlength ⊢
  omega

/-- Arguments are read, each up to its comma. -/
theorem callArguments_written
    (room : (argumentKinds (arguments.map Prod.snd)).length ≤ bound) :
    callArguments (fun cursor => expression bound cursor) bound
        (written (argumentKinds (arguments.map Prod.snd)) rest) =
      .accepted (arguments.map fun argument => argument.1.unplaced) rest := by
  cases arguments with
  | nil => rfl
  | cons first others =>
      simp only [List.map_cons, argumentKinds, List.length_append, List.length_cons,
        List.length_nil] at room
      have hothers : ∀ argument ∈ others, ReadAt argument.1 argument.2 .condition :=
        fun argument hmem => h argument (by simp [hmem])
      have hclosed : (written [.mark .rightParen] rest).kind = .mark .rightParen := rfl
      have hmany := @many_written bound _ others hothers hclosed (by omega)
      have hcursor : written (argumentKinds ((first :: others).map Prod.snd)) rest =
          (written first.2 (written ((others.map Prod.snd).flatMap fun kinds =>
            .mark .comma :: kinds) (written [.mark .rightParen] rest))).prepend
              [⟨.mark .leftParen, .synthetic⟩] := by
        simp [written, argumentKinds, Cursor.prepend]
      rw [hcursor]
      generalize hmore : written ((others.map Prod.snd).flatMap fun kinds => .mark .comma :: kinds)
        (written [.mark .rightParen] rest) = more at hmany ⊢
      have hfirst : expression bound (written first.2 more) =
          .accepted first.1.unplaced more := by
        refine (h first (by simp)).expression (by omega) (.of_stop ?_)
        rw [← hmore]
        cases others <;> rfl
      have hopen : (written first.2 more).kind ≠ .mark .rightParen := by
        intro hkind
        have hstarts := startsExpression_of_expression hfirst
        rw [hkind] at hstarts
        cases hstarts
      have hseparated : separated .rightParen (fun cursor => expression bound cursor) bound
          (written first.2 more) =
            .accepted (first.1.unplaced :: others.map fun argument => argument.1.unplaced)
              (written [.mark .rightParen] rest) := by
        unfold separated
        rw [peek_bind, if_neg hopen]
        exact (bind_of_accepted hfirst).trans ((bind_of_accepted hmany).trans rfl)
      exact (bind_of_accepted hseparated).trans rfl

end

/-! ## Operators -/

section

variable {left right : Expression} {before behind : List Token.Kind} (position : Position)

theorem ReadAt.joinConditions (op : ConditionOp) (hleft : ReadAt left before .condition)
    (hright : ReadAt right behind .sum) :
    ReadAt (@Expression.condition op left right position) (before ++ .condition op :: behind)
      .condition := by
  refine ReadsLeft.step hleft rfl rfl (by decide) ?_ (condition_unplaced op left right position)
  exact fun bound rest room looser => ReadsLeft.accepts hright sumJoin_of room looser (by decide)

theorem ReadAt.joinSums {op : ArithmeticOp} (hop : op.level = .sum)
    (hjoin : sumJoin (.arithmetic op) = some (arithmetic op)) (hleft : ReadAt left before .sum)
    (hright : ReadAt right behind .product) :
    ReadAt (@Expression.arithmetic op left right position) (before ++ .arithmetic op :: behind)
      .sum := by
  refine ReadsLeft.step hleft (congrArg some hop) hjoin (by decide) ?_
    (arithmetic_unplaced op left right position)
  exact fun bound rest room looser =>
    ReadsLeft.accepts hright productJoin_of room looser (by decide)

theorem ReadAt.joinProducts {op : ArithmeticOp} (hop : op.level = .product)
    (hjoin : productJoin (.arithmetic op) = some (arithmetic op))
    (hleft : ReadAt left before .product) (hright : ReadAt right behind .power) :
    ReadAt (@Expression.arithmetic op left right position) (before ++ .arithmetic op :: behind)
      .product := by
  refine ReadsLeft.step hleft (congrArg some hop) hjoin (by decide) ?_
    (arithmetic_unplaced op left right position)
  exact fun bound rest room looser => hright bound bound rest room room looser

/-- A power is joined to all powers behind it. -/
theorem ReadAt.joinPowers {op : ArithmeticOp} (hop : op.level = .power)
    (hjoin : powerJoin (.arithmetic op) = some (arithmetic op))
    (hleft : ReadAt left before .operand) (hright : ReadAt right behind .power) :
    ReadAt (@Expression.arithmetic op left right position) (before ++ .arithmetic op :: behind)
      .power := by
  intro bound turns rest room hturns looser
  simp only [List.length_append, List.length_cons] at room hturns
  obtain _ | turns := turns
  · omega
  · have hbase := hleft bound (written (.arithmetic op :: behind) rest) (by omega)
      (.of_level (congrArg some hop) (by decide))
    have hpowers := hright bound turns rest (by omega) (by omega) looser
    rw [written_append, arithmetic_unplaced]
    exact powers_step hbase hjoin hpowers

theorem ReadAt.logarithm (keyword : Position) (h : ReadAt left before .operand) :
    ReadAt (@Expression.logarithm left keyword position) (before ++ [.keyword .log]) .power := by
  intro bound turns rest room hturns looser
  simp only [List.length_append, List.length_cons, List.length_nil] at room hturns
  obtain _ | turns := turns
  · omega
  · have hbase := h bound (written [.keyword .log] rest) (by omega) (.of_level rfl (by decide))
    rw [written_append, logarithm_unplaced]
    exact (bind_of_accepted hbase).trans rfl

end

/-- A call is read, each of its verbs as a primary. -/
theorem ReadAt.call {name : Identifier} {verbs arguments : List (Expression × List Token.Kind)}
    (position : Position) (verbs_read : ∀ verb ∈ verbs, ReadAt verb.1 verb.2 .primary)
    (arguments_read : ∀ argument ∈ arguments, ReadAt argument.1 argument.2 .condition) :
    ReadAt (@Expression.call name (verbs.map Prod.fst) (arguments.map Prod.fst) position)
      (.identifier name.name name.negative :: verbKinds (verbs.map Prod.snd) ++
        argumentKinds (arguments.map Prod.snd)) .operand := by
  intro bound rest room looser
  simp only [List.length_append, List.length_cons] at room
  have harguments := @callArguments_written bound rest arguments arguments_read (by omega)
  generalize hopening : written (argumentKinds (arguments.map Prod.snd)) rest = opening
    at harguments
  have hparen : opening.kind = .mark .leftParen := by
    rw [← hopening]
    cases arguments <;> rfl
  have hturns : Turns (.mark .colon)
      (primary (fun cursor => Grammar.expression bound cursor) bound)
      (written (verbKinds (verbs.map Prod.snd)) opening)
      (verbs.map fun verb => verb.1.unplaced) opening := by
    refine turns_written (fun _ => True) ?_ (fun _ _ => trivial) trivial
    intro verb hmem rest _
    have hlength := length_lt_flatMap (.mark .colon)
      (List.mem_map.2 ⟨verb, hmem, rfl⟩ : verb.2 ∈ verbs.map Prod.snd)
    exact verbs_read verb hmem bound rest (by unfold verbKinds at room; omega)
  have hverbs : many (.mark .colon)
      (primary (fun cursor => Grammar.expression bound cursor) bound) bound
        (written (verbKinds (verbs.map Prod.snd)) opening) =
          .accepted (verbs.map fun verb => verb.1.unplaced) opening := by
    refine hturns.many ?_ (by rw [hparen]; exact nofun)
    have hlength := length_le_flatMap (.mark .colon) (verbs.map Prod.snd)
    unfold verbKinds at room
    simp only [List.length_map] at hlength ⊢
    omega
  have hcall : startsCall (.identifier name.name name.negative)
      (written (verbKinds (verbs.map Prod.snd)) opening).kind = true := by
    cases verbs with
    | nil =>
        rw [List.map_nil, verbKinds, List.flatMap_nil, written_nil, hparen]
        rfl
    | cons verb verbs => rfl
  have hcursor : written (.identifier name.name name.negative :: verbKinds (verbs.map Prod.snd) ++
      argumentKinds (arguments.map Prod.snd)) rest =
        (written (verbKinds (verbs.map Prod.snd)) opening).prepend
          [⟨.identifier name.name name.negative, .synthetic⟩] := by
    rw [← hopening]
    simp [written, Cursor.prepend]
  rw [hcursor]
  refine (operand_of_call ?_).trans ?_
  · rw [Cursor.kindAt_one]
    exact hcall
  · have hname : identifier ((written (verbKinds (verbs.map Prod.snd)) opening).prepend
        [⟨.identifier name.name name.negative, .synthetic⟩]) =
          .accepted name.unplaced (written (verbKinds (verbs.map Prod.snd)) opening) := rfl
    refine (bind_of_accepted hname).trans ((bind_of_accepted hverbs).trans ?_)
    refine (bind_of_accepted harguments).trans ?_
    simp only [Expression.unplaced, Expression.unplacedAll_eq_map, List.map_map]
    rfl

/-- What is spelled at a level is read there. -/
theorem Spelled.readAt {level : Level} {expression : Expression} {kinds : List Token.Kind}
    (h : Spelled level expression kinds) : ReadAt expression kinds level := by
  induction h with
  | integer value position => exact fun bound rest room => primary_of_integer rfl
  | reference name => exact fun bound rest room => primary_of_name rfl
  | slot op keyword arguments written ih =>
      intro bound rest room
      simp only [List.length_cons] at room
      have harguments := @callArguments_written bound rest arguments ih (Nat.le_of_succ_le room)
      refine (primary_of_slot rfl).trans ((bind_of_accepted harguments).trans ?_)
      simp only [Expression.unplaced, Expression.unplacedAll_eq_map, List.map_map]
      rfl
  | group _ ih => exact ih.group
  | string text position => exact fun bound rest room looser => operand_of_text rfl
  | call name verbs arguments position _ _ verbs_ih arguments_ih =>
      exact .call position verbs_ih arguments_ih
  | logarithm keyword position _ ih => exact ih.logarithm position keyword
  | arithmetic op position _ _ left_ih right_ih =>
      cases op with
      | addition => exact left_ih.joinSums position rfl rfl right_ih
      | subtraction => exact left_ih.joinSums position rfl rfl right_ih
      | multiplication => exact left_ih.joinProducts position rfl rfl right_ih
      | division => exact left_ih.joinProducts position rfl rfl right_ih
      | exponent => exact left_ih.joinPowers position rfl rfl right_ih
      | root => exact left_ih.joinPowers position rfl rfl right_ih
      | modulus => exact left_ih.joinPowers position rfl rfl right_ih
  | condition op position _ _ left_ih right_ih =>
      exact left_ih.joinConditions position op right_ih
  | looser written ih => exact ih.looser written.length_pos

/-! ## Tokens at their positions -/

/-- What is read without positions is read with them, up to the same place. -/
theorem expression_of_unplaced {bound : Nat} {cursor rest : Cursor} {tokens : List Token}
    {value : Expression} (hcursor : cursor = rest.prepend tokens)
    (h : expression bound cursor.unplaced = .accepted value rest.unplaced) :
    ∃ read, expression bound cursor = .accepted read rest ∧ read.unplaced = value := by
  rw [expression_unplaced] at h
  cases hread : expression bound cursor with
  | rejected error => simp [hread, Reading.unplaced] at h
  | exhausted => simp [hread, Reading.unplaced] at h
  | accepted read left =>
      simp only [hread, Reading.unplaced, Reading.accepted.injEq] at h
      obtain ⟨hvalue, hleft⟩ := h
      obtain ⟨taken, htaken, -⟩ := expression_local (Nat.le_refl _) _ _ _ hread
      -- What is left is as long as `rest` and ends the same tokens.
      have hlength : left.tokens.length = rest.tokens.length := by
        simpa using congrArg (fun cursor : Cursor => cursor.tokens.length) hleft
      have hsplit : taken ++ left.tokens = tokens ++ rest.tokens := by
        have := congrArg Cursor.tokens (htaken.symm.trans hcursor)
        simpa [Cursor.prepend] using this
      have hstop : left.stop = rest.stop := by
        simpa [Cursor.prepend] using congrArg Cursor.stop (htaken.symm.trans hcursor)
      have htokens : left.tokens = rest.tokens := (List.append_inj' hsplit hlength).2
      have hsame : left = rest := by
        cases left
        cases rest
        simp_all
      exact ⟨read, by rw [hsame], hvalue⟩

theorem unplaced_prepend (tokens : List Token) (rest : Cursor) :
    (rest.prepend tokens).unplaced = written (tokens.map Token.kind) rest.unplaced := by
  simp [Cursor.prepend, Cursor.unplaced, written, Function.comp_def, Token.unplaced]

/-- A spelling is one of a single expression, up to positions. -/
theorem Spelled.unique {value value' : Expression} {kinds : List Token.Kind}
    (h : Spelled .condition value kinds) (h' : Spelled .condition value' kinds) :
    value.unplaced = value'.unplaced := by
  have hread : ∀ {value : Expression}, Spelled .condition value kinds →
      expression (kinds.length + 1) (written kinds ⟨[], .start⟩) =
        .accepted value.unplaced ⟨[], .start⟩ :=
    fun h => h.readAt.expression (Nat.lt_succ_self _) (.of_stop rfl)
  exact (Reading.accepted.inj ((hread h).symm.trans (hread h'))).1

/-- The shortest spelling of an expression is one, and however the expression is spelled, it is read
back up to positions, and reading stops before what does not go on with an expression. -/
theorem spellings_are_read_back (value : Expression) :
    Spelled .condition value value.spelling ∧
      ∀ kinds, Spelled .condition value kinds →
        ∀ (tokens : List Token) (rest : Cursor) (bound : Nat),
          tokens.map Token.kind = kinds → rest.kind.continuesExpression = false →
            tokens.length < bound →
              ∃ read, expression bound (rest.prepend tokens) = .accepted read rest ∧
                read.unplaced = value.unplaced := by
  refine ⟨value.spelled_spelling.mono (Nat.zero_le _), ?_⟩
  intro kinds hspelled tokens rest bound hkinds hstop room
  refine expression_of_unplaced rfl ?_
  rw [unplaced_prepend, hkinds]
  refine hspelled.readAt.expression ?_ (.of_stop (by rwa [Cursor.kind_unplaced]))
  rwa [← hkinds, List.length_map]

/-- A difference to the right of a difference takes braces, and is read back before a bracket. -/
theorem spellings_are_read_back_of_difference :
    ∃ read, expression 8
        (Cursor.prepend [⟨.integer 7, .start⟩, ⟨.arithmetic .subtraction, .start⟩,
          ⟨.mark .leftBrace, .start⟩, ⟨.integer 5, .start⟩, ⟨.arithmetic .subtraction, .start⟩,
          ⟨.integer 3, .start⟩, ⟨.mark .rightBrace, .start⟩]
            ⟨[⟨.mark .rightBracket, .start⟩], .start⟩) =
          .accepted read ⟨[⟨.mark .rightBracket, .start⟩], .start⟩ ∧
      read.unplaced = arithmetic .subtraction (.integer 7 .synthetic)
        (arithmetic .subtraction (.integer 5 .synthetic) (.integer 3 .synthetic)) := by
  have hread := spellings_are_read_back (arithmetic .subtraction (.integer 7 .start)
    (arithmetic .subtraction (.integer 5 .start) (.integer 3 .start)))
  exact hread.2 _ hread.1 _ _ _ rfl rfl (by decide)

end Grammar
end Bir
