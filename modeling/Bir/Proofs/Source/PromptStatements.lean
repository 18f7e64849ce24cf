import Bir.Proofs.Source.PromptExpressions

/-!
# Statements — where they are rejected

A comment may stand wherever a statement is expected, so within a statement or a body too the token
that is rejected is the first that is impossible.  This file defines:

* `EndsStatement` — what follows does not go on with a statement;
* `AtStatement` and `InBody` — the views where a statement is expected and where a body may end too.

What starts with a name is a block or starts with an expression, and a reader has to look ahead to
tell.  `block_prompt` and `expressionStatement_prompt` each come with a view in which the other one is
not read.
-/

namespace Bir
namespace Grammar

open Bir.Grammar.Parser

/-- What follows does not go on with a statement. -/
structure EndsStatement (left : Cursor) : Prop where
  past : left.kind.continuesStatement = false
  seeds : left.seeds = false

theorem EndsStatement.of_kind {left : Cursor} {kind : Token.Kind} (h : left.kind = kind)
    (ends : kind.continuesStatement = false) (noBrace : kind ≠ .mark .leftBrace) :
    EndsStatement left where
  past := h ▸ ends
  seeds := seeds_of_ne (h ▸ noBrace)

theorem EndsStatement.expression {left : Cursor} (h : EndsStatement left) : EndsExpression left := by
  cases hcontinues : left.kind.continuesExpression with
  | false => exact hcontinues
  | true =>
      have hpast := h.past
      rw [Token.Kind.continuesStatement_of_expression hcontinues] at hpast
      cases hpast

/-- The token that stands for a statement that is missing. -/
abbrev anyStatement : Token.Kind := .comment ""

/-- Where a statement is expected. -/
abbrev AtStatement : View := Begins [anyStatement, anyOperand]

/-- Where a statement or the end of a body is expected. -/
abbrev InBody : View := Begins [anyStatement, anyOperand, .mark .rightBrace]

/-- Nothing that starts a statement or ends a body goes on with a statement. -/
theorem Begins.behind {fresh : List Token.Kind} {rest left : Cursor} (h : Begins fresh rest left)
    (none : ∀ kind ∈ fresh, kind.continuesStatement = false) (statement : Statement) :
    Behind statement rest left where
  past := h.kind.stays none
  seeds _ := h.seeds

variable {bound bound' : Nat}

section Statements

variable {inner inner' : Parser Statement} {follow : Cursor → Prop} {cursor : Cursor}

/-! ## Bodies -/

section Bodies

theorem statementsUntilClose_stop (h : cursor.kind = .mark .rightBrace ∨ cursor.kind = .endOfFile) :
    statementsUntilClose inner (bound + 1) cursor = .accepted [] cursor := by
  rw [statementsUntilClose, peek_bind, if_pos h]
  rfl

theorem statementsUntilClose_step
    (h : ¬(cursor.kind = .mark .rightBrace ∨ cursor.kind = .endOfFile)) :
    statementsUntilClose inner (bound + 1) cursor =
      (do
        let first ← inner
        let rest ← statementsUntilClose inner bound
        return first :: rest : Parser (List Statement)) cursor := by
  rw [statementsUntilClose, peek_bind, if_neg h]

theorem statementsUntilClose_takes (hbound : 0 < bound) :
    Takes (statementsUntilClose inner bound) [] [] (fun left => left.kind = .mark .rightBrace)
      (fun left => left.kind = .mark .rightBrace) where
  endless := nofun
  reads more hmore := by
    obtain _ | bound := bound
    · omega
    · cases List.map_eq_nil_iff.1 hmore
      exact ⟨[], fun left hleft => ⟨statementsUntilClose_stop (.inl hleft), hleft⟩⟩

variable (hlocal : Local SameStart Behind inner inner')
include hlocal

/-- A body ends as well where a closing brace follows. -/
theorem untilClose_local (le : bound ≤ bound') :
    Local (Begins [.mark .rightBrace]) (fun _ => Instead [.mark .rightBrace])
      (statementsUntilClose inner bound) (statementsUntilClose inner' bound') := by
  induction bound generalizing bound' with
  | zero => exact .exhausted
  | succ bound ih =>
      obtain _ | bound' := bound'
      · omega
      · intro cursor
        by_cases hstop : cursor.kind = .mark .rightBrace ∨ cursor.kind = .endOfFile
        · intro statements rest hread
          cases (statementsUntilClose_stop hstop).symm.trans hread
          refine ⟨[], rfl, fun left hleft => ?_⟩
          have hstop' : left.kind = .mark .rightBrace ∨ left.kind = .endOfFile := by
            rcases hleft with hkind | hfresh
            · rwa [← hkind]
            · exact .inl (List.mem_singleton.1 hfresh)
          refine ⟨statementsUntilClose_stop hstop', hleft, fun hseeds => ?_⟩
          rw [Cursor.prepend_nil, seeds_of_ne] at hseeds
          · cases hseeds
          · rcases hstop' with h | h <;> simp [h]
        · have hmore : Local SameStart (fun _ => Instead [.mark .rightBrace])
              (do
                let first ← inner
                let rest ← statementsUntilClose inner bound
                return first :: rest)
              (do
                let first ← inner'
                let rest ← statementsUntilClose inner' bound'
                return first :: rest) := by
            refine hlocal.bind fun first => .widen (Begins [.mark .rightBrace]) ?_ fun _ _ h =>
              h.behind (by simp [Token.Kind.continuesStatement, Token.Kind.continuesExpression]) first
            exact (ih (Nat.le_of_succ_le_succ le)).bind fun rest => .pure
          refine .widen SameStart ?_ fun _ h => h.begins
          refine (hmore cursor).congr (statementsUntilClose_step hstop) fun cursor' _ _ h _ => ?_
          exact statementsUntilClose_step (h.kind ▸ hstop)

variable (lt : bound < bound') (hinner : Prompt AtStatement EndsStatement inner inner')
include lt hinner

theorem statementsUntilClose_prompt :
    Prompt AtStatement (fun left => left.kind = .mark .rightBrace)
      (statementsUntilClose inner bound) (statementsUntilClose inner' bound') := by
  induction bound generalizing bound' with
  | zero => exact fun _ => .exhausted
  | succ bound ih =>
      obtain _ | bound' := bound'
      · omega
      · intro cursor
        by_cases hstop : cursor.kind = .mark .rightBrace ∨ cursor.kind = .endOfFile
        · exact .accepted (statementsUntilClose_stop hstop)
        · have hlt := Nat.lt_of_succ_lt_succ lt
          have hmore := (hinner cursor).bind Behind EndsStatement
            ((hlocal cursor).widen _ fun _ h => h.begins)
            (fun first rest _ => ((ih hlt rest).map (f := (first :: ·))).widen _ fun _ h =>
              h.behind (by simp [Token.Kind.continuesStatement, Token.Kind.continuesExpression]) first)
            ⟨[], fun first => (statementsUntilClose_takes (Nat.zero_lt_of_lt hlt)).map.mono
              (fun _ h => h) fun _ h => .of_kind h rfl nofun⟩
          refine hmore.congr (statementsUntilClose_step hstop) fun cursor' h => ?_
          refine statementsUntilClose_step ?_
          rcases h.kind with hkind | hfresh
          · rwa [← hkind]
          · simp only [List.mem_cons, List.not_mem_nil, or_false] at hfresh
            rcases hfresh with h | h <;> simp [h]

theorem bodyRest_expects (openedAt : Position) :
    Expects InBody [.mark .rightBrace] (fun left => left.kind = .mark .rightBrace) follow
      (bodyRest inner bound openedAt) (bodyRest inner' bound' openedAt) :=
  .bind (fun _ => Instead [.mark .rightBrace])
    ((untilClose_local hlocal (Nat.le_of_lt lt)).widen _ fun _ _ h => h.mono (by simp))
    { prompt := (statementsUntilClose_prompt hlocal lt hinner).widen _ fun _ _ h => h.mono (by simp)
      takes := statementsUntilClose_takes (Nat.zero_lt_of_lt lt) }
    fun statements => (Expects.expectClosing _ _ _ fun _ _ _ h => h).map

theorem body_expects :
    Expects (Instead [.mark .leftBrace]) [.mark .leftBrace, .mark .rightBrace]
      (fun left => left.kind = .mark .leftBrace) follow (body inner bound) (body inner' bound') :=
  .behind (.mark .leftBrace) nofun (bodyRest_expects hlocal lt hinner)

omit hlocal lt hinner in
theorem bodyAfter?_of_word {word : Keyword} (h : cursor.kind = .keyword word) :
    bodyAfter? word inner bound cursor =
      (do
        let statements ← body inner bound
        return some statements : Parser (Option (List Statement))) cursor.next :=
  bind_of_accepted (eat?_of_eq h)

omit hlocal lt hinner in
theorem bodyAfter?_of_ne {word : Keyword} (h : cursor.kind ≠ .keyword word) :
    bodyAfter? word inner bound cursor = .accepted none cursor :=
  bind_of_accepted (eat?_of_ne h)

theorem bodyAfter?_expects {word : Keyword} {view : View}
    (tells : Tells view (Instead [.mark .leftBrace]) (.keyword word))
    (hfollow : ∀ left, follow left → left.kind ≠ .keyword word) :
    Expects view [] follow follow (bodyAfter? word inner bound) (bodyAfter? word inner' bound') where
  prompt := by
    intro cursor
    by_cases hword : cursor.kind = .keyword word
    · have hbody : PromptAt cursor.next (Instead [.mark .leftBrace]) follow
          (do
            let statements ← body inner bound
            return some statements)
          (do
            let statements ← body inner' bound'
            return some statements) :=
        (body_expects hlocal lt hinner).prompt.map cursor.next
      refine .widen (SameHead _) ?_ fun _ h => tells.head h hword
      exact .step (by simp [hword]) (bodyAfter?_of_word hword)
        (fun cursor' hhead => bodyAfter?_of_word (hhead.kind.symm.trans hword)) hbody
    · exact .accepted (bodyAfter?_of_ne hword)
  takes := {
    endless := nofun
    reads := fun more hmore => by
      cases List.map_eq_nil_iff.1 hmore
      exact ⟨none, fun left hleft => ⟨bodyAfter?_of_ne (hfollow left hleft), hleft⟩⟩ }

end Bodies

/-! ## Statements with a keyword -/

section Keywords

variable (room : bound + 2 ≤ bound')
include room

/-- A value at the end of a statement. -/
theorem value_expects {α : Type} (f : Expression → α) :
    Expects (Begins [anyOperand]) [anyOperand] (fun cursor => cursor.kind = anyOperand)
      EndsStatement
      (do
        let value ← expression bound
        return f value)
      (do
        let value ← expression bound'
        return f value) :=
  (expression_expects room).map.mono (fun _ _ h => h) (fun _ h => h) fun _ h => h.expression

theorem declaration_prompt {word : Keyword} (hword : cursor.kind = .keyword word)
    (kind : BindingKind) :
    PromptAt cursor (SameHead Anywhere) EndsStatement (declaration kind bound)
      (declaration kind bound') := by
  refine .here ?_ fun _ h => h.position
  refine .andThen rfl (LocalAt.skip (by simp [hword])) ?_
  have hname := Expects.bind (fun _ => Instead [.mark .equals])
    (Local.identifier.widen _ fun _ _ h => .inl h.kind) .identifier fun name =>
      Expects.behind (.mark .equals) nofun fun _ =>
        value_expects room (Statement.declare kind name · cursor.position)
  exact (hname.prompt cursor.next).widen _ fun _ _ => trivial

theorem exit_prompt {word : Keyword} (hword : cursor.kind = .keyword word) (way : Exit) :
    PromptAt cursor (SameHead (Begins [anyOperand])) EndsStatement (exit way bound)
      (exit way bound') := by
  refine .here ?_ fun _ h => h.position
  refine .andThen rfl (LocalAt.skip (by simp [hword])) ?_
  exact (value_expects room (Statement.exit way · cursor.position)).prompt cursor.next

variable (hlocal : Local SameStart Behind inner inner')
  (hinner : Prompt AtStatement EndsStatement inner inner')
include hlocal hinner

theorem arm_expects :
    Expects (Begins [anyOperand]) [anyOperand, .mark .leftBrace, .mark .rightBrace]
      (fun cursor => cursor.kind = anyOperand) follow (arm inner bound) (arm inner' bound') :=
  .bind (fun _ => PastExpression)
    ((expression_local (by omega)).widen _ fun _ _ h => h.begins) (expression_expects room)
    fun test => ((body_expects hlocal (by omega) hinner).behindExpression follow rfl).map

/-- Alternatives, each behind a word of its own. -/
theorem arms_expects {word : Keyword} {view : View}
    (tells : Tells view (Begins [anyOperand]) (.keyword word))
    (hfollow : ∀ left, follow left → left.kind ≠ .keyword word) :
    Expects view [] follow follow (many (.keyword word) (arm inner bound) bound)
      (many (.keyword word) (arm inner' bound') bound') :=
  many_expects (by omega) nofun tells
    ((arm_local (by omega) hlocal).mono (fun _ _ h => h.begins) fun _ _ _ _ => trivial)
    (arm_expects room hlocal hinner).prompt fun left h => ⟨hfollow left h, trivial⟩

theorem branch_prompt (hif : cursor.kind = .keyword .if) :
    PromptAt cursor (SameHead (Begins [anyOperand])) EndsStatement (branch inner bound)
      (branch inner' bound') := by
  have le : bound ≤ bound' := by omega
  have lt : bound < bound' := by omega
  have ends : ∀ word : Keyword, (Token.Kind.keyword word).continuesStatement = true →
      ∀ left, EndsStatement left → left.kind ≠ .keyword word := by
    intro word hgoes left hends hword
    have hpast := hends.past
    rw [hword, hgoes] at hpast
    cases hpast
  have harm : Local SameStart (fun _ => PastStatement) (arm inner bound) (arm inner' bound') :=
    (arm_local le hlocal).mono (fun _ _ h => h) fun _ _ _ _ => trivial
  have helifs := Local.many le (.keyword .elif) nofun (.stays rfl) harm
  have hrest := Expects.bind (fun _ => PastStatement) (harm.widen _ fun _ _ h => h.begins)
    (arm_expects room hlocal hinner) fun armed => Expects.bind (fun _ => PastStatement) helifs
      (arms_expects room hlocal hinner (.stays rfl) (ends .elif rfl)) fun elifs =>
        (bodyAfter?_expects hlocal lt hinner (.stays rfl) (ends .else rfl)).map
          (f := fun otherwise => Statement.branch armed.1 armed.2 elifs otherwise cursor.position)
  exact .andThen (if_pos hif) (Local.expect (.keyword .if) nofun cursor) (hrest.prompt cursor.next)

theorem repeatWhile_prompt (hwhile : cursor.kind = .keyword .while) :
    PromptAt cursor (SameHead (Begins [anyOperand])) EndsStatement (repeatWhile inner bound)
      (repeatWhile inner' bound') :=
  .andThen (if_pos hwhile) (Local.expect (.keyword .while) nofun cursor)
    ((arm_expects room hlocal hinner).map.prompt cursor.next)

theorem repeatFor_prompt (hfor : cursor.kind = .keyword .for) :
    PromptAt cursor (SameHead (Begins [anyOperand])) EndsStatement (repeatFor inner bound)
      (repeatFor inner' bound') := by
  have le : bound ≤ bound' := by omega
  have lt : bound < bound' := by omega
  have hrest := Expects.bind (fun _ => PastExpression)
    ((expression_local le).widen _ fun _ _ h => h.begins) (expression_expects room) fun count =>
      (Expects.behind (.keyword .as) nofun fun _ => Expects.bind (fun _ => Instead [.mark .leftBrace])
        (Local.identifier.widen _ fun _ _ h => .inl h.kind) .identifier fun placeholder =>
          (body_expects hlocal lt hinner).map (f := fun statements =>
            Statement.repeatFor count placeholder statements cursor.position)).behindExpression
        EndsStatement rfl
  exact .andThen (if_pos hfor) (Local.expect (.keyword .for) nofun cursor) (hrest.prompt cursor.next)

theorem switch_prompt (hswitch : cursor.kind = .keyword .switch) :
    PromptAt cursor (SameHead (Begins [anyOperand])) EndsStatement (switch inner bound)
      (switch inner' bound') := by
  have le : bound ≤ bound' := by omega
  have lt : bound < bound' := by omega
  have ends : ∀ (word : Keyword) (left : Cursor), left.kind = .mark .rightBrace →
      left.kind ≠ .keyword word := by
    intro word left hleft
    simp [hleft]
  have tells : ∀ {behind : View} (word : Keyword),
      Tells (Instead [.mark .rightBrace]) behind (.keyword word) :=
    fun word => Instead.tells (by simp)
  have hcases : Local (Instead [.mark .rightBrace]) (fun _ => Instead [.mark .rightBrace])
      (many (.keyword .case) (arm inner bound) bound)
      (many (.keyword .case) (arm inner' bound') bound') :=
    .many le _ nofun (tells _) ((arm_local le hlocal).mono (fun _ _ h => h) fun _ _ _ _ => trivial)
  have hrest := Expects.bind (fun _ => PastExpression)
    ((expression_local le).widen _ fun _ _ h => h.begins) (expression_expects room) fun condition =>
      (Expects.behind (.mark .leftBrace) nofun fun openedAt =>
        Expects.bind (fun _ => Instead [.mark .rightBrace])
        hcases (arms_expects room hlocal hinner (tells .case) (ends .case)) fun cases =>
          Expects.bind (fun _ => Instead [.mark .rightBrace])
            (bodyAfter?_local le hlocal (tells .default))
            (bodyAfter?_expects hlocal lt hinner (tells .default) (ends .default)) fun otherwise =>
              (Expects.expectClosing .leftBrace .rightBrace openedAt fun _ _ _ h => h).map
                (f := fun _ => Statement.switch condition cases otherwise cursor.position)
        ).behindExpression EndsStatement rfl
  exact .andThen (if_pos hswitch) (Local.expect (.keyword .switch) nofun cursor)
    (hrest.prompt cursor.next)

end Keywords

/-! ## Blocks -/

section Blocks

/-- What seeds slots stands where a string or a bracket does. -/
theorem populateSource_of_text {text : String} (h : cursor.kind = .text text) :
    populateSource bound cursor = .accepted (.string text) cursor.next := by
  rw [populateSource, peek_bind, h]
  rfl

theorem populateSource_of_bracket (h : cursor.kind = .mark .leftBracket) :
    populateSource bound cursor =
      (do
        let elements ← delimited .leftBracket .rightBracket (expression bound) bound
        return .array elements : Parser Populate) cursor := by
  rw [populateSource, peek_bind, h]

variable (room : bound + 2 ≤ bound')
include room

theorem populateSource_prompt (hseeds : startsPopulate (.mark .leftBrace) cursor.kind = true) :
    PromptAt cursor SameKind follow (populateSource bound) (populateSource bound') := by
  have lt : bound < bound' := by omega
  cases hkind : cursor.kind with
  | text text => exact .accepted (populateSource_of_text hkind)
  | mark sign =>
      obtain rfl : sign = .leftBracket := by
        rw [hkind] at hseeds
        cases sign <;> first | rfl | cases hseeds
      have helements : Prompt (Instead [.mark .leftBracket]) follow
          (delimited .leftBracket .rightBracket (expression bound) bound)
          (delimited .leftBracket .rightBracket (expression bound') bound') :=
        (delimited_expressions lt (expression_local (Nat.le_of_lt lt)) (expression_prompt lt)
          .leftBracket .rightBracket (by decide) rfl).prompt
      refine .congr (.widen (Instead [.mark .leftBracket]) (helements.map cursor)
        fun cursor' h => ?_) (populateSource_of_bracket hkind) fun cursor' h => ?_
      · rcases h with hsame | hfresh
        · exact hsame
        · exact hkind.trans (List.mem_singleton.1 hfresh).symm
      · exact populateSource_of_bracket (h.symm.trans hkind)
  | _ =>
      rw [hkind] at hseeds
      cases hseeds

theorem seeding_prompt (hseeds : cursor.seeds = true) :
    PromptAt cursor (SameHead SameKind) follow (seeding bound) (seeding bound') := by
  have hbrace := kind_of_seeds hseeds
  have hsource : startsPopulate (.mark .leftBrace) cursor.next.kind = true := by
    rwa [← hbrace, ← Cursor.kindAt_one]
  refine .andThen (if_pos hbrace) (Local.expect (.mark .leftBrace) nofun cursor) ?_
  refine (populateSource_prompt room hsource).bind (fun _ => Anywhere)
    (fun left => left.kind = .mark .rightBrace)
    ((populateSource_local (by omega) _).widen _ fun _ h => h.kind) (fun source rest _ => ?_)
    ⟨[.mark .rightBrace], fun source => ?_⟩
  · exact (Prompt.expectClosing _ _ _ (fun _ _ _ _ => trivial) rest).map
  · exact (Takes.expectClosing _ _ _).map

/-- Where nothing seeds slots, nothing is taken. -/
theorem populate?_expects :
    Expects Anywhere [] EndsStatement EndsStatement (populate? bound) (populate? bound') where
  prompt := by
    intro cursor
    cases hseeds : cursor.seeds with
    | true =>
        refine .widen (SameHead SameKind) ?_ fun _ _ => trivial
        refine (seeding_prompt room hseeds).congr (by rw [populate?_eq, if_pos hseeds]) ?_
        intro cursor' h
        rw [populate?_eq, if_pos (h.sameStart.seeds ▸ hseeds)]
    | false => exact .accepted (by rw [populate?_eq, hseeds]; rfl)
  takes := {
    endless := nofun
    reads := fun more hmore => by
      cases List.map_eq_nil_iff.1 hmore
      refine ⟨none, fun left hleft => ⟨?_, hleft⟩⟩
      rw [List.append_nil, Cursor.prepend_nil, populate?_eq, hleft.seeds]
      rfl }

theorem implementing_expects (name : Identifier) :
    Expects (Instead [Takes.anyName]) [Takes.anyName] (fun cursor => cursor.kind = Takes.anyName)
      EndsStatement (implementing name bound) (implementing name bound') :=
  .bind (fun _ => Anywhere) (Local.identifier.widen _ fun _ _ h => .inl h.kind) .identifier
    fun _ => (populate?_expects room).map

omit room in
/-- The verbs of a block are read up to its bracket. -/
theorem many_of_bracket {turns : Nat} (hverbs : verbsThenBracket cursor.tokens = true) :
    (∀ error, many (.mark .colon) identifier turns cursor ≠ .rejected error) ∧
      ∀ verbs rest, many (.mark .colon) identifier turns cursor = .accepted verbs rest →
        rest.kind = .mark .leftBracket := by
  induction turns generalizing cursor with
  | zero => refine ⟨fun error h => ?_, fun verbs rest h => ?_⟩ <;> cases h
  | succ turns ih =>
      rw [verbsThenBracket_eq] at hverbs
      by_cases hcolon : cursor.kind = .mark .colon
      · have hbehind : cursor.next.kind.isIdentifier = true ∧
            verbsThenBracket cursor.next.next.tokens = true := by
          simpa [hcolon] using hverbs
        obtain ⟨name, negative, hname⟩ := Token.Kind.eq_identifier hbehind.1
        have hread : identifier cursor.next =
            .accepted { name, negative, position := cursor.next.position } cursor.next.next := by
          simp only [identifier, hname]
        obtain ⟨hnone, hbracket⟩ := ih hbehind.2
        rw [many_of_start hcolon, listed, bind_of_accepted hread]
        refine ⟨fun error h => ?_, fun verbs rest h => ?_⟩
        · obtain h | ⟨others, after, -, h⟩ := bind_eq_rejected.1 h
          · exact hnone error h
          · cases h
        · obtain ⟨others, after, hothers, h⟩ := bind_eq_accepted.1 h
          cases h
          exact hbracket others _ hothers
      · rw [many_of_ne hcolon]
        refine ⟨fun error h => (by cases h), fun verbs rest h => ?_⟩
        cases h
        simpa [hcolon] using hverbs

section

variable (hlocal : Local SameStart Behind inner inner')
  (hinner : Prompt AtStatement EndsStatement inner inner')
include hlocal hinner

/-- What stands behind the verbs of a block. -/
theorem declared_expects (name : Identifier) (verbs : List Identifier) :
    Expects (Instead [.mark .leftBracket])
      [.mark .leftBracket, .mark .rightBracket, .mark .leftBrace, .mark .rightBrace]
      (fun cursor => cursor.kind = .mark .leftBracket) follow
      (do
        let arguments ← delimited .leftBracket .rightBracket identifier bound
        let openedAt ← expect (.mark .leftBrace)
        let init ← bodyAfter? .init inner bound
        let program ← bodyRest inner bound openedAt
        return @Statement.block name verbs arguments init program name.position)
      (do
        let arguments ← delimited .leftBracket .rightBracket identifier bound'
        let openedAt ← expect (.mark .leftBrace)
        let init ← bodyAfter? .init inner' bound'
        let program ← bodyRest inner' bound' openedAt
        return @Statement.block name verbs arguments init program name.position) := by
  have le : bound ≤ bound' := by omega
  have lt : bound < bound' := by omega
  have hargument : Local SameStart (fun _ => Stays fun kind => kind = .mark .comma) identifier
      identifier :=
    Local.name.mono (fun _ _ h => h) fun _ _ _ _ => trivial
  have hkept : Local SameStart (fun _ => Anywhere)
      (delimited .leftBracket .rightBracket identifier bound)
      (delimited .leftBracket .rightBracket identifier bound') :=
    .delimited le _ (by decide) (Local.name.mono (fun _ _ h => h) fun _ _ _ _ => trivial)
  have tells : ∀ {behind : View}, Tells InBody behind (.keyword .init) :=
    Begins.tells (by simp) (by simp)
  refine .bind (fun _ => Instead [.mark .leftBrace])
    (hkept.mono (fun _ _ h => .inl h.kind) fun _ _ _ _ => trivial)
    (delimited_expects _ _ lt (by simp) (by decide) (by decide) hargument
      (.identifier fun _ _ h => h) (by decide) fun _ _ => trivial) fun arguments =>
      .behind (.mark .leftBrace) nofun fun openedAt =>
        .bind (fun _ => InBody) (bodyAfter?_local le hlocal tells)
          (bodyAfter?_expects hlocal lt hinner tells fun left hleft => by simp [hleft]) fun init =>
            (bodyRest_expects hlocal lt hinner openedAt).map

theorem plainBlock_prompt (name : Identifier) (hverbs : verbsThenBracket cursor.tokens = true) :
    PromptAt cursor (fun _ left => verbsThenBracket left.tokens = true) follow
      (plainBlock inner name bound) (plainBlock inner' name bound') := by
  have le : bound ≤ bound' := by omega
  have hverb : Local SameStart (fun _ => Instead [.mark .leftBracket]) identifier identifier :=
    Local.name.mono (fun _ _ h => h) fun _ _ _ _ => trivial
  have hkept : LocalAt cursor (fun _ left => verbsThenBracket left.tokens = true)
      (fun _ _ left => left.kind = .mark .leftBracket) (many (.mark .colon) identifier bound)
      (many (.mark .colon) identifier bound') := by
    intro verbs rest hmany
    obtain ⟨taken, hcursor, hleft⟩ :=
      Local.many le (.mark .colon) nofun (Instead.tells (by simp)) hverb cursor verbs rest hmany
    refine ⟨taken, hcursor, fun left hbracket => ?_⟩
    have hread := (hleft left (.inr (by simp [hbracket]))).1
    exact ⟨hread, verbsThenBracket_of_many hread hbracket⟩
  intro error hread hcause
  obtain hreject | ⟨verbs, rest, hmany, -⟩ := bind_eq_rejected.1 hread
  · exact absurd hreject ((many_of_bracket hverbs).1 error)
  · have hbracket := (many_of_bracket hverbs).2 verbs rest hmany
    refine PromptAt.andThen hmany hkept ?_ error hread hcause
    refine ((declared_expects room hlocal hinner name verbs).prompt rest).widen _ fun left h => ?_
    rcases h with hsame | hfresh
    · exact hsame.symm.trans hbracket
    · exact List.mem_singleton.1 hfresh

/-- A block is declared behind its name. -/
def Declares (rest : Cursor) : Prop :=
  rest.kind = .keyword .implements ∨ verbsThenBracket rest.tokens = true

omit room hlocal hinner in
theorem startsBlock_iff :
    startsBlock cursor = true ↔ cursor.kind.isIdentifier = true ∧ Declares cursor.next := by
  simp [startsBlock_eq, Declares]

theorem block_prompt (hname : cursor.kind.isIdentifier = true) (hdeclares : Declares cursor.next) :
    PromptAt cursor (SameHead fun _ left => Declares left) EndsStatement (block inner bound)
      (block inner' bound') := by
  obtain ⟨name, negative, hkind⟩ := Token.Kind.eq_identifier hname
  have hread : identifier cursor =
      .accepted { name, negative, position := cursor.position } cursor.next := by
    simp only [identifier, hkind]
  refine .andThen hread (Local.identifier cursor) ?_
  by_cases himplements : cursor.next.kind = .keyword .implements
  · refine .widen (SameHead (Instead [Takes.anyName])) ?_ fun left h =>
      .inl (h.kind.symm.trans himplements)
    exact .step (by simp [himplements]) (bind_of_accepted (eat?_of_eq himplements))
      (fun left h => bind_of_accepted (eat?_of_eq (h.kind.symm.trans himplements)))
      ((implementing_expects room _).prompt _)
  · have hverbs := hdeclares.resolve_left himplements
    refine .widen (fun _ left => verbsThenBracket left.tokens = true) ?_ fun left h => .inr h
    refine (plainBlock_prompt room hlocal hinner _ hverbs).congr
      (bind_of_accepted (eat?_of_ne himplements)) fun left hleft => bind_of_accepted (eat?_of_ne ?_)
    intro h
    rw [verbsThenBracket_eq] at hleft
    simp [h] at hleft

end

end Blocks

/-! ## Statements that start with an expression -/

section

theorem afterTarget_of_equals (h : cursor.kind = .mark .equals) (target : Expression) :
    afterTarget target bound cursor = assignment target bound cursor.next := by
  rw [afterTarget, peek_bind, h]
  rfl

theorem afterTarget_of_change {op : QuantityOp} (h : cursor.kind = .quantity op)
    (target : Expression) : afterTarget target bound cursor = change op target bound cursor.next := by
  rw [afterTarget, peek_bind, h]
  rfl

theorem afterTarget_takes (target : Expression) :
    Takes (afterTarget target bound) [] [.quantity .increment] follow
      fun cursor => cursor.kind = .quantity .increment :=
  .token nofun fun token hkind => by
    refine ⟨@Statement.modify .increment target none target.position, fun left _ => ?_⟩
    have hchange : (left.prepend [token]).kind = .quantity .increment := hkind
    rw [afterTarget_of_change hchange]
    rfl

variable (room : bound + 2 ≤ bound')
include room

theorem assignment_prompt (target : Expression) :
    Prompt (Begins [anyOperand]) EndsStatement (assignment target bound)
      (assignment target bound') := by
  cases target with
  | reference name =>
      exact (value_expects room fun value => @Statement.assign name value name.position).prompt
  | _ =>
      intro cursor error hread hcause
      cases hread
      exact absurd rfl hcause

theorem change_prompt (op : QuantityOp) (target : Expression) :
    Prompt (Begins [anyOperand]) EndsStatement (change op target bound)
      (change op target bound') := by
  unfold change
  split
  · exact (value_expects room fun operand =>
      @Statement.modify op target (some operand) target.position).prompt
  · exact fun _ => .accepted rfl

/-- What is done to an expression stands behind it, if it is no effect. -/
theorem afterTarget_expects (target : Expression) :
    Expects PastExpression [.quantity .increment] EndsExpression EndsStatement
      (afterTarget target bound) (afterTarget target bound') where
  prompt := by
    intro cursor
    by_cases hequals : cursor.kind = .mark .equals
    · refine .widen (SameHead (Begins [anyOperand])) ?_ fun _ h => .of_kind h.kind
      exact .step (by simp [hequals]) (afterTarget_of_equals hequals target)
        (fun cursor' h => afterTarget_of_equals (h.kind.symm.trans hequals) target)
        (assignment_prompt room target cursor.next)
    · by_cases hchange : ∃ op, cursor.kind = .quantity op
      · obtain ⟨op, hchange⟩ := hchange
        refine .widen (SameHead (Begins [anyOperand])) ?_ fun _ h => .of_kind h.kind
        exact .step (by simp [hchange]) (afterTarget_of_change hchange target)
          (fun cursor' h => afterTarget_of_change (h.kind.symm.trans hchange) target)
          (change_prompt room op target cursor.next)
      · have hnone : ∀ op, cursor.kind ≠ .quantity op := fun op h => hchange ⟨op, h⟩
        cases heffect : isEffect target with
        | true => exact .accepted (by rw [afterTarget_of_ne hequals hnone, if_pos heffect])
        | false =>
            have hreject : ∀ (bound : Nat) (left : Cursor), left.kind = cursor.kind →
                afterTarget target bound left =
                  .rejected ⟨.unexpectedToken .change left.kind, left.position⟩ := by
              intro bound left hleft
              rw [afterTarget_of_ne (hleft ▸ hequals) (hleft ▸ hnone), heffect]
              rfl
            refine .reject (hreject _ _ rfl) (fun left hleft value after hread => ?_)
              (fun cursor' h => h.stays (by decide)) (afterTarget_takes target)
            cases (hreject _ _ hleft).symm.trans hread
  takes := (afterTarget_takes target).mono (fun _ h => h) fun _ h => .of_kind h rfl

theorem expressionStatement_prompt {before : View}
    (h : ExactAt cursor before (expression bound) (expression bound')) :
    PromptAt cursor before EndsStatement (expressionStatement bound)
      (expressionStatement bound') :=
  h.prompt.bind _ EndsExpression h.kept
    (fun target rest _ => (afterTarget_expects room target).prompt rest)
    ⟨_, fun target => (afterTarget_expects room target).takes⟩

end

/-! ## Statements -/

section

/-- What does not start a statement is rejected. -/
theorem statementOver_of_other (h : cursor.kind.startsStatement = false) :
    statementOver inner bound cursor =
      .rejected ⟨.unexpectedToken .statement cursor.kind, cursor.position⟩ := by
  rw [statementOver, here_bind, peek_bind]
  cases hkind : cursor.kind with
  | keyword word =>
      rewrite [hkind] at h
      cases word <;> first | (cases h; done) | rfl
  | mark sign =>
      rewrite [hkind] at h
      cases sign <;> first | (cases h; done) | rfl
  | _ =>
      rewrite [hkind] at h
      first | (cases h; done) | rfl

/-- What starts an expression and is no name starts a statement about that expression. -/
theorem statementOver_of_expression (h : cursor.kind.startsExpression = true)
    (noName : cursor.kind.isIdentifier = false) :
    statementOver inner bound cursor = expressionStatement bound cursor := by
  rw [statementOver, here_bind, peek_bind]
  cases hkind : cursor.kind with
  | identifier name negative => simp [hkind, Token.Kind.isIdentifier] at noName
  | mark sign =>
      rewrite [hkind] at h
      cases sign <;> first | (cases h; done) | rfl
  | _ =>
      rewrite [hkind] at h
      first | (cases h; done) | rfl

theorem statementOver_of_name (hname : cursor.kind.isIdentifier = true) :
    statementOver inner bound cursor =
      (if startsBlock cursor then block inner bound else expressionStatement bound) cursor := by
  obtain ⟨name, negative, hkind⟩ := Token.Kind.eq_identifier hname
  rw [statementOver, here_bind, peek_bind, hkind]
  exact standsAtBlock_bind _

/-- Where a name starts a call and no block, verbs that go on alike do not make it one. -/
theorem startsBlock_of_verbs {cursor' : Cursor} (h : SameHead Verbs cursor cursor')
    (hcall : startsCall cursor.kind (cursor.kindAt 1) = true) (noBlock : startsBlock cursor = false) :
    startsBlock cursor' = false := by
  obtain ⟨token, rest, rest', rfl, rfl, hverbs⟩ := h
  have hname := (startsCall_eq_true hcall).1
  have hgoes := (startsCall_eq_true hcall).2
  rw [startsBlock_eq] at noBlock ⊢
  simp only [Cursor.kindAt_one, Cursor.kind_prepend_singleton, Cursor.next_prepend_singleton]
    at hname hgoes noBlock ⊢
  have hapart : verbsThenBracket rest.tokens = false := by simp_all
  have hword : rest'.kind ≠ .keyword .implements := by
    rcases hverbs.kind with hsame | hfresh
    · intro hword
      rw [hsame, hword] at hgoes
      cases hgoes
    · simp [List.mem_singleton.1 hfresh]
  simp [hword, hverbs.apart hapart]

/-- Where a name starts no call, the kind of the token behind it tells whether it starts a block. -/
theorem startsBlock_of_second {cursor' : Cursor} (h : SameHead Anywhere cursor cursor')
    (hsecond : cursor'.kindAt 1 = cursor.kindAt 1) (hname : cursor.kind.isIdentifier = true)
    (noCall : startsCall cursor.kind (cursor.kindAt 1) = false) :
    startsBlock cursor' = startsBlock cursor := by
  obtain ⟨name, negative, hkind⟩ := Token.Kind.eq_identifier hname
  rw [Cursor.kindAt_one, Cursor.kindAt_one] at hsecond
  have noColon : cursor.next.kind ≠ .mark .colon := by
    intro hcolon
    rw [Cursor.kindAt_one, hkind, hcolon] at noCall
    cases noCall
  rw [startsBlock_eq, startsBlock_eq, verbsThenBracket_eq cursor'.next, verbsThenBracket_eq cursor.next,
    ← h.kind, hsecond]
  simp [noColon]

variable (room : bound + 2 ≤ bound')
include room

/-- What a name starts, if it is no block, is about an expression. -/
theorem reference_prompt (hname : cursor.kind.isIdentifier = true)
    (noBlock : startsBlock cursor = false) :
    PromptAt cursor (SameHead Anywhere) EndsStatement (statementOver inner bound)
      (statementOver inner' bound') := by
  have lt : bound < bound' := by omega
  have here : statementOver inner bound cursor = expressionStatement bound cursor := by
    rw [statementOver_of_name hname, noBlock]
    rfl
  have there : ∀ {cursor' : Cursor}, cursor.kind = cursor'.kind → startsBlock cursor' = false →
      statementOver inner' bound' cursor' = expressionStatement bound' cursor' := by
    intro cursor' hkind hstarts
    rw [statementOver_of_name (hkind ▸ hname), hstarts]
    rfl
  cases hcall : startsCall cursor.kind (cursor.kindAt 1) with
  | true =>
      have hexact : ExactAt cursor (SameHead Verbs) (expression bound) (expression bound') :=
        expression_exact (fun hlt => call_exact hlt (expression_local (Nat.le_of_lt hlt))
          (expression_prompt hlt) hcall) lt
      refine .widen (SameHead Verbs) ?_ fun _ h => h.mono fun _ _ _ => trivial
      refine (expressionStatement_prompt room hexact).congr here fun cursor' h => ?_
      exact there h.kind (startsBlock_of_verbs h hcall noBlock)
  | false =>
      have hexact : ExactAt cursor (SameHead Anywhere) (expression bound) (expression bound') :=
        expression_exact (fun _ => name_exact hname hcall) lt
      refine (expressionStatement_prompt room hexact).bySecond here (fun cursor' h hsecond => ?_) ?_
      · exact there h.kind ((startsBlock_of_second h hsecond hname hcall).trans noBlock)
      · intro cursor' value after h haccepted
        refine there h.kind ?_
        cases hstarts : startsBlock cursor' with
        | false => rfl
        | true => exact absurd haccepted (not_expressionStatement_of_startsBlock hstarts)

variable (hlocal : Local SameStart Behind inner inner')
  (hinner : Prompt AtStatement EndsStatement inner inner')
include hlocal hinner

/-- What a name starts is a block or an expression, and what is rejected in it does not change which. -/
theorem named_prompt (hname : cursor.kind.isIdentifier = true) :
    PromptAt cursor (SameHead Anywhere) EndsStatement (statementOver inner bound)
      (statementOver inner' bound') := by
  cases hstarts : startsBlock cursor with
  | false => exact reference_prompt room hname hstarts
  | true =>
      have hdeclares := (startsBlock_iff.1 hstarts).2
      refine .widen (SameHead fun _ left => Declares left) ?_ fun _ h => h.mono fun _ _ _ => trivial
      refine (block_prompt room hlocal hinner hname hdeclares).congr ?_ fun cursor' h => ?_
      · rw [statementOver_of_name hname, hstarts]
        rfl
      · have hstarts' : startsBlock cursor' = true := by
          obtain ⟨token, rest, rest', rfl, rfl, hdeclares'⟩ := h
          exact startsBlock_iff.2 ⟨hname, hdeclares'⟩
        rw [statementOver_of_name (h.kind ▸ hname), hstarts']
        rfl

omit room hlocal hinner in
/-- A statement is as prompt as what its first token says that it is. -/
theorem headed_prompt {kind : Token.Kind} {behind : View} (hkind : cursor.kind = kind)
    (reader : Parser Statement → Nat → Parser Statement)
    (reads : ∀ (inner : Parser Statement) (bound : Nat) (left : Cursor), left.kind = kind →
      statementOver inner bound left = reader inner bound left)
    (h : PromptAt cursor (SameHead behind) EndsStatement (reader inner bound)
      (reader inner' bound')) :
    PromptAt cursor (SameHead Anywhere) EndsStatement (statementOver inner bound)
      (statementOver inner' bound') := by
  refine .widen (SameHead behind) ?_ fun _ hhead => hhead.mono fun _ _ _ => trivial
  exact h.congr (reads _ _ _ hkind) fun _ hhead => reads _ _ _ (hhead.kind.symm.trans hkind)

/-- A statement that starts with a keyword is as prompt as what the keyword says. -/
theorem keyword_prompt {word : Keyword} (hkind : cursor.kind = .keyword word)
    (hstarts : (Token.Kind.keyword word).startsStatement = true) :
    PromptAt cursor (SameHead Anywhere) EndsStatement (statementOver inner bound)
      (statementOver inner' bound') := by
  cases word with
  | const =>
      exact headed_prompt hkind (fun _ => declaration .const)
        (fun _ _ _ h => by rw [statementOver, here_bind, peek_bind, h])
        (declaration_prompt room hkind .const)
  | «let» =>
      exact headed_prompt hkind (fun _ => declaration .let)
        (fun _ _ _ h => by rw [statementOver, here_bind, peek_bind, h])
        (declaration_prompt room hkind .let)
  | «return» =>
      exact headed_prompt hkind (fun _ => exit .return)
        (fun _ _ _ h => by rw [statementOver, here_bind, peek_bind, h]) (exit_prompt room hkind .return)
  | throw =>
      exact headed_prompt hkind (fun _ => exit .throw)
        (fun _ _ _ h => by rw [statementOver, here_bind, peek_bind, h]) (exit_prompt room hkind .throw)
  | «if» =>
      exact headed_prompt hkind branch (fun _ _ _ h => by rw [statementOver, here_bind, peek_bind, h])
        (branch_prompt room hlocal hinner hkind)
  | «while» =>
      exact headed_prompt hkind repeatWhile
        (fun _ _ _ h => by rw [statementOver, here_bind, peek_bind, h])
        (repeatWhile_prompt room hlocal hinner hkind)
  | «for» =>
      exact headed_prompt hkind repeatFor
        (fun _ _ _ h => by rw [statementOver, here_bind, peek_bind, h])
        (repeatFor_prompt room hlocal hinner hkind)
  | switch =>
      exact headed_prompt hkind switch (fun _ _ _ h => by rw [statementOver, here_bind, peek_bind, h])
        (switch_prompt room hlocal hinner hkind)
  | _ => cases hstarts

theorem statementOver_prompt :
    Prompt AtStatement EndsStatement (statementOver inner bound) (statementOver inner' bound') := by
  intro cursor
  have headed (h : PromptAt cursor (SameHead Anywhere) EndsStatement (statementOver inner bound)
      (statementOver inner' bound')) (noBrace : cursor.kind ≠ .mark .leftBrace) :
      PromptAt cursor AtStatement EndsStatement (statementOver inner bound)
        (statementOver inner' bound') :=
    .widen _ h fun _ hhead => hhead.begins_of_ne noBrace
  cases hstarts : cursor.kind.startsStatement with
  | false =>
      have noBrace : cursor.kind ≠ .mark .leftBrace := by
        intro hbrace
        rw [hbrace] at hstarts
        cases hstarts
      have htakes : Takes (statementOver inner' bound') [] [anyStatement] EndsStatement
          fun left => left.kind = anyStatement :=
        .token nofun fun token hkind => ⟨.comment "" token.position, fun left _ => by
          rw [statementOver, here_bind, peek_bind, Cursor.kind_prepend_singleton, hkind]
          rfl⟩
      refine .reject (statementOver_of_other hstarts) (fun left hleft value after hread => ?_)
        (fun _ hinstead => (Begins.of_instead hinstead (by simp) noBrace).mono (by simp)) htakes
      cases (statementOver_of_other (hleft ▸ hstarts)).symm.trans hread
  | true =>
      cases hexpression : cursor.kind.startsExpression with
      | true =>
          cases hname : cursor.kind.isIdentifier with
          | true =>
              obtain ⟨name, negative, hkind⟩ := Token.Kind.eq_identifier hname
              exact headed (named_prompt room hlocal hinner hname) (by simp [hkind])
          | false =>
              have hexact : ExactAt cursor (Begins [anyOperand]) (expression bound) (expression bound') :=
                ⟨(expression_local (by omega) cursor).widen _ fun _ h => h.begins,
                  expression_prompt (by omega) cursor⟩
              refine .widen (Begins [anyOperand]) ?_ fun _ h => h.mono (by simp)
              refine (expressionStatement_prompt room hexact).congr
                (statementOver_of_expression hexpression hname) fun cursor' h => ?_
              rcases h.kind with hsame | hfresh
              · exact statementOver_of_expression (hsame ▸ hexpression) (hsame ▸ hname)
              · have hoperand := List.mem_singleton.1 hfresh
                exact statementOver_of_expression (by rw [hoperand]; rfl) (by rw [hoperand]; rfl)
      | false =>
          cases hkind : cursor.kind with
          | keyword word =>
              exact headed (keyword_prompt room hlocal hinner hkind (hkind ▸ hstarts)) (by simp [hkind])
          | comment text =>
              have hread : statementOver inner bound cursor =
                  .accepted (.comment text cursor.position) cursor.next := by
                rw [statementOver, here_bind, peek_bind, hkind]
                rfl
              exact .accepted hread
          | _ => simp_all [Token.Kind.startsStatement]

end

end Statements

/-- What a statement rejects is the first token that is impossible in it. -/
theorem statement_prompt (room : bound + 2 ≤ bound') :
    Prompt AtStatement EndsStatement (statement bound) (statement bound') := by
  induction bound generalizing bound' with
  | zero => exact fun _ => .exhausted
  | succ bound ih =>
      obtain _ | bound' := bound'
      · omega
      · have hroom : bound + 2 ≤ bound' := by omega
        exact statementOver_prompt hroom (statement_local (by omega)) (ih hroom)

end Grammar
end Bir
