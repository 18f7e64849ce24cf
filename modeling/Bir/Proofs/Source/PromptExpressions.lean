import Bir.Proofs.Source.Prompt

/-!
# Expressions — where they are rejected

An operand may stand wherever something else is rejected in its place, so what is rejected within an
expression is the first token that is impossible there.  This file defines:

* `EndsExpression` — what follows does not go on with an expression;
* `ExactAt` and `Exact` — a level of expressions is read alike wherever it stands, and what it
  rejects is the first token that is impossible;
* `Verbs` and `Verb` — the views behind the name of a call and behind the colon of a verb.

A call and the declaration of a block both start with a name and verbs.  Where no block is declared,
none is either at a cursor in the view `Verbs`.
-/

namespace Bir
namespace Grammar

open Bir.Grammar.Parser

/-- What follows does not go on with an expression. -/
def EndsExpression (left : Cursor) : Prop := left.kind.continuesExpression = false

theorem EndsExpression.of_kind {left : Cursor} {kind : Token.Kind} (h : left.kind = kind)
    (ends : kind.continuesExpression = false) : EndsExpression left := by
  rw [EndsExpression, h]
  exact ends

/-- What starts with a token that does not go on with an expression may stand behind one. -/
theorem Parser.Expects.behindExpression {α : Type} {kind : Token.Kind} {kinds : List Token.Kind}
    {parser parser' : Parser α} (follow : Cursor → Prop)
    (h : Expects (Instead [kind]) kinds (fun cursor => cursor.kind = kind) follow parser parser')
    (ends : kind.continuesExpression = false) :
    Expects PastExpression kinds EndsExpression follow parser parser' := by
  refine h.mono (fun _ _ hinstead => hinstead.stays ?_) (fun _ hkind => .of_kind hkind ends)
    fun _ hfollow => hfollow
  intro kind hmem
  rwa [List.mem_singleton.1 hmem]

variable {bound bound' : Nat}

/-! ## Levels -/

/-- What is read at a cursor does not depend on what goes on with it, and what is rejected is the
first token that is impossible. -/
structure ExactAt (cursor : Cursor) (before : View) (level level' : Parser Expression) : Prop where
  kept : LocalAt cursor before (fun _ => PastExpression) level level'
  prompt : PromptAt cursor before EndsExpression level level'

/-- The same at all cursors. -/
def Exact (before : View) (level level' : Parser Expression) : Prop :=
  ∀ cursor, ExactAt cursor before level level'

section Levels

variable {join : Join} {operand operand' : Parser Expression} {before behind : View}
  {cursor : Cursor} (hoperand : Exact behind operand operand') (lt : bound < bound')

theorem Exact.kept (h : Exact before operand operand') :
    Local before (fun _ => PastExpression) operand operand' :=
  fun cursor => (h cursor).kept

/-- A level ends where nothing goes on with an expression. -/
theorem chainRest_takes (hjoin : join.Continues) (hbound : 0 < bound) (left : Expression) :
    Takes (chainRest join operand bound left) [] [] EndsExpression EndsExpression where
  endless := nofun
  reads more hmore := by
    obtain _ | bound := bound
    · omega
    · cases List.map_eq_nil_iff.1 hmore
      exact ⟨left, fun cursor hends => ⟨chainRest_stop bound left (hjoin _ hends), hends⟩⟩

/-- What follows the base of a power. -/
def powersRest (operand : Parser Expression) (bound : Nat) (base : Expression) :
    Parser Expression := do
  let kind ← peek
  if kind = .keyword .log then
    let position ← here
    skip
    return logarithm base position
  else
    match powerJoin kind with
    | some combine =>
      skip
      let right ← powers operand bound
      return combine base right
    | none => return base

section

variable {base : Expression}

theorem powersRest_log (h : cursor.kind = .keyword .log) :
    powersRest operand bound base cursor =
      .accepted (logarithm base cursor.position) cursor.next := by
  rw [powersRest, peek_bind, if_pos h]
  rfl

theorem powersRest_stop (noLog : cursor.kind ≠ .keyword .log) (h : powerJoin cursor.kind = none) :
    powersRest operand bound base cursor = .accepted base cursor := by
  rw [powersRest, peek_bind, if_neg noLog, h]
  rfl

theorem powersRest_step {combine : Expression → Expression → Expression}
    (noLog : cursor.kind ≠ .keyword .log) (h : powerJoin cursor.kind = some combine) :
    powersRest operand bound base cursor =
      (do
        let right ← powers operand bound
        return combine base right : Parser Expression) cursor.next := by
  rw [powersRest, peek_bind, if_neg noLog, h]
  rfl

theorem powersRest_takes (base : Expression) :
    Takes (powersRest operand bound base) [] [] EndsExpression EndsExpression where
  endless := nofun
  reads more hmore := by
    cases List.map_eq_nil_iff.1 hmore
    refine ⟨base, fun left hends => ?_⟩
    have noLog : left.kind ≠ .keyword .log := by
      intro hlog
      rw [EndsExpression, hlog] at hends
      cases hends
    exact ⟨powersRest_stop noLog (powerJoin_continues _ hends), hends⟩

end

include hoperand lt

theorem chainRest_prompt (hjoin : join.Continues) (left : Expression) :
    Prompt PastExpression EndsExpression (chainRest join operand bound left)
      (chainRest join operand' bound' left) := by
  induction bound generalizing bound' left with
  | zero => exact fun _ => .exhausted
  | succ bound ih =>
      obtain _ | bound' := bound'
      · omega
      · intro cursor
        cases hcombine : join cursor.kind with
        | none => exact .accepted (chainRest_stop bound left hcombine)
        | some combine =>
            have hlt := Nat.lt_of_succ_lt_succ lt
            refine .widen (SameHead behind) ?_ fun _ h => .of_kind h.kind
            refine .step (hjoin.ne_endOfFile hcombine) ?_ (fun cursor' hhead => ?_)
              (.bind (fun _ => PastExpression) EndsExpression (hoperand _).prompt (hoperand _).kept
                (fun right rest _ => ih hlt (combine left right) rest)
                ⟨[], fun right => chainRest_takes hjoin (Nat.zero_lt_of_lt hlt) (combine left right)⟩)
            · rw [chainRest, peek_bind, hcombine]
              rfl
            · rw [chainRest, peek_bind, ← hhead.kind, hcombine]
              rfl

variable (hfirst : ExactAt cursor before operand operand')
include hfirst

theorem chain_exact (hjoin : join.Continues) :
    ExactAt cursor before (chain join operand bound) (chain join operand' bound') where
  kept := chain_local hoperand.kept hfirst.kept hjoin (Nat.le_of_lt lt)
  prompt := hfirst.prompt.bind _ EndsExpression hfirst.kept
    (fun left rest _ => chainRest_prompt hoperand lt hjoin left rest)
    ⟨[], chainRest_takes hjoin (Nat.zero_lt_of_lt lt)⟩

theorem powers_exact :
    ExactAt cursor before (powers operand bound) (powers operand' bound') where
  kept := powers_local hoperand.kept hfirst.kept (Nat.le_of_lt lt)
  prompt := by
    induction bound generalizing bound' before cursor with
    | zero => exact .exhausted
    | succ bound ih =>
        obtain _ | bound' := bound'
        · omega
        · have hlt := Nat.lt_of_succ_lt_succ lt
          refine hfirst.prompt.bind _ EndsExpression hfirst.kept (fun base rest _ => ?_)
            ⟨[], powersRest_takes⟩
          by_cases hlog : rest.kind = .keyword .log
          · exact .accepted (powersRest_log hlog)
          · cases hcombine : powerJoin rest.kind with
            | none => exact .accepted (powersRest_stop hlog hcombine)
            | some combine =>
                have hright : PromptAt rest.next behind EndsExpression
                    (do
                      let right ← powers operand bound
                      return combine base right)
                    (do
                      let right ← powers operand' bound'
                      return combine base right) :=
                  (ih hlt (hoperand rest.next)).map
                refine .widen (SameHead behind) ?_ fun _ h => .of_kind h.kind
                refine .step (powerJoin_continues.ne_endOfFile hcombine)
                  (powersRest_step hlog hcombine) (fun cursor' hhead => ?_) hright
                exact powersRest_step (hhead.kind ▸ hlog) (hhead.kind ▸ hcombine)

end Levels

/-! ## Operands -/

section Operands

variable {inner inner' : Parser Expression} {follow : Cursor → Prop} {cursor cursor' : Cursor}

/-- The token that stands for an operand that is missing. -/
abbrev anyOperand : Token.Kind := .integer 0

theorem primary_takes :
    Takes (primary inner bound) [] [anyOperand] follow fun cursor => cursor.kind = anyOperand :=
  .token nofun fun token hkind => ⟨.integer 0 token.position, fun _ _ => primary_of_integer hkind⟩

section

variable (lt : bound < bound') (hlocal : Local SameStart (fun _ => PastExpression) inner inner')
  (hinner : Prompt (Begins [anyOperand]) EndsExpression inner inner')
include lt hlocal hinner

/-- Expressions between commas, in marks of some kind. -/
theorem delimited_expressions (opening closing : Mark) (noComma : closing ≠ .comma)
    (ends : (Token.Kind.mark closing).continuesExpression = false) :
    Expects (Instead [.mark opening]) [.mark opening, .mark closing]
      (fun cursor => cursor.kind = .mark opening) follow (delimited opening closing inner bound)
      (delimited opening closing inner' bound') := by
  have hitem : Local SameStart
      (fun _ => Stays fun kind => kind.continuesExpression || kind = .mark .comma) inner inner' :=
    hlocal.mono (fun _ _ h => h) fun _ _ _ h => h.mono fun _ hgoes => by simp [hgoes]
  exact delimited_expects opening closing lt (by simp) noComma (by simp [ends, noComma]) hitem
    (hinner.widen _ fun _ _ h => h.kind) (by simp) fun left hleft => .of_kind hleft ends

theorem callArguments_expects :
    Expects (Instead [.mark .leftParen]) [.mark .leftParen, .mark .rightParen]
      (fun cursor => cursor.kind = .mark .leftParen) follow (callArguments inner bound)
      (callArguments inner' bound') :=
  delimited_expressions lt hlocal hinner .leftParen .rightParen (by decide) rfl

omit lt in
/-- What stands in braces, up to the closing one. -/
theorem group_prompt (openedAt : Position) :
    Prompt (Begins [anyOperand]) follow
      (do
        let grouped ← inner
        expectClosing .leftBrace .rightBrace openedAt
        return grouped : Parser Expression)
      (do
        let grouped ← inner'
        expectClosing .leftBrace .rightBrace openedAt
        return grouped : Parser Expression) := by
  refine fun cursor => (hinner cursor).bind (fun _ => PastExpression) EndsExpression
    ((hlocal cursor).widen _ fun _ h => h.begins) (fun grouped rest _ => ?_)
    ⟨[.mark .rightBrace], fun grouped => ?_⟩
  · refine (Prompt.expectClosing _ _ _ (fun cursor cursor' _ h => h.stays ?_) rest).map
    simp [Token.Kind.continuesExpression]
  · exact (Takes.expectClosing _ _ _).map.mono (fun _ h => h) fun _ h => .of_kind h rfl

theorem primary_prompt :
    Prompt (Begins [anyOperand]) follow (primary inner bound) (primary inner' bound') := by
  intro cursor
  have hreject (noBrace : cursor.kind ≠ .mark .leftBrace)
      (h : ∀ (inner : Parser Expression) (bound : Nat) (left : Cursor), left.kind = cursor.kind →
        primary inner bound left = .rejected ⟨.expectedExpression left.kind, left.position⟩) :
      PromptAt cursor (Begins [anyOperand]) follow (primary inner bound) (primary inner' bound') :=
    .reject (h _ _ _ rfl) (fun left hleft value after hread => by cases (h _ _ _ hleft).symm.trans hread)
      (fun _ hinstead => .of_instead hinstead (by simp) noBrace) primary_takes
  cases hkind : cursor.kind with
  | integer value => exact .accepted (primary_of_integer hkind)
  | identifier name negative => exact .accepted (primary_of_name hkind)
  | mark sign =>
      cases sign with
      | leftBrace =>
          refine .widen (SameHead (Begins [anyOperand])) ?_ fun cursor' h =>
            (h.mono fun _ _ h => h.kind).begins (by simp [startsPopulate])
          refine .step (by simp [hkind]) (primary_of_group hkind) (fun cursor' hhead => ?_)
            (group_prompt hlocal hinner cursor.position cursor.next)
          rw [primary_of_group (hhead.kind.symm.trans hkind), hhead.position]
      | _ =>
          refine hreject (by simp [hkind]) fun inner bound left hleft => ?_
          rw [primary, here_bind, peek_bind, hleft, hkind]
          rfl
  | slot op =>
      have harguments : PromptAt cursor.next (Instead [.mark .leftParen]) follow
          (do
            let arguments ← callArguments inner bound
            return .slot op arguments cursor.position : Parser Expression)
          (do
            let arguments ← callArguments inner' bound'
            return .slot op arguments cursor.position : Parser Expression) :=
        (callArguments_expects lt hlocal hinner).prompt.map cursor.next
      refine .widen (SameHead (Instead [.mark .leftParen])) ?_ fun cursor' h =>
        h.begins_of_ne (by simp [hkind])
      refine .step (by simp [hkind]) (primary_of_slot hkind) (fun cursor' hhead => ?_) harguments
      rw [primary_of_slot (hhead.kind.symm.trans hkind), hhead.position]
  | _ =>
      refine hreject (by simp [hkind]) fun inner bound left hleft => ?_
      rw [primary, here_bind, peek_bind, hleft, hkind]
      rfl

end

/-! ## Calls -/

/-- Behind a name verbs go on alike, or arguments follow.  No bracket follows the verbs if none did. -/
structure Verbs (cursor cursor' : Cursor) : Prop where
  kind : Instead [.mark .leftParen] cursor cursor'
  apart : verbsThenBracket cursor.tokens = false → verbsThenBracket cursor'.tokens = false

/-- The same at a verb. -/
structure Verb (cursor cursor' : Cursor) : Prop where
  kind : Instead [anyOperand] cursor cursor'
  apart : cursor.kind.isIdentifier = true → verbsThenBracket cursor.next.tokens = false →
    verbsThenBracket cursor'.next.tokens = false

theorem Verbs.of_instead (h : Instead [.mark .leftParen] cursor cursor')
    (noColon : cursor.kind ≠ .mark .colon) : Verbs cursor cursor' where
  kind := h
  apart hnone := by
    rw [verbsThenBracket_eq] at hnone ⊢
    rcases h with hkind | hfresh
    · simpa [← hkind, noColon] using hnone
    · simp [List.mem_singleton.1 hfresh]

theorem Verb.of_instead (h : Instead [anyOperand] cursor cursor')
    (noName : cursor.kind.isIdentifier = false) : Verb cursor cursor' where
  kind := h
  apart hname := by
    rw [noName] at hname
    cases hname

theorem Verbs.tells : Tells Verbs Verb (.mark .colon) where
  among h hcolon := by
    rcases h.kind with hkind | hfresh
    · exact hkind.trans hcolon
    · cases hcolon.symm.trans (List.mem_singleton.1 hfresh)
  head := by
    rintro _ _ ⟨token, rest, rest', rfl, rfl, hverb⟩ hcolon
    refine ⟨.inl rfl, fun hnone => ?_⟩
    rw [Cursor.kind_prepend_singleton] at hcolon
    rw [verbsThenBracket_eq] at hnone ⊢
    simp only [Cursor.kind_prepend_singleton, Cursor.next_prepend_singleton, hcolon] at hnone ⊢
    cases hname : rest'.kind.isIdentifier with
    | false => simp
    | true =>
        have hsame : rest.kind = rest'.kind := by
          rcases hverb.kind with hkind | hfresh
          · exact hkind
          · rw [List.mem_singleton.1 hfresh] at hname
            cases hname
        have hbehind := hverb.apart (hsame ▸ hname)
        simp_all

section

variable (lt : bound < bound') (hlocal : Local SameStart (fun _ => PastExpression) inner inner')
  (hinner : Prompt (Begins [anyOperand]) EndsExpression inner inner')
include lt hlocal

theorem verb_local :
    Local Verb (fun _ => Verbs) (primary inner bound) (primary inner' bound') := by
  intro cursor
  cases hname : cursor.kind.isIdentifier with
  | true =>
      obtain ⟨name, negative, hkind⟩ := Token.Kind.eq_identifier hname
      have htake : LocalAt cursor (SameHead Verbs) (fun _ => Verbs) (primary inner bound)
          (primary inner' bound') :=
        .take (by simp [hkind]) (primary_of_name hkind) fun cursor' hhead => by
          rw [primary_of_name (hhead.kind.symm.trans hkind), hhead.position]
      refine htake.widen _ ?_
      rintro _ ⟨token, rest, rest', rfl, rfl, hverbs⟩
      exact ⟨.inl rfl, fun _ => hverbs.apart⟩
  | false =>
      refine (primary_local (Nat.le_of_lt lt) hlocal cursor).mono (fun cursor' h => ?_)
        fun _ _ _ _ => trivial
      exact .of_instead (.inl h.kind) hname

theorem verbs_local :
    Local Verbs (fun _ => Verbs) (many (.mark .colon) (primary inner bound) bound)
      (many (.mark .colon) (primary inner' bound') bound') :=
  .many (Nat.le_of_lt lt) _ nofun Verbs.tells (verb_local lt hlocal)

/-- Where arguments open, no verbs go on. -/
theorem callArguments_verbs :
    Local Verbs (fun _ => Anywhere) (callArguments inner bound) (callArguments inner' bound') := by
  intro cursor
  by_cases hopening : cursor.kind = .mark .leftParen
  · refine (callArguments_local (Nat.le_of_lt lt) hlocal cursor).widen _ fun cursor' h => ?_
    exact .of_instead (.inl h.kind) (by simp [hopening])
  · intro value rest hread
    obtain ⟨openedAt, middle, hexpect, -⟩ := bind_eq_accepted.1 hread
    exact absurd (expect_eq_accepted hexpect).1 hopening

theorem call_verbs :
    Local (SameHead Verbs) (fun _ => Anywhere) (call inner bound) (call inner' bound') :=
  Local.identifier.bind fun _ => (verbs_local lt hlocal).bind fun _ =>
    (callArguments_verbs lt hlocal).bind fun _ => .pure

include hinner

theorem verb_prompt :
    Prompt Verb follow (primary inner bound) (primary inner' bound') := by
  intro cursor
  cases hname : cursor.kind.isIdentifier with
  | true =>
      obtain ⟨name, negative, hkind⟩ := Token.Kind.eq_identifier hname
      exact .accepted (primary_of_name hkind)
  | false =>
      exact (primary_prompt lt hlocal hinner cursor).widen _ fun cursor' h =>
        .of_instead h.kind hname

theorem call_prompt (hname : cursor.kind.isIdentifier = true) :
    PromptAt cursor (SameHead Verbs) follow (call inner bound) (call inner' bound') := by
  obtain ⟨name, negative, hkind⟩ := Token.Kind.eq_identifier hname
  have hread : identifier cursor =
      .accepted { name, negative, position := cursor.position } cursor.next := by
    simp only [identifier, hkind]
  have hverbs : Prompt Verbs (fun left => left.kind = .mark .leftParen)
      (many (.mark .colon) (primary inner bound) bound)
      (many (.mark .colon) (primary inner' bound') bound') :=
    many_prompt lt (by simp) Verbs.tells (verb_local lt hlocal) (verb_prompt lt hlocal hinner)
      fun left hleft => ⟨by simp [hleft], trivial⟩
  refine .andThen hread (Local.identifier cursor) ?_
  refine (hverbs cursor.next).bind _ _ (verbs_local lt hlocal _) (fun verbs rest hmany => ?_)
    ⟨_, fun verbs => (callArguments_expects lt hlocal hinner).takes.map⟩
  refine ((callArguments_expects lt hlocal hinner).prompt.map rest).widen _ fun cursor' h => ?_
  exact .of_instead h (many_stops hmany)

end

/-! ## Operands and expressions -/

/-- Where verbs go on alike, a call still starts. -/
theorem startsCall_verbs (h : SameHead Verbs cursor cursor')
    (hcall : startsCall cursor.kind (cursor.kindAt 1) = true) :
    startsCall cursor'.kind (cursor'.kindAt 1) = true := by
  obtain ⟨token, rest, rest', rfl, rfl, hverbs⟩ := h
  simp only [Cursor.kindAt_one, Cursor.kind_prepend_singleton,
    Cursor.next_prepend_singleton] at hcall ⊢
  rcases hverbs.kind with hkind | hfresh
  · rwa [← hkind]
  · obtain ⟨name, negative, hname⟩ := Token.Kind.eq_identifier (startsCall_eq_true hcall).1
    rw [hname, List.mem_singleton.1 hfresh]
    rfl

section

variable (lt : bound < bound') (hlocal : Local SameStart (fun _ => PastExpression) inner inner')
  (hinner : Prompt (Begins [anyOperand]) EndsExpression inner inner')
include lt hlocal hinner

/-- What starts a call is read as one. -/
theorem call_exact (hcall : startsCall cursor.kind (cursor.kindAt 1) = true) :
    ExactAt cursor (SameHead Verbs) (operand inner bound) (operand inner' bound') where
  kept := by
    refine (call_verbs lt hlocal cursor).congr (operand_of_call hcall) (fun _ _ _ h _ => ?_)
      |>.mono (fun _ h => h) fun _ _ _ _ => trivial
    exact operand_of_call (startsCall_verbs h hcall)
  prompt := by
    refine (call_prompt lt hlocal hinner (startsCall_eq_true hcall).1).congr
      (operand_of_call hcall) fun cursor' h => ?_
    exact operand_of_call (startsCall_verbs h hcall)

omit lt hlocal hinner in
/-- A name that starts no call is an operand by itself. -/
theorem name_exact (hname : cursor.kind.isIdentifier = true)
    (noCall : startsCall cursor.kind (cursor.kindAt 1) = false) :
    ExactAt cursor (SameHead Anywhere) (operand inner bound) (operand inner' bound') where
  kept := by
    obtain ⟨name, negative, hkind⟩ := Token.Kind.eq_identifier hname
    have htake : LocalAt cursor (SameHead PastExpression) (fun _ => PastExpression)
        (primary inner bound) (primary inner' bound') :=
      .take (by simp [hkind]) (primary_of_name hkind) fun cursor' hhead => by
        rw [primary_of_name (hhead.kind.symm.trans hkind), hhead.position]
    refine .widen _ (htake.congr (operand_of_primary noCall (by simp [hkind])) ?_) fun _ h =>
      h.mono fun _ _ _ => trivial
    intro cursor' value rest hhead _
    exact operand_of_primary (startsCall_past hhead noCall) (by simp [← hhead.kind, hkind])
  prompt := by
    obtain ⟨name, negative, hkind⟩ := Token.Kind.eq_identifier hname
    refine .accepted ((operand_of_primary noCall ?_).trans (primary_of_name hkind))
    simp [hkind]

theorem operand_prompt :
    Prompt (Begins [anyOperand]) EndsExpression (operand inner bound) (operand inner' bound') := by
  intro cursor
  cases hcall : startsCall cursor.kind (cursor.kindAt 1) with
  | true =>
      obtain ⟨name, negative, hkind⟩ := Token.Kind.eq_identifier (startsCall_eq_true hcall).1
      exact (call_exact lt hlocal hinner hcall).prompt.widen _ fun _ h =>
        h.begins_of_ne (by simp [hkind])
  | false =>
      cases hkind : cursor.kind with
      | identifier name negative =>
          exact .accepted ((operand_of_primary hcall (by simp [hkind])).trans (primary_of_name hkind))
      | text text => exact .accepted (operand_of_text hkind)
      | _ =>
          refine (primary_prompt lt hlocal hinner cursor).congr
            (operand_of_primary hcall (by simp [hkind])) fun cursor' h => ?_
          rcases h.kind with hsame | hfresh
          · exact operand_of_primary (by rw [← hsame, hkind]; rfl) (by simp [← hsame, hkind])
          · have hoperand := List.mem_singleton.1 hfresh
            exact operand_of_primary (by rw [hoperand]; rfl) (by simp [hoperand])

theorem operand_exact : Exact (Begins [anyOperand]) (operand inner bound) (operand inner' bound') :=
  fun cursor => {
    kept := (operand_local (Nat.le_of_lt lt) hlocal cursor).widen _ fun _ h => h.begins
    prompt := operand_prompt lt hlocal hinner cursor }

/-- An expression is read and rejected as the operand is that it starts with. -/
theorem expressionOver_exact {before : View}
    (hfirst : ExactAt cursor before (operand inner bound) (operand inner' bound')) :
    ExactAt cursor before (expressionOver inner bound) (expressionOver inner' bound') := by
  have hoperands := operand_exact lt hlocal hinner
  have hpowers : Exact (Begins [anyOperand]) (powers (operand inner bound) bound)
      (powers (operand inner' bound') bound') :=
    fun cursor => powers_exact hoperands lt (hoperands cursor)
  have hproducts : Exact (Begins [anyOperand]) (chain productJoin _ bound)
      (chain productJoin _ bound') :=
    fun cursor => chain_exact hpowers lt (hpowers cursor) productJoin_continues
  have hsums : Exact (Begins [anyOperand]) (chain sumJoin _ bound) (chain sumJoin _ bound') :=
    fun cursor => chain_exact hproducts lt (hproducts cursor) sumJoin_continues
  have hpower := powers_exact hoperands lt hfirst
  have hproduct := chain_exact hpowers lt hpower productJoin_continues
  have hsum := chain_exact hproducts lt hproduct sumJoin_continues
  exact chain_exact hsums lt hsum conditionJoin_continues

end

end Operands

/-- What an expression rejects is the first token that is impossible in it. -/
theorem expression_prompt (lt : bound < bound') :
    Prompt (Begins [anyOperand]) EndsExpression (expression bound) (expression bound') := by
  induction bound generalizing bound' with
  | zero => exact fun _ => .exhausted
  | succ bound ih =>
      obtain _ | bound' := bound'
      · omega
      · intro cursor
        have hlt := Nat.lt_of_succ_lt_succ lt
        have hlocal := expression_local (Nat.le_of_lt hlt)
        exact (expressionOver_exact hlt hlocal (ih hlt)
          (operand_exact hlt hlocal (ih hlt) cursor)).prompt

/-- An expression is exact where the operand is that it starts with. -/
theorem expression_exact {cursor : Cursor} {before : View}
    (hfirst : ∀ {bound bound' : Nat}, bound < bound' →
      ExactAt cursor before (operand (fun cursor => expression bound cursor) bound)
        (operand (fun cursor => expression bound' cursor) bound'))
    (lt : bound < bound') : ExactAt cursor before (expression bound) (expression bound') := by
  obtain _ | bound := bound
  · exact ⟨.exhausted, .exhausted⟩
  · obtain _ | bound' := bound'
    · omega
    · have hlt := Nat.lt_of_succ_lt_succ lt
      exact expressionOver_exact hlt (expression_local (Nat.le_of_lt hlt)) (expression_prompt hlt)
        (hfirst hlt)

/-- An operand that nothing goes on with is an expression. -/
theorem expression_of_operand {cursor rest : Cursor} {value : Expression}
    (hoperand : operand (fun cursor => expression bound cursor) bound cursor = .accepted value rest)
    (hbound : 0 < bound) (hends : EndsExpression rest) :
    expression (bound + 1) cursor = .accepted value rest := by
  obtain _ | bound := bound
  · omega
  · exact chain_of_stop conditionJoin_continues (chain_of_stop sumJoin_continues
      (chain_of_stop productJoin_continues (powers_of_stop hoperand hends) hends) hends) hends

theorem expression_expects (room : bound + 2 ≤ bound') :
    Expects (Begins [anyOperand]) [anyOperand] (fun cursor => cursor.kind = anyOperand)
      EndsExpression (expression bound) (expression bound') where
  prompt := expression_prompt (by omega)
  takes := by
    obtain _ | _ | bound' := bound'
    · omega
    · omega
    · refine .token nofun fun token hkind => ⟨.integer 0 token.position, fun left hends => ?_⟩
      refine expression_of_operand ?_ (Nat.succ_pos bound') hends
      exact (operand_of_primary (by rw [Cursor.kind_prepend_singleton, hkind]; rfl)
        (by simp [hkind])).trans (primary_of_integer hkind)

end Grammar
end Bir
