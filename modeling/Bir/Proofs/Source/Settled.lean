import Bir.Proofs.Source.Follow

/-!
# Bounds — one above the number of tokens is as good as any other

Each turn of a loop and each nesting takes a token before the next one, so a parser whose bound is
above the number of tokens that are left never exhausts it, and a greater bound changes nothing.
This file defines:

* `Parser.SettledAt cursor least parser parser'` — at a cursor, `parser` ends, takes `least` tokens
  if it accepts, and does what `parser'` does;
* `Parser.Settled room least parser parser'` — so it is wherever fewer than `room` tokens are left.

There is one rule for each step, loop and enclosure, and one lemma for each production of the
grammar.  `program_settled` is what this is for.
-/

namespace Bir
namespace Grammar

namespace Parser

variable {α β : Type}

/-- At a cursor, a parser ends, takes some tokens at least if it accepts, and does what another
parser does. -/
structure SettledAt (cursor : Cursor) (least : Nat) (parser parser' : Parser α) : Prop where
  same : parser' cursor = parser cursor
  takes : ∀ value rest, parser cursor = .accepted value rest →
    rest.tokens.length + least ≤ cursor.tokens.length
  ends : parser cursor ≠ .exhausted

/-- Where fewer than `room` tokens are left, a parser is settled. -/
def Settled (room least : Nat) (parser parser' : Parser α) : Prop :=
  ∀ cursor : Cursor, cursor.tokens.length < room → SettledAt cursor least parser parser'

theorem length_next {cursor : Cursor} (some' : cursor.kind ≠ .endOfFile) :
    cursor.next.tokens.length + 1 ≤ cursor.tokens.length := by
  obtain ⟨token, hcursor⟩ := Cursor.eq_prepend_next some'
  rw [hcursor]
  exact Nat.le_refl _

namespace SettledAt

variable {cursor : Cursor} {least : Nat} {parser parser' : Parser α}

theorem weaken (h : SettledAt cursor least parser parser') :
    SettledAt cursor 0 parser parser' where
  same := h.same
  takes value rest hread := by
    have := h.takes value rest hread
    omega
  ends := h.ends

theorem accepts {value : α} {rest : Cursor} (h : parser cursor = .accepted value rest)
    (h' : parser' cursor = .accepted value rest)
    (takes : rest.tokens.length + least ≤ cursor.tokens.length) :
    SettledAt cursor least parser parser' where
  same := h'.trans h.symm
  takes _ _ hread := by
    cases h.symm.trans hread
    exact takes
  ends hread := by cases h.symm.trans hread

theorem rejects {error : SyntaxError} (h : parser cursor = .rejected error)
    (h' : parser' cursor = .rejected error) : SettledAt cursor least parser parser' where
  same := h'.trans h.symm
  takes _ _ hread := by cases h.symm.trans hread
  ends hread := by cases h.symm.trans hread

theorem congr {reader reader' : Parser α} (h : SettledAt cursor least reader reader')
    (here : parser cursor = reader cursor) (there : parser' cursor = reader' cursor) :
    SettledAt cursor least parser parser' where
  same := by rw [here, there, h.same]
  takes value rest hread := h.takes value rest (here ▸ hread)
  ends hread := h.ends (here ▸ hread)

theorem pure {value : α} : SettledAt cursor 0 (pure value) (pure value) :=
  accepts rfl rfl (Nat.le_refl _)

/-- A sequence takes at least what its first part takes. -/
theorem bind {next next' : α → Parser β}
    (hfirst : SettledAt cursor least parser parser')
    (hnext : ∀ value rest, parser cursor = .accepted value rest →
      rest.tokens.length + least ≤ cursor.tokens.length →
        SettledAt rest 0 (next value) (next' value)) :
    SettledAt cursor least (parser >>= next) (parser' >>= next') := by
  have hsame := hfirst.same
  cases hread : parser cursor with
  | exhausted => exact absurd hread hfirst.ends
  | rejected error =>
      rw [hread] at hsame
      exact rejects (bind_of_rejected hread) (bind_of_rejected hsame)
  | accepted value rest =>
      rw [hread] at hsame
      have htakes := hfirst.takes value rest hread
      have hrest := hnext value rest hread htakes
      have hwhole : SettledAt cursor least (fun _ => next value rest)
          (fun _ => next' value rest) := by
        refine ⟨hrest.same, fun value' rest' hread' => ?_, hrest.ends⟩
        have := hrest.takes value' rest' hread'
        omega
      exact hwhole.congr (bind_of_accepted hread) (bind_of_accepted hsame)

theorem andThen {next next' : α → Parser β} (hfirst : SettledAt cursor least parser parser')
    (hnext : ∀ value rest, parser cursor = .accepted value rest →
      rest.tokens.length + least ≤ cursor.tokens.length →
        SettledAt rest 0 (next value) (next' value)) :
    SettledAt cursor 0 (parser >>= next) (parser' >>= next') :=
  (hfirst.bind hnext).weaken

theorem peek {next next' : Token.Kind → Parser α}
    (h : SettledAt cursor least (next cursor.kind) (next' cursor.kind)) :
    SettledAt cursor least (Parser.peek >>= next) (Parser.peek >>= next') :=
  h.congr rfl rfl

theorem here {next next' : Position → Parser α}
    (h : SettledAt cursor least (next cursor.position) (next' cursor.position)) :
    SettledAt cursor least (Parser.here >>= next) (Parser.here >>= next') :=
  h.congr rfl rfl

theorem skip (some' : cursor.kind ≠ .endOfFile) : SettledAt cursor 1 Parser.skip Parser.skip :=
  accepts rfl rfl (length_next some')

theorem eat (kind : Token.Kind) (h : cursor.kind = kind) (some' : kind ≠ .endOfFile) :
    SettledAt cursor 1 (eat? kind) (eat? kind) :=
  accepts (eat?_of_eq h) (eat?_of_eq h) (length_next (h ▸ some'))

theorem expect (kind : Token.Kind) (some' : kind ≠ .endOfFile) :
    SettledAt cursor 1 (Parser.expect kind) (Parser.expect kind) := by
  by_cases hkind : cursor.kind = kind
  · have hread : Parser.expect kind cursor = .accepted cursor.position cursor.next := if_pos hkind
    exact accepts hread hread (length_next (hkind ▸ some'))
  · have hread : Parser.expect kind cursor =
        .rejected ⟨.unexpectedToken (.token kind) cursor.kind, cursor.position⟩ := if_neg hkind
    exact rejects hread hread

theorem expectClosing (opening closing : Mark) (openedAt : Position) :
    SettledAt cursor 1 (Parser.expectClosing opening closing openedAt)
      (Parser.expectClosing opening closing openedAt) := by
  refine ⟨rfl, fun value rest hread => ?_, fun hread => ?_⟩
  · unfold Parser.expectClosing at hread
    split at hread
    · cases hread
    · rename_i hend
      split at hread <;> cases hread
      exact length_next hend
  · unfold Parser.expectClosing at hread
    split at hread
    · cases hread
    · split at hread <;> cases hread

theorem identifier : SettledAt cursor 1 Parser.identifier Parser.identifier := by
  refine ⟨rfl, fun value rest hread => ?_, fun hread => ?_⟩
  · obtain ⟨hname, rfl⟩ := identifier_eq_accepted hread
    obtain ⟨name, negative, hkind⟩ := Token.Kind.eq_identifier hname
    exact length_next (by rw [hkind]; nofun)
  · unfold Parser.identifier at hread
    split at hread <;> cases hread

end SettledAt

/-! ## Loops -/

section

variable {item item' : Parser α} {bound bound' room least : Nat} (le : bound ≤ bound')
include le

theorem many_settled (start : Token.Kind) (some' : start ≠ .endOfFile)
    (hitem : Settled room least item item') (cursor : Cursor)
    (hroom : cursor.tokens.length < room) (hbound : cursor.tokens.length < bound) :
    SettledAt cursor 0 (many start item bound) (many start item' bound') := by
  induction bound generalizing bound' cursor with
  | zero => omega
  | succ bound ih =>
      obtain _ | bound' := bound'
      · omega
      · by_cases hstart : cursor.kind = start
        · refine .andThen (.eat start hstart some') fun found after hread hafter => ?_
          cases (eat?_of_eq hstart).symm.trans hread
          refine .andThen (hitem _ (by omega)) fun first rest _ hrest => ?_
          exact .bind (ih (by omega) rest (by omega) (by omega)) fun others _ _ _ => .pure
        · exact .accepts (bind_of_accepted (eat?_of_ne hstart))
            (bind_of_accepted (eat?_of_ne hstart)) (Nat.le_refl _)

theorem separated_settled (closing : Mark) (hitem : Settled room least item item')
    (hbound : room ≤ bound) : 
    Settled room 0 (separated closing item bound) (separated closing item' bound') := by
  refine fun cursor hroom => .peek ?_
  split
  · exact .pure
  · refine .andThen (hitem cursor hroom) fun first rest _ hrest => ?_
    have hmany := many_settled le (.mark .comma) nofun hitem rest (by omega) (by omega)
    exact .bind hmany fun others _ _ _ => .pure

theorem delimited_settled (opening closing : Mark) (hitem : Settled room least item item')
    (hbound : room ≤ bound) :
    Settled room 1 (delimited opening closing item bound)
      (delimited opening closing item' bound') := by
  refine fun cursor hroom => .bind (.expect _ nofun) fun openedAt rest _ hrest => ?_
  refine .bind (separated_settled le closing hitem hbound rest (by omega)) fun items _ _ _ => ?_
  exact .andThen (.expectClosing _ _ _) fun _ _ _ _ => .pure

end

end Parser

open Bir.Grammar.Parser

/-! ## Expressions -/

section

variable {bound bound' room : Nat} (le : bound ≤ bound')
include le

section Levels

variable {join : Join} {operand operand' : Parser Expression}
  (hoperand : Settled room 1 operand operand')
include hoperand

theorem chainRest_settled (hjoin : join.Continues) {cursor : Cursor}
    (hroom : cursor.tokens.length < room) (hbound : cursor.tokens.length < bound)
    (left : Expression) :
    SettledAt cursor 0 (chainRest join operand bound left)
      (chainRest join operand' bound' left) := by
  induction bound generalizing bound' cursor left with
  | zero => omega
  | succ bound ih =>
      obtain _ | bound' := bound'
      · omega
      · refine .peek ?_
        cases hcombine : join cursor.kind with
        | none => exact .pure
        | some combine =>
            have some' : cursor.kind ≠ .endOfFile := by
              intro hend
              rw [hend, hjoin .endOfFile rfl] at hcombine
              cases hcombine
            refine .andThen (.skip some') fun _ after hskip hafter => ?_
            refine .andThen (hoperand after (by omega)) fun right rest _ hrest => ?_
            exact ih (by omega) (by omega) (by omega) (combine left right)

theorem chain_settled (hjoin : join.Continues) (hbound : room ≤ bound) :
    Settled room 1 (chain join operand bound) (chain join operand' bound') := by
  refine fun cursor hroom => .bind (hoperand cursor hroom) fun left rest _ hrest => ?_
  exact chainRest_settled le hoperand hjoin (by omega) (by omega) left

theorem powers_settled {cursor : Cursor} (hroom : cursor.tokens.length < room)
    (hbound : cursor.tokens.length < bound) :
    SettledAt cursor 1 (powers operand bound) (powers operand' bound') := by
  induction bound generalizing bound' cursor with
  | zero => omega
  | succ bound ih =>
      obtain _ | bound' := bound'
      · omega
      · refine .bind (hoperand cursor hroom) fun base rest _ hrest => .peek ?_
        split
        · rename_i hlog
          refine .here (.andThen (.skip ?_) fun _ _ _ _ => .pure)
          rw [hlog]
          nofun
        · cases hcombine : powerJoin rest.kind with
          | none => exact .pure
          | some combine =>
              have some' : rest.kind ≠ .endOfFile := by
                intro hend
                rw [hend] at hcombine
                cases hcombine
              refine .andThen (.skip some') fun _ after _ hafter => ?_
              exact .andThen (ih (by omega) (by omega) (by omega)) fun _ _ _ _ => .pure

end Levels

section Operands

variable {inner inner' : Parser Expression} (hinner : Settled room 1 inner inner')
include hinner

theorem primary_settled (hbound : room ≤ bound) :
    Settled (room + 1) 1 (primary inner bound) (primary inner' bound') := by
  refine fun cursor hroom => .here (.peek ?_)
  cases hkind : cursor.kind with
  | integer value => exact .bind (.skip (by simp [hkind])) fun _ _ _ _ => .pure
  | identifier name negative => exact .bind (.skip (by simp [hkind])) fun _ _ _ _ => .pure
  | mark sign =>
      cases sign with
      | leftBrace =>
          refine .bind (.skip (by simp [hkind])) fun _ after _ hafter => ?_
          refine .andThen (hinner after (by omega)) fun grouped _ _ _ => ?_
          exact .andThen (.expectClosing _ _ _) fun _ _ _ _ => .pure
      | _ => exact .rejects rfl rfl
  | slot op =>
      refine .bind (.skip (by simp [hkind])) fun _ after _ hafter => ?_
      have harguments := delimited_settled le .leftParen .rightParen hinner hbound
      exact .andThen (harguments after (by omega)) fun _ _ _ _ => .pure
  | _ => exact .rejects rfl rfl

theorem call_settled (hbound : room ≤ bound) :
    Settled (room + 1) 1 (call inner bound) (call inner' bound') := by
  refine fun cursor hroom => .bind .identifier fun name after _ hafter => ?_
  have hmany := many_settled le (.mark .colon) nofun (primary_settled le hinner hbound) after
    (by omega) (by omega)
  refine .bind hmany fun verbs rest _ hrest => ?_
  have harguments := delimited_settled le .leftParen .rightParen hinner hbound
  exact .andThen (harguments rest (by omega)) fun _ _ _ _ => .pure

theorem operand_settled (hbound : room ≤ bound) :
    Settled (room + 1) 1 (operand inner bound) (operand inner' bound') := by
  intro cursor hroom
  cases hcall : startsCall cursor.kind (cursor.kindAt 1) with
  | true =>
      exact (call_settled le hinner hbound cursor hroom).congr (operand_of_call hcall)
        (operand_of_call hcall)
  | false =>
      by_cases htext : ∃ text, cursor.kind = .text text
      · obtain ⟨text, htext⟩ := htext
        refine SettledAt.congr (.here (.bind (.skip (by simp [htext])) fun _ _ _ _ => .pure))
          (operand_of_text htext) (operand_of_text htext)
      · have noText : ∀ text, cursor.kind ≠ .text text := fun text h => htext ⟨text, h⟩
        exact (primary_settled le hinner hbound cursor hroom).congr (operand_of_primary hcall noText)
          (operand_of_primary hcall noText)

end Operands

/-- Under a bound above the number of tokens, an expression is read as under any greater one. -/
theorem expression_settled (hbound : room < bound) :
    Settled room 1 (expression bound) (expression bound') := by
  induction bound generalizing bound' room with
  | zero => omega
  | succ bound ih =>
      obtain _ | bound' := bound'
      · omega
      · obtain _ | room := room
        · exact fun cursor hroom => by omega
        · have le' := Nat.le_of_succ_le_succ le
          have hroom := Nat.lt_of_succ_lt_succ hbound
          have hoperand := operand_settled le' (ih le' hroom) (Nat.le_of_lt hroom)
          have hpowers : Settled (room + 1) 1 (powers (operand (expression bound) bound) bound)
              (powers (operand (expression bound') bound') bound') :=
            fun cursor hcursor => powers_settled le' hoperand hcursor (by omega)
          have hproducts := chain_settled le' hpowers productJoin_continues hroom
          have hsums := chain_settled le' hproducts sumJoin_continues hroom
          exact chain_settled le' hsums conditionJoin_continues hroom

/-! ## Bodies -/

section Statements

variable {inner inner' : Parser Statement} (hinner : Settled room 1 inner inner')
  (hbound : room < bound)

section Bodies

include hinner hbound

theorem statementsUntilClose_settled :
    Settled room 0 (statementsUntilClose inner bound) (statementsUntilClose inner' bound') := by
  have hloop : ∀ {turns turns'}, turns ≤ turns' → ∀ cursor : Cursor,
      cursor.tokens.length < room → cursor.tokens.length < turns →
        SettledAt cursor 0 (statementsUntilClose inner turns)
          (statementsUntilClose inner' turns') := by
    intro turns
    induction turns with
    | zero => 
        intro turns' _ cursor _ h
        omega
    | succ turns ih => 
        intro turns' le cursor hroom hturns
        obtain _ | turns' := turns'
        · omega
        · refine .peek ?_
          split
          · exact .pure
          · refine .andThen (hinner cursor hroom) fun first rest _ hrest => ?_
            exact .bind (ih (by omega) rest (by omega) (by omega)) fun others _ _ _ => .pure
  exact fun cursor hroom => hloop le cursor hroom (by omega)

theorem bodyRest_settled (openedAt : Position) :
    Settled room 0 (bodyRest inner bound openedAt) (bodyRest inner' bound' openedAt) := by
  intro cursor hroom
  refine .bind (statementsUntilClose_settled le hinner hbound cursor hroom) fun statements _ _ _ => ?_
  exact .andThen (.expectClosing _ _ _) fun _ _ _ _ => .pure

theorem body_settled : Settled room 1 (body inner bound) (body inner' bound') := by
  refine fun cursor hroom => .bind (.expect _ nofun) fun openedAt rest _ hrest => ?_
  exact bodyRest_settled le hinner hbound openedAt rest (by omega)

theorem bodyAfter?_settled (word : Keyword) :
    Settled room 0 (bodyAfter? word inner bound) (bodyAfter? word inner' bound') := by
  intro cursor hroom
  by_cases hword : cursor.kind = .keyword word
  · refine .andThen (.eat _ hword nofun) fun found rest hread hrest => ?_
    cases (eat?_of_eq hword).symm.trans hread
    exact .andThen (body_settled le hinner hbound _ (by omega)) fun _ _ _ _ => .pure
  · exact .accepts (bind_of_accepted (eat?_of_ne hword)) (bind_of_accepted (eat?_of_ne hword))
      (Nat.le_refl _)

theorem arm_settled : Settled room 1 (arm inner bound) (arm inner' bound') := by
  refine fun cursor hroom => .bind (expression_settled le hbound cursor hroom) fun test rest _ hrest => ?_
  exact .andThen (body_settled le hinner hbound rest (by omega)) fun _ _ _ _ => .pure

end Bodies

/-! ## Statements -/

section Keywords

variable {cursor : Cursor} {word : Keyword} (hword : cursor.kind = .keyword word)
  (hroom : cursor.tokens.length < room + 1)
include hbound hword hroom

theorem declaration_settled (kind : BindingKind) :
    SettledAt cursor 1 (declaration kind bound) (declaration kind bound') := by
  refine .here (.bind (.skip (by simp [hword])) fun _ after _ hafter => ?_)
  refine .andThen .identifier fun name rest _ hrest => ?_
  refine .andThen (.expect _ nofun) fun _ rest' _ hrest' => ?_
  exact .andThen (expression_settled le hbound rest' (by omega)) fun _ _ _ _ => .pure

theorem exit_settled (way : Exit) : SettledAt cursor 1 (exit way bound) (exit way bound') := by
  refine .here (.bind (.skip (by simp [hword])) fun _ after _ hafter => ?_)
  exact .andThen (expression_settled le hbound after (by omega)) fun _ _ _ _ => .pure

end Keywords

section

include hinner hbound

theorem branch_settled : Settled (room + 1) 1 (branch inner bound) (branch inner' bound') := by
  have harm := arm_settled le hinner hbound
  refine fun cursor hroom => .bind (.expect _ nofun) fun keyword after _ hafter => ?_
  refine .andThen (harm after (by omega)) fun (condition, statements) rest _ hrest => ?_
  have helifs := many_settled le (.keyword .elif) nofun harm rest (by omega) (by omega)
  refine .bind helifs fun elifs rest' _ hrest' => ?_
  exact .bind (bodyAfter?_settled le hinner hbound .else rest' (by omega)) fun _ _ _ _ => .pure

theorem repeatWhile_settled :
    Settled (room + 1) 1 (repeatWhile inner bound) (repeatWhile inner' bound') := by
  refine fun cursor hroom => .bind (.expect _ nofun) fun keyword after _ hafter => ?_
  exact .andThen (arm_settled le hinner hbound after (by omega)) fun _ _ _ _ => .pure

theorem repeatFor_settled : Settled (room + 1) 1 (repeatFor inner bound) (repeatFor inner' bound') := by
  refine fun cursor hroom => .bind (.expect _ nofun) fun keyword after _ hafter => ?_
  refine .andThen (expression_settled le hbound after (by omega)) fun count rest _ hrest => ?_
  refine .andThen (.expect _ nofun) fun _ rest' _ hrest' => ?_
  refine .andThen .identifier fun placeholder rest'' _ hrest'' => ?_
  exact .andThen (body_settled le hinner hbound rest'' (by omega)) fun _ _ _ _ => .pure

theorem switch_settled : Settled (room + 1) 1 (switch inner bound) (switch inner' bound') := by
  refine fun cursor hroom => .bind (.expect _ nofun) fun keyword after _ hafter => ?_
  refine .andThen (expression_settled le hbound after (by omega)) fun condition rest _ hrest => ?_
  refine .andThen (.expect _ nofun) fun openedAt opened _ hopened => ?_
  have hcases := many_settled le (.keyword .case) nofun (arm_settled le hinner hbound) opened
    (by omega) (by omega)
  refine .bind hcases fun cases rest' _ hrest' => ?_
  refine .bind (bodyAfter?_settled le hinner hbound .default rest' (by omega)) fun _ _ _ _ => ?_
  exact .andThen (.expectClosing _ _ _) fun _ _ _ _ => .pure

omit hinner in
theorem populateSource_settled : Settled room 0 (populateSource bound) (populateSource bound') := by
  refine fun cursor hroom => .peek ?_
  split
  · rename_i hkind
    exact .andThen (.skip (by simp [hkind])) fun _ _ _ _ => .pure
  · have helements := delimited_settled le .leftBracket .rightBracket
      (expression_settled le hbound) (Nat.le_of_lt hbound)
    exact .andThen (helements cursor hroom) fun _ _ _ _ => .pure

omit hinner in
theorem populate?_settled : Settled room 0 (populate? bound) (populate? bound') := by
  intro cursor hroom
  cases hseeds : cursor.seeds with
  | true =>
      have hseeding : SettledAt cursor 0 (seeding bound) (seeding bound') := by
        refine .andThen (.expect _ nofun) fun openedAt rest _ hrest => ?_
        refine .andThen (populateSource_settled le hbound rest (by omega)) fun source _ _ _ => ?_
        exact .andThen (.expectClosing _ _ _) fun _ _ _ _ => .pure
      exact hseeding.congr (by rw [populate?_eq, if_pos hseeds]) (by rw [populate?_eq, if_pos hseeds])
  | false =>
      have hnone : ∀ bound, populate? bound cursor = .accepted none cursor := fun bound => by
        rw [populate?_eq, hseeds]
        rfl
      exact .accepts (hnone bound) (hnone bound') (Nat.le_refl _)

omit hinner in
theorem implementing_settled (name : Identifier) :
    Settled room 0 (implementing name bound) (implementing name bound') := by
  refine fun cursor hroom => .andThen .identifier fun parent rest _ hrest => ?_
  exact .andThen (populate?_settled le hbound rest (by omega)) fun _ _ _ _ => .pure

theorem plainBlock_settled (name : Identifier) :
    Settled room 0 (plainBlock inner name bound) (plainBlock inner' name bound') := by
  intro cursor hroom
  have hnames : Settled room 1 identifier identifier := fun _ _ => .identifier
  refine .andThen (many_settled le (.mark .colon) nofun hnames cursor hroom (by omega)) ?_
  intro verbs afterVerbs _ hverbs
  have harguments := delimited_settled le .leftBracket .rightBracket hnames (Nat.le_of_lt hbound)
  refine .andThen (harguments afterVerbs (by omega)) fun arguments rest _ hrest => ?_
  refine .andThen (.expect _ nofun) fun openedAt opened _ hopened => ?_
  refine .andThen (bodyAfter?_settled le hinner hbound .init opened (by omega)) ?_
  intro init afterInit _ hinit
  have hprogram := bodyRest_settled le hinner hbound openedAt
  exact .andThen (hprogram afterInit (by omega)) fun _ _ _ _ => .pure

theorem block_settled : Settled (room + 1) 1 (block inner bound) (block inner' bound') := by
  refine fun cursor hroom => .bind .identifier fun name after _ hafter => ?_
  by_cases himplements : after.kind = .keyword .implements
  · refine .andThen (.eat _ himplements nofun) fun found rest hread hrest => ?_
    cases (eat?_of_eq himplements).symm.trans hread
    exact implementing_settled le hbound name _ (by omega)
  · have hfound := eat?_of_ne himplements
    exact (plainBlock_settled le hinner hbound name after (by omega)).congr
      (bind_of_accepted hfound) (bind_of_accepted hfound)

omit hinner in
theorem afterTarget_settled (target : Expression) :
    Settled room 0 (afterTarget target bound) (afterTarget target bound') := by
  refine fun cursor hroom => .peek ?_
  split
  · rename_i hkind
    refine .andThen (.skip (by simp [hkind])) fun _ rest _ hrest => ?_
    cases target with
    | reference name =>
        exact .andThen (expression_settled le hbound rest (by omega)) fun _ _ _ _ => .pure
    | _ => exact .rejects rfl rfl
  · rename_i op hkind
    refine .andThen (.skip (by simp [hkind])) fun _ rest _ hrest => ?_
    unfold change
    split
    · exact .andThen (expression_settled le hbound rest (by omega)) fun _ _ _ _ => .pure
    · exact .pure
  · split
    · exact .pure
    · exact .rejects rfl rfl

omit hinner in
theorem expressionStatement_settled :
    Settled room 1 (expressionStatement bound) (expressionStatement bound') := by
  refine fun cursor hroom => .bind (expression_settled le hbound cursor hroom) ?_
  exact fun target rest _ hrest => afterTarget_settled le hbound target rest (by omega)

theorem statementOver_settled (hbound' : room + 1 < bound) :
    Settled (room + 1) 1 (statementOver inner bound) (statementOver inner' bound') := by
  refine fun cursor hroom => .here (.peek ?_)
  split
  · rename_i hkind
    exact declaration_settled le hbound hkind hroom .const
  · rename_i hkind
    exact declaration_settled le hbound hkind hroom .let
  · exact branch_settled le hinner hbound cursor hroom
  · exact repeatWhile_settled le hinner hbound cursor hroom
  · exact repeatFor_settled le hinner hbound cursor hroom
  · exact switch_settled le hinner hbound cursor hroom
  · rename_i hkind
    exact exit_settled le hbound hkind hroom .return
  · rename_i hkind
    exact exit_settled le hbound hkind hroom .throw
  · rename_i hkind
    exact .bind (.skip (by simp [hkind])) fun _ _ _ _ => .pure
  · cases hstarts : startsBlock cursor with
    | true =>
        refine (block_settled le hinner hbound cursor hroom).congr ?_ ?_ <;>
          rw [standsAtBlock_bind, hstarts, if_pos rfl]
    | false =>
        refine (expressionStatement_settled le hbound' cursor hroom).congr ?_ ?_ <;>
          rw [standsAtBlock_bind, hstarts, if_neg nofun]
  · exact expressionStatement_settled le hbound' cursor hroom
  · exact expressionStatement_settled le hbound' cursor hroom
  · exact expressionStatement_settled le hbound' cursor hroom
  · exact expressionStatement_settled le hbound' cursor hroom
  · exact .rejects rfl rfl

end

end Statements

/-- Under a bound above the number of tokens and one more, a statement is read as under any greater
one. -/
theorem statement_settled (hbound : room + 1 < bound) :
    Settled room 1 (statement bound) (statement bound') := by
  induction bound generalizing bound' room with
  | zero => omega
  | succ bound ih =>
      obtain _ | bound' := bound'
      · omega
      · obtain _ | room := room
        · exact fun cursor hroom => by omega
        · have le' := Nat.le_of_succ_le_succ le
          have hroom := Nat.lt_of_succ_lt_succ hbound
          exact statementOver_settled le' (ih le' hroom) (Nat.lt_of_succ_lt hroom) hroom

/-! ## Programs -/

omit le in
theorem importRequest_settled {cursor : Cursor} :
    SettledAt cursor 1 importRequest importRequest := by
  refine .bind (.expect _ nofun) fun position rest _ _ => .here (.peek ?_)
  split
  · rename_i hkind
    exact .andThen (.skip (by simp [hkind])) fun _ _ _ _ => .pure
  · exact .rejects rfl rfl

theorem programRest_settled {inner inner' : Parser Statement} (hinner : Settled room 1 inner inner')
    (cursor : Cursor) (hroom : cursor.tokens.length < room) (hbound : cursor.tokens.length < bound)
    (inHeader : Bool) :
    SettledAt cursor 0 (programRest inner bound inHeader)
      (programRest inner' bound' inHeader) := by
  induction bound generalizing bound' cursor inHeader with
  | zero => omega
  | succ bound ih =>
      obtain _ | bound' := bound'
      · omega
      · refine .peek ?_
        split
        · exact .pure
        · split
          · refine .andThen importRequest_settled fun request rest _ hrest => ?_
            exact .andThen (ih (by omega) rest (by omega) (by omega) _) fun _ _ _ _ => .pure
          · refine .andThen (hinner cursor hroom) fun first rest _ hrest => ?_
            exact .andThen (ih (by omega) rest (by omega) (by omega) _) fun _ _ _ _ => .pure

/-- Under the bound of a program of its number of tokens, or a greater one, a text is read alike, and
the bound is not exhausted. -/
theorem program_settled {cursor : Cursor}
    (hbound : sufficientBound cursor.tokens.length ≤ bound) :
    SettledAt cursor 0 (program bound) (program bound') := by
  have hstatement : Settled (cursor.tokens.length + 1) 1 (statement bound) (statement bound') :=
    statement_settled le (by simp only [sufficientBound] at hbound; omega)
  exact programRest_settled le hstatement cursor (Nat.lt_succ_self _)
    (by simp only [sufficientBound] at hbound; omega) true

end

end Grammar
end Bir
