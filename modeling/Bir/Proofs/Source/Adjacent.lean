import Bir.Proofs.Source.Passages
import Bir.Proofs.Source.Turns

/-!
# Adjacent statements — they neither merge nor split

This file defines `Surrounds`: what may stand around the body of a branch, a loop or a block.
Passages one after the other are read as their statements, in a program and in such a body.
-/

namespace Bir
namespace Grammar

open Bir.Grammar.Parser

/-! ## Readings of a body -/

/-- The alternatives of a branch. -/
abbrev alternatives (bound : Nat) : Parser (List (Expression × List Statement)) :=
  many (.keyword .elif) (arm (fun cursor => statement bound cursor) bound) bound

/-- The body behind a word, if that stands there. -/
abbrev worded (word : Keyword) (bound : Nat) : Parser (Option (List Statement)) :=
  bodyAfter? word (fun cursor => statement bound cursor) bound

/-- A condition and a body. -/
abbrev guarded (bound : Nat) : Parser (Expression × List Statement) :=
  arm (fun cursor => statement bound cursor) bound

/-- The verbs that a block declares. -/
abbrev declaredVerbs (bound : Nat) : Parser (List Identifier) :=
  many (.mark .colon) identifier bound

/-- The parameters that a block declares. -/
abbrev declaredArguments (bound : Nat) : Parser (List Identifier) :=
  delimited .leftBracket .rightBracket identifier bound

/-- What may stand around the body of a branch, a loop or a block, and the statement that it is with
a body. -/
inductive Surrounds : List Token → List Token → (List Statement → Statement) → Prop
  | branch (keyword opened closed : Position) {test others last : List Token}
      {condition : Expression} {elifs : List (Expression × List Statement)}
      {otherwise : Option (List Statement)} (condition_reads : Reads expression test condition)
      (elifs_read : Reads alternatives others elifs)
      (otherwise_reads : Reads (worded .else) last otherwise) :
      Surrounds (⟨.keyword .if, keyword⟩ :: test ++ [⟨.mark .leftBrace, opened⟩])
        (⟨.mark .rightBrace, closed⟩ :: others ++ last)
        (fun body => .branch condition body elifs otherwise keyword)
  | alternative (keyword word opened closed : Position)
      {first earlier test later last : List Token} {condition other : Expression}
      {statements : List Statement} {elifs elifs' : List (Expression × List Statement)}
      {otherwise : Option (List Statement)}
      (first_reads : Reads guarded first (condition, statements))
      (earlier_read : Reads alternatives earlier elifs) (test_reads : Reads expression test other)
      (later_read : Reads alternatives later elifs')
      (otherwise_reads : Reads (worded .else) last otherwise) :
      Surrounds
        (⟨.keyword .if, keyword⟩ :: first ++ earlier ++
          ⟨.keyword .elif, word⟩ :: test ++ [⟨.mark .leftBrace, opened⟩])
        (⟨.mark .rightBrace, closed⟩ :: later ++ last)
        (fun body =>
          .branch condition statements (elifs ++ (other, body) :: elifs') otherwise keyword)
  | otherwise (keyword word opened closed : Position) {first others : List Token}
      {condition : Expression} {statements : List Statement}
      {elifs : List (Expression × List Statement)}
      (first_reads : Reads guarded first (condition, statements))
      (elifs_read : Reads alternatives others elifs) :
      Surrounds
        (⟨.keyword .if, keyword⟩ :: first ++ others ++
          [⟨.keyword .else, word⟩, ⟨.mark .leftBrace, opened⟩])
        [⟨.mark .rightBrace, closed⟩]
        (fun body => .branch condition statements elifs (some body) keyword)
  | repeatWhile (keyword opened closed : Position) {test : List Token} {condition : Expression}
      (condition_reads : Reads expression test condition) :
      Surrounds (⟨.keyword .while, keyword⟩ :: test ++ [⟨.mark .leftBrace, opened⟩])
        [⟨.mark .rightBrace, closed⟩] (fun body => .repeatWhile condition body keyword)
  | repeatFor (keyword word opened closed : Position) (placeholder : Identifier)
      {test : List Token} {count : Expression} (count_reads : Reads expression test count) :
      Surrounds
        (⟨.keyword .for, keyword⟩ :: test ++
          [⟨.keyword .as, word⟩,
            ⟨.identifier placeholder.name placeholder.negative, placeholder.position⟩,
            ⟨.mark .leftBrace, opened⟩])
        [⟨.mark .rightBrace, closed⟩] (fun body => .repeatFor count placeholder body keyword)
  | block (name : Identifier) (opened closed : Position) {head parameters first : List Token}
      {verbs arguments : List Identifier} {init : Option (List Statement)}
      (verbs_read : Reads declaredVerbs head verbs)
      (arguments_read : Reads declaredArguments parameters arguments)
      (init_reads : Reads (worded .init) first init) :
      Surrounds
        (⟨.identifier name.name name.negative, name.position⟩ :: head ++ parameters ++
          ⟨.mark .leftBrace, opened⟩ :: first)
        [⟨.mark .rightBrace, closed⟩]
        (fun body => @Statement.block name verbs arguments init body name.position)

/-! ## Parts in their places -/

namespace Reads

variable {tokens : List Token} {bound : Nat} (le : sufficientBound tokens.length ≤ bound)
include le

theorem expression {value : Expression} (h : Reads Grammar.expression tokens value) {left : Cursor}
    (past : left.kind.continuesExpression = false) :
    Grammar.expression bound (left.prepend tokens) = .accepted value left :=
  h.before (expression_local le) fun _ hcontinues => by
    rw [past] at hcontinues
    cases hcontinues

theorem guarded {value : Expression × List Statement} (h : Reads Grammar.guarded tokens value)
    (left : Cursor) : Grammar.guarded bound (left.prepend tokens) = .accepted value left :=
  h.before (arm_local le (statement_local le)) fun _ => trivial

theorem worded {word : Keyword} {value : Option (List Statement)}
    (h : Reads (Grammar.worded word) tokens value) {left : Cursor}
    (past : left.kind ≠ .keyword word) :
    Grammar.worded word bound (left.prepend tokens) = .accepted value left := by
  have hlocal : Local (Stays fun kind => kind = .keyword word)
      (fun _ => Stays fun kind => kind = .keyword word)
      (Grammar.worded word (sufficientBound tokens.length)) (Grammar.worded word bound) :=
    bodyAfter?_local le (statement_local le) (.stays (by simp))
  refine h.before hlocal fun _ hcontinues => ?_
  exact absurd (by simpa using hcontinues) past

/-- All alternatives are read alike wherever they stand. -/
theorem turns {elifs : List (Expression × List Statement)}
    (h : Reads Grammar.alternatives tokens elifs) :
    elifs.length ≤ tokens.length ∧ ∀ left : Cursor,
      Turns (.keyword .elif) (Grammar.guarded bound) (left.prepend tokens) elifs left := by
  obtain ⟨stop, hread⟩ := h
  obtain ⟨taken, htaken, hlength, hleft⟩ := (Turns.of_many hread).elsewhere nofun
    (arm_local le (statement_local le))
  have htokens : taken = tokens := by
    simpa [Cursor.prepend] using (Cursor.mk.inj htaken).1.symm
  subst htokens
  exact ⟨hlength, hleft⟩

theorem alternatives {elifs : List (Expression × List Statement)}
    (h : Reads Grammar.alternatives tokens elifs) {left : Cursor}
    (past : left.kind ≠ .keyword .elif) :
    Grammar.alternatives bound (left.prepend tokens) = .accepted elifs left := by
  obtain ⟨hlength, hturns⟩ := h.turns le
  refine (hturns left).many ?_ past
  simp only [sufficientBound] at le
  omega

theorem declaredVerbs {value : List Identifier} (h : Reads Grammar.declaredVerbs tokens value)
    {left : Cursor} (past : left.kind ≠ .mark .colon) :
    Grammar.declaredVerbs bound (left.prepend tokens) = .accepted value left := by
  have hverb : Local SameStart (fun _ => Stays fun kind => kind = .mark .colon) identifier
      identifier :=
    Local.name.mono (fun _ _ h => h) fun _ _ _ _ => trivial
  refine h.before (Local.many le (.mark .colon) nofun (.stays (by simp)) hverb) fun _ hcontinues => ?_
  exact absurd (by simpa using hcontinues) past

theorem declaredArguments {value : List Identifier}
    (h : Reads Grammar.declaredArguments tokens value) (left : Cursor) :
    Grammar.declaredArguments bound (left.prepend tokens) = .accepted value left := by
  have hargument : Local SameStart (fun _ => SameKind) identifier identifier :=
    Local.name.mono (fun _ _ h => h) fun _ _ _ _ => trivial
  exact h.before (Local.delimited le _ (by decide) hargument) fun _ => trivial

end Reads

/-! ## Bodies in their places -/

section

variable {bound : Nat} {cursor left : Cursor} {body : List Statement} (opened closed : Position)
  (h : Runs (fun cursor => statement bound cursor) cursor body
    (left.prepend [⟨.mark .rightBrace, closed⟩]))
  (room : body.length < bound)
include h room

theorem bodyRest_of_runs :
    bodyRest (fun cursor => statement bound cursor) bound opened cursor = .accepted body left :=
  (bind_of_accepted (h.untilClose room (.inl rfl))).trans rfl

theorem body_of_runs :
    Grammar.body (fun cursor => statement bound cursor) bound
      (cursor.prepend [⟨.mark .leftBrace, opened⟩]) = .accepted body left :=
  bodyRest_of_runs opened closed h room

theorem guarded_of_runs {test : List Token} {condition : Expression}
    (le : sufficientBound test.length ≤ bound) (reads : Reads expression test condition) :
    guarded bound ((cursor.prepend [⟨.mark .leftBrace, opened⟩]).prepend test) =
      .accepted (condition, body) left := by
  refine (bind_of_accepted (reads.expression le rfl)).trans ?_
  exact (bind_of_accepted (body_of_runs opened closed h room)).trans rfl

theorem worded_of_runs (word : Keyword) (position : Position) :
    worded word bound
      ((cursor.prepend [⟨.mark .leftBrace, opened⟩]).prepend [⟨.keyword word, position⟩]) =
        .accepted (some body) left := by
  refine (bind_of_accepted (eat?_of_eq rfl)).trans ?_
  exact (bind_of_accepted (body_of_runs opened closed h room)).trans rfl

end

/-- A branch from its parts. -/
theorem statement_of_branch {bound : Nat} {start afterFirst afterElifs left : Cursor}
    {condition : Expression} {statements : List Statement}
    {elifs : List (Expression × List Statement)} {otherwise : Option (List Statement)}
    (keyword : Position)
    (first : guarded bound start = .accepted (condition, statements) afterFirst)
    (others : alternatives bound afterFirst = .accepted elifs afterElifs)
    (last : worded .else bound afterElifs = .accepted otherwise left) :
    statement (bound + 1) (start.prepend [⟨.keyword .if, keyword⟩]) =
      .accepted (.branch condition statements elifs otherwise keyword) left := by
  have hbranch : statement (bound + 1) (start.prepend [⟨.keyword .if, keyword⟩]) =
      Grammar.branch (fun cursor => statement bound cursor) bound
        (start.prepend [⟨.keyword .if, keyword⟩]) := rfl
  have hword : expect (.keyword .if) (start.prepend [⟨.keyword .if, keyword⟩]) =
      .accepted keyword start := rfl
  refine hbranch.trans ((bind_of_accepted hword).trans ?_)
  refine (bind_of_accepted first).trans ?_
  refine (bind_of_accepted others).trans ?_
  exact (bind_of_accepted last).trans rfl

/-- A loop under a condition from its parts. -/
theorem statement_of_repeatWhile {bound : Nat} {start left : Cursor} {condition : Expression}
    {body : List Statement} (keyword : Position)
    (reads : guarded bound start = .accepted (condition, body) left) :
    statement (bound + 1) (start.prepend [⟨.keyword .while, keyword⟩]) =
      .accepted (.repeatWhile condition body keyword) left := by
  have hloop : statement (bound + 1) (start.prepend [⟨.keyword .while, keyword⟩]) =
      Grammar.repeatWhile (fun cursor => statement bound cursor) bound
        (start.prepend [⟨.keyword .while, keyword⟩]) := rfl
  have hword : expect (.keyword .while) (start.prepend [⟨.keyword .while, keyword⟩]) =
      .accepted keyword start := rfl
  refine hloop.trans ((bind_of_accepted hword).trans ?_)
  exact (bind_of_accepted reads).trans rfl

/-- A loop over a count from its parts. -/
theorem statement_of_repeatFor {bound : Nat} {start afterName left : Cursor} {count : Expression}
    {body : List Statement} (keyword word : Position) (placeholder : Identifier)
    (counts : expression bound start = .accepted count
      ((afterName.prepend
        [⟨.identifier placeholder.name placeholder.negative, placeholder.position⟩]).prepend
          [⟨.keyword .as, word⟩]))
    (reads : Grammar.body (fun cursor => statement bound cursor) bound afterName =
      .accepted body left) :
    statement (bound + 1) (start.prepend [⟨.keyword .for, keyword⟩]) =
      .accepted (.repeatFor count placeholder body keyword) left := by
  have hloop : statement (bound + 1) (start.prepend [⟨.keyword .for, keyword⟩]) =
      Grammar.repeatFor (fun cursor => statement bound cursor) bound
        (start.prepend [⟨.keyword .for, keyword⟩]) := rfl
  have hword : expect (.keyword .for) (start.prepend [⟨.keyword .for, keyword⟩]) =
      .accepted keyword start := rfl
  refine hloop.trans ((bind_of_accepted hword).trans ?_)
  refine (bind_of_accepted counts).trans ?_
  exact (bind_of_accepted reads).trans rfl

/-- A block from its parts. -/
theorem statement_of_block {bound : Nat} {start afterVerbs afterName left : Cursor}
    {body : List Statement} {name : Identifier} {verbs arguments : List Identifier}
    {init : Option (List Statement)} {opened : Position} {afterInit : Cursor}
    (noWord : start.kind ≠ .keyword .implements)
    (verbs_read : declaredVerbs bound start = .accepted verbs afterVerbs)
    (arguments_read : declaredArguments bound afterVerbs =
      .accepted arguments (afterName.prepend [⟨.mark .leftBrace, opened⟩]))
    (init_reads : worded .init bound afterName = .accepted init afterInit)
    (reads : bodyRest (fun cursor => statement bound cursor) bound opened afterInit =
      .accepted body left) :
    statement (bound + 1)
        (start.prepend [⟨.identifier name.name name.negative, name.position⟩]) =
      .accepted (@Statement.block name verbs arguments init body name.position) left := by
  have hblock : Grammar.block (fun cursor => statement bound cursor) bound
      (start.prepend [⟨.identifier name.name name.negative, name.position⟩]) =
        .accepted (@Statement.block name verbs arguments init body name.position) left := by
    have hname : identifier
        (start.prepend [⟨.identifier name.name name.negative, name.position⟩]) =
          .accepted name start := rfl
    refine (bind_of_accepted hname).trans ?_
    refine (bind_of_accepted (eat?_of_ne noWord)).trans ?_
    refine (bind_of_accepted verbs_read).trans ?_
    refine (bind_of_accepted arguments_read).trans ?_
    have hopen : expect (.mark .leftBrace) (afterName.prepend [⟨.mark .leftBrace, opened⟩]) =
        .accepted opened afterName := rfl
    refine (bind_of_accepted hopen).trans ?_
    refine (bind_of_accepted init_reads).trans ?_
    exact (bind_of_accepted reads).trans rfl
  -- What is read as a block is also taken for one beforehand.
  have hstarts := startsBlock_of_block hblock
  have hstatement : statement (bound + 1)
      (start.prepend [⟨.identifier name.name name.negative, name.position⟩]) =
        (standsAtBlock >>= fun declares =>
          if declares then Grammar.block (fun cursor => statement bound cursor) bound
          else expressionStatement bound : Parser Statement)
            (start.prepend [⟨.identifier name.name name.negative, name.position⟩]) := rfl
  rw [hstatement, standsAtBlock_bind, hstarts, if_pos rfl]
  exact hblock

/-! ## What stands first -/

/-- Where a sign is optional, it stands first or nothing does. -/
theorem Reads.kind_of_optional {α : Type} {parser : Nat → Parser α} {kind : Token.Kind}
    {next : Nat → Bool → Parser α} {absent : α} {tokens : List Token} {value : α}
    (h : Reads parser tokens value)
    (starts : ∀ bound, parser (bound + 1) = eat? kind >>= next bound)
    (otherwise : ∀ bound, next bound false = pure absent) (left : Cursor) :
    (left.prepend tokens).kind = kind ∨ tokens = [] := by
  obtain ⟨stop, hread⟩ := h
  cases tokens with
  | nil => exact .inr rfl
  | cons token tokens =>
      by_cases hkind : token.kind = kind
      · exact .inl hkind
      · have hnone : eat? kind ⟨token :: tokens, stop⟩ = .accepted false ⟨token :: tokens, stop⟩ :=
          eat?_of_ne hkind
        rw [sufficientBound, starts, bind_of_accepted hnone, otherwise] at hread
        cases hread

theorem Reads.kind_of_worded {word : Keyword} {tokens : List Token}
    {value : Option (List Statement)} (h : Reads (Grammar.worded word) tokens value)
    (left : Cursor) : (left.prepend tokens).kind = .keyword word ∨ tokens = [] :=
  h.kind_of_optional (fun _ => rfl) (fun _ => rfl) left

theorem Reads.kind_of_declaredVerbs {tokens : List Token} {value : List Identifier}
    (h : Reads Grammar.declaredVerbs tokens value) (left : Cursor) :
    (left.prepend tokens).kind = .mark .colon ∨ tokens = [] :=
  h.kind_of_optional (fun _ => rfl) (fun _ => rfl) left

theorem Reads.kind_of_declaredArguments {tokens : List Token} {value : List Identifier}
    (h : Reads Grammar.declaredArguments tokens value) (left : Cursor) :
    (left.prepend tokens).kind = .mark .leftBracket := by
  obtain ⟨stop, hread⟩ := h
  obtain ⟨openedAt, middle, hexpect, -⟩ := bind_eq_accepted.1 hread
  have hkind := (expect_eq_accepted hexpect).1
  cases tokens with
  | nil => cases hkind
  | cons token tokens => exact hkind

/-- Statements are at their end or start with one. -/
theorem Runs.kind {inner : Parser Statement} {cursor rest : Cursor} {statements : List Statement}
    (h : Runs inner cursor statements rest) :
    cursor = rest ∨ cursor.kind.startsStatement = true := by
  cases h with
  | done => exact .inl rfl
  | step starts _ _ => exact .inr starts

/-- A body is read as its statements in what surrounds it. -/
theorem Surrounds.reads {before after inside : List Token} {body : List Statement}
    {make : List Statement → Statement} (h : Surrounds before after make) {bound : Nat}
    (le : (before ++ inside ++ after).length + 3 ≤ bound) (room : body.length < bound)
    (runs : ∀ (left : Cursor) (closed : Position),
      Runs (fun cursor => statement bound cursor)
        ((left.prepend [⟨.mark .rightBrace, closed⟩]).prepend inside) body
        (left.prepend [⟨.mark .rightBrace, closed⟩]))
    {left : Cursor} (hend : left.kind = .endOfFile) :
    statement (bound + 1) (left.prepend (before ++ inside ++ after)) =
      .accepted (make body) left := by
  have noElif : ∀ {tokens : List Token} {value : Option (List Statement)},
      Reads (worded .else) tokens value → (left.prepend tokens).kind ≠ .keyword .elif := by
    intro tokens value hreads helif
    rcases hreads.kind_of_worded left with hkind | rfl
    · cases hkind.symm.trans helif
    · cases hend.symm.trans helif
  have noElse : left.kind ≠ .keyword .else := by
    simp [hend]
  have enough : ∀ {tokens : List Token}, tokens.length + 4 ≤ bound →
      sufficientBound tokens.length ≤ bound := fun h => h
  cases h with
  | @branch keyword opened closed test others last condition elifs otherwise condition_reads
      elifs_read otherwise_reads =>
      simp only [List.length_append, List.length_cons, List.length_nil] at le
      have hruns := runs ((left.prepend last).prepend others) closed
      have hfirst := guarded_of_runs opened closed hruns room (enough (by omega)) condition_reads
      have hothers := elifs_read.alternatives (enough (by omega)) (noElif otherwise_reads)
      have hlast := otherwise_reads.worded (enough (by omega)) noElse
      simpa [Cursor.prepend] using statement_of_branch keyword hfirst hothers hlast
  | @alternative keyword word opened closed first earlier test later last condition other statements
      elifs elifs' otherwise first_reads earlier_read test_reads later_read otherwise_reads =>
      simp only [List.length_append, List.length_cons, List.length_nil] at le
      obtain ⟨hearlier, hturns⟩ := earlier_read.turns (enough (by omega))
      obtain ⟨hlater, hturns'⟩ := later_read.turns (enough (by omega))
      have htest := guarded_of_runs opened closed (runs ((left.prepend last).prepend later) closed)
        room (enough (by omega)) test_reads
      have hall := (hturns _).append
        (.cons ⟨.keyword .elif, word⟩ rfl htest (hturns' (left.prepend last)))
      have hroom : (elifs ++ (other, body) :: elifs').length < bound := by
        simp only [List.length_append, List.length_cons]
        omega
      have hlast := otherwise_reads.worded (enough (by omega)) noElse
      simpa [Cursor.prepend] using statement_of_branch keyword
        (first_reads.guarded (enough (by omega)) _) (hall.many hroom (noElif otherwise_reads)) hlast
  | @otherwise keyword word opened closed first others condition statements elifs first_reads
      elifs_read =>
      simp only [List.length_append, List.length_cons, List.length_nil] at le
      have hlast := worded_of_runs opened closed (runs left closed) room .else word
      simpa [Cursor.prepend] using statement_of_branch keyword
        (first_reads.guarded (enough (by omega)) _)
        (elifs_read.alternatives (enough (by omega)) (by simp [Cursor.prepend, Cursor.kind])) hlast
  | @repeatWhile keyword opened closed test condition condition_reads =>
      simp only [List.length_append, List.length_cons, List.length_nil] at le
      have hguarded := guarded_of_runs opened closed (runs left closed) room (enough (by omega))
        condition_reads
      simpa [Cursor.prepend] using statement_of_repeatWhile keyword hguarded
  | @repeatFor keyword word opened closed placeholder test count count_reads =>
      simp only [List.length_append, List.length_cons, List.length_nil] at le
      have hbody := body_of_runs opened closed (runs left closed) room
      simpa [Cursor.prepend] using statement_of_repeatFor keyword word placeholder
        (count_reads.expression (enough (by omega)) (by rfl)) hbody
  | @block name opened closed head parameters first verbs arguments init verbs_read arguments_read
      init_reads =>
      simp only [List.length_append, List.length_cons, List.length_nil] at le
      have hbody := bodyRest_of_runs opened closed (runs left closed) room
      have noInit : ((left.prepend [⟨.mark .rightBrace, closed⟩]).prepend inside).kind ≠
          .keyword .init := by
        intro hkind
        rcases (runs left closed).kind with hend' | hstarts
        · rw [hend'] at hkind
          cases hkind
        · rw [hkind] at hstarts
          cases hstarts
      have hinit := init_reads.worded (enough (by omega)) noInit
      have harguments := arguments_read.declaredArguments (enough (by omega))
        ((((left.prepend [⟨.mark .rightBrace, closed⟩]).prepend inside).prepend first).prepend
          [⟨.mark .leftBrace, opened⟩])
      have hbracket := arguments_read.kind_of_declaredArguments
        ((((left.prepend [⟨.mark .rightBrace, closed⟩]).prepend inside).prepend first).prepend
          [⟨.mark .leftBrace, opened⟩])
      have hverbs := verbs_read.declaredVerbs (enough (by omega)) (by rw [hbracket]; simp)
      refine (congrArg _ ?_).trans (statement_of_block ?_ hverbs harguments hinit hbody)
      · simp [Cursor.prepend]
      · rcases verbs_read.kind_of_declaredVerbs _ with hkind | rfl
        · rw [hkind]
          simp
        · rw [Cursor.prepend_nil, hbracket]
          simp

/-! ## Programs -/

/-- Statements that are read one after the other up to the end of the file are a program. -/
theorem ofTokens_of_runs {tokens : List Token} {statements : List Statement}
    (endless : Endless tokens) (room : statements.length < sufficientBound tokens.length)
    (runs : ∀ left : Cursor, left.kind = .endOfFile →
      Runs (fun cursor => statement (sufficientBound tokens.length) cursor) (left.prepend tokens)
        statements left) :
    Program.ofTokens tokens = .ok { statements } := by
  obtain ⟨stop, hcursor⟩ := Cursor.ofTokens_of_endless endless
  have hprepend : Cursor.prepend tokens ⟨[], stop⟩ = ⟨tokens, stop⟩ := by
    simp [Cursor.prepend]
  have hprogram := (runs ⟨[], stop⟩ rfl).programRest room rfl true
  rw [hprepend] at hprogram
  simp only [Program.ofTokens, hcursor, program, hprogram, outcome]

/-- Statements that are read from tokens alone are read from the tokens one after the other, each as
it was, unless one is a group that seeds the block before it.  The same goes for the body of a
branch, a loop or a block. -/
theorem adjacent_statements_neither_merge_nor_split {passages : List Passage}
    (alone : ∀ passage ∈ passages, passage.Alone) (apart : passages.IsChain Passage.Apart) :
    Program.ofTokens (Passage.text passages) =
        .ok { statements := passages.map Passage.statement } ∧
      ∀ {before after : List Token} {make : List Statement → Statement},
        Surrounds before after make → Endless (before ++ after) →
          Program.ofTokens (before ++ Passage.text passages ++ after) =
            .ok { statements := [make (passages.map Passage.statement)] } := by
  have endless : Endless (Passage.text passages) := by
    intro token hmem
    obtain ⟨passage, hpassage, htoken⟩ := List.mem_flatMap.1 hmem
    exact (alone passage hpassage).endless token htoken
  have hlength := Passage.length_le_text alone
  constructor
  · refine ofTokens_of_runs endless ?_ fun left hend =>
      Passage.runs alone apart (.inr hend) (Nat.le_refl _)
    simp only [List.length_map, sufficientBound]
    omega
  · intro before after make surrounds noEnd
    have hall : Endless (before ++ Passage.text passages ++ after) := by
      intro token hmem
      simp only [List.mem_append] at hmem
      rcases hmem with (hmem | hmem) | hmem
      · exact noEnd token (List.mem_append_left _ hmem)
      · exact endless token hmem
      · exact noEnd token (List.mem_append_right _ hmem)
    have hbefore : 0 < before.length := by
      cases surrounds <;> simp
    refine ofTokens_of_runs hall (by simp [sufficientBound]) fun left hend => ?_
    have hroom : (passages.map Passage.statement).length <
        (before ++ Passage.text passages ++ after).length + 3 := by
      simp only [List.length_map, List.length_append]
      omega
    have hbound : sufficientBound (Passage.text passages).length ≤
        (before ++ Passage.text passages ++ after).length + 3 := by
      simp only [List.length_append, sufficientBound]
      omega
    have hreads := surrounds.reads (Nat.le_refl _) hroom
      (fun left closed => Passage.runs alone apart (.inl rfl) hbound) hend
    exact .step (startsStatement_of_statement hreads) hreads (.done left)

/-- A block that implements another without values. -/
def unseededBlock : Passage where
  tokens := [⟨.identifier "b" false, .start⟩, ⟨.keyword .implements, .start⟩,
    ⟨.identifier "a" false, .start⟩]
  statement := @Statement.implementing ⟨"b", false, .start⟩ ⟨"a", false, .start⟩ none .start

/-- A change of a group that starts with a name. -/
def changedGroup : Passage where
  tokens := [⟨.mark .leftBrace, .start⟩, ⟨.identifier "x" false, .start⟩,
    ⟨.mark .rightBrace, .start⟩, ⟨.quantity .increment, .start⟩]
  statement := @Statement.modify .increment (.reference ⟨"x", false, .start⟩) none .start

/-- A change of a group that starts with a string. -/
def changedSeed : Passage where
  tokens := [⟨.mark .leftBrace, .start⟩, ⟨.text "s", .start⟩, ⟨.mark .rightBrace, .start⟩,
    ⟨.quantity .increment, .start⟩]
  statement := @Statement.modify .increment (.string "s" .start) none .start

/-- The exception is one: the string seeds the block, and nothing is left to be changed. -/
example : Program.ofTokens changedSeed.tokens = .ok { statements := [changedSeed.statement] } ∧
    Program.ofTokens (Passage.text [unseededBlock, changedSeed]) =
      .error ⟨.unexpectedToken .statement (.quantity .increment), .start⟩ :=
  ⟨rfl, rfl⟩

/-- A group behind a block in a loop does not seed the block, because it starts with a name. -/
theorem adjacent_statements_of_loop :
    Program.ofTokens
        ([⟨.keyword .while, .start⟩, ⟨.integer 1, .start⟩, ⟨.mark .leftBrace, .start⟩] ++
          Passage.text [unseededBlock, changedGroup] ++ [⟨.mark .rightBrace, .start⟩]) =
      .ok { statements := [.repeatWhile (.integer 1 .start)
        [unseededBlock.statement, changedGroup.statement] .start] } := by
  have alone : ∀ passage ∈ [unseededBlock, changedGroup], passage.Alone := by
    intro passage hmem
    simp only [List.mem_cons, List.not_mem_nil, or_false] at hmem
    rcases hmem with rfl | rfl
    · exact ⟨by decide, rfl⟩
    · exact ⟨by decide, rfl⟩
  have apart : [unseededBlock, changedGroup].IsChain Passage.Apart := by
    simp [Passage.Apart, changedGroup, startsWithSeed]
  have surrounds := Surrounds.repeatWhile .start .start .start
    (⟨.start, rfl⟩ : Reads expression [⟨.integer 1, .start⟩] (.integer 1 .start))
  exact (adjacent_statements_neither_merge_nor_split alone apart).2 surrounds (by decide)

end Grammar
end Bir
