import Bir.Proofs.Source.Follow

/-!
# Promptness — a parser rejects the first token that is impossible

Where a parser rejects a token, it has taken those before it.  These can be gone on with, and with the
rejected token they cannot, whatever follows.  This file defines:

* `Instead fresh` and `Begins fresh` — views of what stands next when a token was replaced by one of
  certain kinds;
* `Takes parser taken kinds follow before` — tokens of certain kinds complete those that were taken;
* `FirstImpossible` — no token before the one at a cursor is impossible, and that one is;
* `Parser.Prompt before follow parser parser'` — what `parser` rejects is the first that is impossible
  for `parser'`, the same parser with a greater bound.

There is one rule for each step, loop and enclosure, as there is for `Parser.Local`.
-/

namespace Bir
namespace Grammar

open Bir.Grammar.Parser

/-! ## Views -/

/-- The next tokens are of the same kind, or the second one is of another kind that is allowed for. -/
def Instead (fresh : List Token.Kind) : View := fun cursor cursor' =>
  cursor.kind = cursor'.kind ∨ cursor'.kind ∈ fresh

/-- The same, and the second cursor seeds no slots if the first does not. -/
structure Begins (fresh : List Token.Kind) (cursor cursor' : Cursor) : Prop where
  kind : Instead fresh cursor cursor'
  seeds : cursor'.seeds = true → cursor.seeds = true

section

variable {fresh : List Token.Kind} {start : Token.Kind} {cursor cursor' : Cursor} {behind : View}

theorem seeds_of_ne (h : cursor.kind ≠ .mark .leftBrace) : cursor.seeds = false := by
  cases hseeds : cursor.seeds with
  | false => rfl
  | true => exact absurd (kind_of_seeds hseeds) h

theorem Instead.stays {goesOn : Token.Kind → Bool} (h : Instead fresh cursor cursor')
    (none : ∀ kind ∈ fresh, goesOn kind = false) : Stays goesOn cursor cursor' := by
  intro hgoes
  rcases h with hkind | hfresh
  · exact hkind
  · rw [none _ hfresh] at hgoes
    cases hgoes

theorem Begins.of_instead (h : Instead fresh cursor cursor') (noBrace : .mark .leftBrace ∉ fresh)
    (hkind : cursor.kind ≠ .mark .leftBrace) : Begins fresh cursor cursor' where
  kind := h
  seeds hseeds := by
    have hkind' : cursor'.kind ≠ .mark .leftBrace := by
      rcases h with h | h
      · rwa [← h]
      · exact fun hbrace => noBrace (hbrace ▸ h)
    rw [seeds_of_ne hkind'] at hseeds
    cases hseeds

theorem Begins.mono {fewer : List Token.Kind} (h : Begins fewer cursor cursor')
    (all : fewer ⊆ fresh) : Begins fresh cursor cursor' :=
  ⟨h.kind.imp id fun hmem => all hmem, h.seeds⟩

theorem SameStart.begins (h : SameStart cursor cursor') : Begins fresh cursor cursor' where
  kind := .inl h.kind
  seeds hseeds := h.toSameView.seeds.trans hseeds

theorem SameHead.begins_of_ne (h : SameHead behind cursor cursor')
    (noBrace : cursor.kind ≠ .mark .leftBrace) : Begins fresh cursor cursor' :=
  (h.sameStart_of_ne noBrace).begins

/-- What seeds slots is told by the token behind the brace. -/
theorem SameHead.begins {others : List Token.Kind} (h : SameHead (Instead others) cursor cursor')
    (none : ∀ kind ∈ others, startsPopulate (.mark .leftBrace) kind = false) :
    Begins fresh cursor cursor' := by
  refine ⟨.inl h.kind, fun hseeds => ?_⟩
  obtain ⟨token, rest, rest', rfl, rfl, hrest⟩ := h
  simp only [Cursor.seeds, Cursor.kindAt_one, Cursor.kind_prepend_singleton,
    Cursor.next_prepend_singleton] at hseeds ⊢
  rcases hrest with hsame | hfresh
  · rwa [hsame]
  · have hbrace : token.kind = .mark .leftBrace := by
      unfold startsPopulate at hseeds
      split at hseeds <;> first | assumption | cases hseeds
    rw [hbrace, none _ hfresh] at hseeds
    cases hseeds

theorem Instead.tells (new : start ∉ fresh) : Tells (Instead fresh) behind start where
  among h hstart := by
    rcases h with hkind | hfresh
    · exact hkind.trans hstart
    · exact absurd (hstart ▸ hfresh) new
  head h _ := .inl h.kind

theorem Begins.tells (new : start ∉ fresh) (noBrace : start ≠ .mark .leftBrace) :
    Tells (Begins fresh) behind start where
  among h hstart := by
    rcases h.kind with hkind | hfresh
    · exact hkind.trans hstart
    · exact absurd (hstart ▸ hfresh) new
  head h hstart := h.begins_of_ne (hstart ▸ noBrace)

end

namespace Parser

variable {α β : Type}

/-! ## Completions -/

/-- Tokens of some kinds, whatever else they are, are all that a parser needs behind those that are
taken, if what follows allows it. -/
structure Takes (parser : Parser α) (taken : List Token) (kinds : List Token.Kind)
    (follow before : Cursor → Prop) : Prop where
  endless : .endOfFile ∉ kinds
  reads : ∀ more, more.map Token.kind = kinds → ∃ value, ∀ left, follow left →
    parser (left.prepend (taken ++ more)) = .accepted value left ∧
      before (left.prepend (taken ++ more))

namespace Takes

variable {parser : Parser α} {taken : List Token} {kinds : List Token.Kind}
  {follow before : Cursor → Prop}

theorem mono (h : Takes parser taken kinds follow before) {follow' before' : Cursor → Prop}
    (stronger : ∀ left, follow' left → follow left) (weaker : ∀ cursor, before cursor → before' cursor) :
    Takes parser taken kinds follow' before' where
  endless := h.endless
  reads more hmore := by
    obtain ⟨value, hreads⟩ := h.reads more hmore
    refine ⟨value, fun left hleft => ?_⟩
    obtain ⟨haccepted, hbefore⟩ := hreads left (stronger left hleft)
    exact ⟨haccepted, weaker _ hbefore⟩

theorem bind {next : α → Parser β} {others : List Token.Kind} {between : Cursor → Prop}
    (hfirst : Takes parser taken kinds between before)
    (hnext : ∀ value, Takes (next value) [] others follow between) :
    Takes (parser >>= next) taken (kinds ++ others) follow before where
  endless := by
    obtain ⟨value, -⟩ := hfirst.reads (kinds.map fun kind => ⟨kind, .start⟩)
      (by simp [Function.comp_def])
    simp [hfirst.endless, (hnext value).endless]
  reads more hmore := by
    obtain ⟨first, second, rfl, hfirstKinds, hsecondKinds⟩ := List.map_eq_append_iff.1 hmore
    obtain ⟨value, hvalue⟩ := hfirst.reads first hfirstKinds
    obtain ⟨result, hresult⟩ := (hnext value).reads second hsecondKinds
    refine ⟨result, fun left hleft => ?_⟩
    obtain ⟨hsecond, hbetween⟩ := hresult left hleft
    obtain ⟨haccepted, hbefore⟩ := hvalue _ hbetween
    rw [← List.append_assoc, Cursor.prepend_append]
    exact ⟨(bind_of_accepted haccepted).trans hsecond, hbefore⟩

theorem pure {value : α} : Takes (pure value) [] [] follow follow where
  endless := nofun
  reads more hmore := by
    cases List.map_eq_nil_iff.1 hmore
    exact ⟨value, fun left hleft => ⟨rfl, hleft⟩⟩

theorem map {f : α → β} (h : Takes parser taken kinds follow before) :
    Takes (parser >>= fun value => Pure.pure (f value)) taken kinds follow before := by
  have hwhole : Takes (parser >>= fun value => Pure.pure (f value)) taken (kinds ++ []) follow
      before := h.bind fun value => pure
  rwa [List.append_nil] at hwhole

/-- Parsers that agree at the cursors in question take the same. -/
theorem congr {reader : Parser α} (h : Takes reader taken kinds follow before)
    (same : ∀ cursor value rest, before cursor → reader cursor = .accepted value rest →
      parser cursor = reader cursor) : Takes parser taken kinds follow before where
  endless := h.endless
  reads more hmore := by
    obtain ⟨value, hreads⟩ := h.reads more hmore
    refine ⟨value, fun left hleft => ?_⟩
    obtain ⟨haccepted, hbefore⟩ := hreads left hleft
    exact ⟨(same _ _ _ hbefore haccepted).trans haccepted, hbefore⟩

/-- A token of one kind. -/
theorem token {kind : Token.Kind} (some' : kind ≠ .endOfFile)
    (reads : ∀ token : Token, token.kind = kind → ∃ value, ∀ left, follow left →
      parser (left.prepend [token]) = .accepted value left) :
    Takes parser [] [kind] follow (fun cursor => cursor.kind = kind) where
  endless := by simpa using some'.symm
  reads more hmore := by
    obtain ⟨token, rfl, hkind⟩ := List.map_eq_singleton_iff.1 hmore
    obtain ⟨value, hvalue⟩ := reads token hkind
    exact ⟨value, fun left hleft => ⟨hvalue left hleft, hkind⟩⟩

theorem expect {kind : Token.Kind} (some' : kind ≠ .endOfFile) :
    Takes (Parser.expect kind) [] [kind] follow (fun cursor => cursor.kind = kind) :=
  token some' fun token hkind => ⟨token.position, fun _ _ => if_pos hkind⟩

theorem expectClosing (opening closing : Mark) (openedAt : Position) :
    Takes (Parser.expectClosing opening closing openedAt) [] [.mark closing] follow
      (fun cursor => cursor.kind = .mark closing) :=
  token nofun fun token hkind => ⟨(), fun _ _ => by simp [Parser.expectClosing, hkind]⟩

/-- A name in the place of another one. -/
abbrev anyName : Token.Kind := .identifier "x" false

theorem identifier :
    Takes Parser.identifier [] [anyName] follow (fun cursor => cursor.kind = anyName) :=
  token nofun fun token hkind => by
    obtain ⟨kind, position⟩ := token
    cases hkind
    exact ⟨{ name := "x", negative := false, position }, fun _ _ => rfl⟩

end Takes

/-! ## First impossible tokens -/

/-- The token at a cursor is the first that is impossible for a parser: whatever follows it, the parser
does not accept what was taken with it, and some tokens without it would have gone on. -/
structure FirstImpossible (before : View) (follow : Cursor → Prop) (parser : Parser α)
    (cursor : Cursor) (taken : List Token) (rest : Cursor) : Prop where
  split : cursor = rest.prepend taken
  final : ∀ left : Cursor, left.kind = rest.kind → before cursor (left.prepend taken) ∧
    ∀ value after, parser (left.prepend taken) ≠ .accepted value after
  goesOn : ∃ kinds, Takes parser taken kinds follow (before cursor)

/-- What a parser rejects at a cursor is the first token that is impossible for another parser. -/
def PromptAt (cursor : Cursor) (before : View) (follow : Cursor → Prop)
    (parser parser' : Parser α) : Prop :=
  ∀ error, parser cursor = .rejected error → error.cause ≠ .assignmentToExpression →
    ∃ taken rest, error.position = rest.position ∧
      FirstImpossible before follow parser' cursor taken rest

/-- What a parser rejects is the first token that is impossible. -/
def Prompt (before : View) (follow : Cursor → Prop) (parser parser' : Parser α) : Prop :=
  ∀ cursor, PromptAt cursor before follow parser parser'

namespace FirstImpossible

variable {before : View} {follow : Cursor → Prop} {parser : Parser α} {cursor rest : Cursor}
  {taken : List Token}

theorem mono (h : FirstImpossible before follow parser cursor taken rest) {before' : View}
    {follow' : Cursor → Prop} (weaker : ∀ cursor', before cursor cursor' → before' cursor cursor')
    (stronger : ∀ left, follow' left → follow left) :
    FirstImpossible before' follow' parser cursor taken rest where
  split := h.split
  final left hleft := (h.final left hleft).imp (weaker _) id
  goesOn := h.goesOn.imp fun _ htakes => htakes.mono stronger weaker

/-- A sequence goes on behind what its first part needs. -/
theorem first {next : α → Parser β} {between : Cursor → Prop}
    (h : FirstImpossible before between parser cursor taken rest)
    (hnext : ∃ kinds, ∀ value, Takes (next value) [] kinds follow between) :
    FirstImpossible before follow (parser >>= next) cursor taken rest where
  split := h.split
  final left hleft := by
    refine (h.final left hleft).imp id fun hnone value after hread => ?_
    obtain ⟨head, middle, hfirst, -⟩ := bind_eq_accepted.1 hread
    exact hnone head middle hfirst
  goesOn := by
    obtain ⟨kinds, htakes⟩ := h.goesOn
    obtain ⟨others, hothers⟩ := hnext
    exact ⟨kinds ++ others, htakes.bind hothers⟩

/-- What is impossible for the second part of a sequence is impossible behind the first. -/
theorem second {between : View} {next : α → Parser β} {value : α} {middle : Cursor}
    {more : List Token} (here : cursor = middle.prepend taken)
    (hparser : ∀ left, between middle left →
      parser (left.prepend taken) = .accepted value left ∧ before cursor (left.prepend taken))
    (h : FirstImpossible between follow (next value) middle more rest) :
    FirstImpossible before follow (parser >>= next) cursor (taken ++ more) rest where
  split := by rw [here, h.split, Cursor.prepend_append]
  final left hleft := by
    obtain ⟨hbetween, hnone⟩ := h.final left hleft
    obtain ⟨haccepted, hbefore⟩ := hparser _ hbetween
    rw [Cursor.prepend_append]
    refine ⟨hbefore, fun value' after hread => hnone value' after ?_⟩
    exact (bind_of_accepted haccepted).symm.trans hread
  goesOn := by
    obtain ⟨_, hendless, hreads⟩ := h.goesOn
    refine ⟨_, hendless, fun further hfurther => ?_⟩
    obtain ⟨result, hresult⟩ := hreads further hfurther
    refine ⟨result, fun left hleft => ?_⟩
    obtain ⟨hsecond, hbetween⟩ := hresult left hleft
    obtain ⟨haccepted, hbefore⟩ := hparser _ hbetween
    rw [List.append_assoc, Cursor.prepend_append]
    exact ⟨(bind_of_accepted haccepted).trans hsecond, hbefore⟩

theorem congr {reader : Parser α} (h : FirstImpossible before follow reader cursor taken rest)
    (same : ∀ cursor', before cursor cursor' → parser cursor' = reader cursor') :
    FirstImpossible before follow parser cursor taken rest where
  split := h.split
  final left hleft := by
    obtain ⟨hbefore, hnone⟩ := h.final left hleft
    exact ⟨hbefore, by rwa [same _ hbefore]⟩
  goesOn := h.goesOn.imp fun kinds htakes => htakes.congr fun _ _ _ hbefore _ => same _ hbefore

end FirstImpossible

namespace PromptAt

variable {cursor : Cursor} {before : View} {follow : Cursor → Prop} {parser parser' : Parser α}

/-! ### Steps -/

theorem mono {before' : View} {follow' : Cursor → Prop}
    (h : PromptAt cursor before follow parser parser')
    (weaker : ∀ cursor', before cursor cursor' → before' cursor cursor')
    (stronger : ∀ left, follow' left → follow left) :
    PromptAt cursor before' follow' parser parser' := by
  intro error hread hcause
  obtain ⟨taken, rest, hposition, himpossible⟩ := h error hread hcause
  exact ⟨taken, rest, hposition, himpossible.mono weaker stronger⟩

/-- Less may be said of the cursors before. -/
theorem widen (stronger : View) {weaker : View} (h : PromptAt cursor stronger follow parser parser')
    (weaken : ∀ cursor', stronger cursor cursor' → weaker cursor cursor') :
    PromptAt cursor weaker follow parser parser' :=
  h.mono weaken fun _ hfollow => hfollow

/-- A parser that does not reject is prompt. -/
theorem sure (h : ∀ error, parser cursor ≠ .rejected error) :
    PromptAt cursor before follow parser parser' :=
  fun error hread => absurd hread (h error)

theorem accepted {value : α} {rest : Cursor} (h : parser cursor = .accepted value rest) :
    PromptAt cursor before follow parser parser' :=
  sure fun error hread => by cases h.symm.trans hread

theorem exhausted : PromptAt cursor before follow Parser.exhausted parser' :=
  sure fun _ hread => by cases hread

/-- A token that is rejected at once, where another one would have gone on. -/
theorem reject {fresh : Token.Kind} {kinds : List Token.Kind} {cause : SyntaxError.Cause}
    (here : parser cursor = .rejected ⟨cause, cursor.position⟩)
    (final : ∀ left : Cursor, left.kind = cursor.kind → ∀ value after,
      parser' left ≠ .accepted value after)
    (instead : ∀ cursor', Instead [fresh] cursor cursor' → before cursor cursor')
    (takes : Takes parser' [] kinds follow fun cursor' => cursor'.kind = fresh) :
    PromptAt cursor before follow parser parser' := by
  intro error hread _
  cases here.symm.trans hread
  refine ⟨[], cursor, rfl, rfl, fun left hleft => ?_, kinds, ?_⟩
  · exact ⟨instead left (.inl hleft.symm), final left hleft⟩
  · exact takes.mono (fun _ h => h) fun cursor' hkind => instead cursor' (.inr (by simp [hkind]))

theorem congr {reader reader' : Parser α} (h : PromptAt cursor before follow reader reader')
    (here : parser cursor = reader cursor)
    (there : ∀ cursor', before cursor cursor' → parser' cursor' = reader' cursor') :
    PromptAt cursor before follow parser parser' := by
  intro error hread hcause
  obtain ⟨taken, rest, hposition, himpossible⟩ := h error (here ▸ hread) hcause
  exact ⟨taken, rest, hposition, himpossible.congr there⟩

theorem here {next next' : Position → Parser α}
    (hnext : PromptAt cursor before follow (next cursor.position) (next' cursor.position))
    (same : ∀ cursor', before cursor cursor' → cursor.position = cursor'.position) :
    PromptAt cursor before follow (Parser.here >>= next) (Parser.here >>= next') :=
  hnext.congr rfl fun cursor' hbefore => by
    rw [same cursor' hbefore]
    rfl

/-- A sequence rejects where its first part does, or behind that where its second part does. -/
theorem bind (between : α → View) (middle : Cursor → Prop) {next next' : α → Parser β}
    (hfirst : PromptAt cursor before middle parser parser')
    (hlocal : LocalAt cursor before between parser parser')
    (hnext : ∀ value rest, parser cursor = .accepted value rest →
      PromptAt rest (between value) follow (next value) (next' value))
    (htakes : ∃ kinds, ∀ value, Takes (next' value) [] kinds follow middle) :
    PromptAt cursor before follow (parser >>= next) (parser' >>= next') := by
  intro error hread hcause
  obtain hread | ⟨value, rest, hhead, hread⟩ := bind_eq_rejected.1 hread
  · obtain ⟨taken, rest, hposition, himpossible⟩ := hfirst error hread hcause
    exact ⟨taken, rest, hposition, himpossible.first htakes⟩
  · obtain ⟨taken, hcursor, hleft⟩ := hlocal value rest hhead
    obtain ⟨more, rest', hposition, himpossible⟩ := hnext value rest hhead error hread hcause
    exact ⟨taken ++ more, rest', hposition, himpossible.second hcursor hleft⟩

/-- Nothing is rejected where something is made of what was read. -/
theorem map {f : α → β} (h : PromptAt cursor before follow parser parser') :
    PromptAt cursor before follow (parser >>= fun value => Pure.pure (f value))
      (parser' >>= fun value => Pure.pure (f value)) := by
  intro error hread hcause
  obtain hread | ⟨value, rest, hhead, hread⟩ := bind_eq_rejected.1 hread
  · obtain ⟨taken, rest, hposition, himpossible⟩ := h error hread hcause
    exact ⟨taken, rest, hposition, himpossible.first ⟨[], fun _ => .pure⟩⟩
  · cases hread

/-- Behind what it accepts first, a sequence is as prompt as what it goes on with. -/
theorem andThen {between : α → View} {next next' : α → Parser β} {value : α} {rest : Cursor}
    (hread : parser cursor = .accepted value rest)
    (hlocal : LocalAt cursor before between parser parser')
    (hnext : PromptAt rest (between value) follow (next value) (next' value)) :
    PromptAt cursor before follow (parser >>= next) (parser' >>= next') := by
  intro error herror hcause
  obtain ⟨taken, hcursor, hleft⟩ := hlocal value rest hread
  obtain ⟨more, rest', hposition, himpossible⟩ :=
    hnext error ((bind_of_accepted hread).symm.trans herror) hcause
  exact ⟨taken ++ more, rest', hposition, himpossible.second hcursor hleft⟩

/-- The same behind a token that is taken whatever follows. -/
theorem step {behind : View} {later later' : Parser α} (some' : cursor.kind ≠ .endOfFile)
    (here : parser cursor = later cursor.next)
    (there : ∀ cursor', SameHead Anywhere cursor cursor' → parser' cursor' = later' cursor'.next)
    (h : PromptAt cursor.next behind follow later later') :
    PromptAt cursor (SameHead behind) follow parser parser' := by
  have hskip : PromptAt cursor (SameHead behind) follow (Parser.skip >>= fun _ => later)
      (Parser.skip >>= fun _ => later') :=
    .andThen rfl (LocalAt.skip some') h
  refine hskip.congr here fun cursor' hhead => there cursor' ?_
  exact hhead.mono fun _ _ _ => trivial

/-- Where the kind of the second token tells two parsers apart, one of them is as prompt as the
other: the token that is rejected is the second one or stands behind it. -/
theorem bySecond {reader reader' : Parser α}
    (h : PromptAt cursor (SameHead Anywhere) follow reader reader') (here : parser cursor = reader cursor)
    (second : ∀ cursor' : Cursor, SameHead Anywhere cursor cursor' →
      cursor'.kindAt 1 = cursor.kindAt 1 → parser' cursor' = reader' cursor')
    (accepts : ∀ cursor' value after, SameHead Anywhere cursor cursor' →
      reader' cursor' = .accepted value after → parser' cursor' = reader' cursor') :
    PromptAt cursor (SameHead Anywhere) follow parser parser' := by
  intro error hread hcause
  obtain ⟨taken, rest, hposition, himpossible⟩ := h error (here ▸ hread) hcause
  refine ⟨taken, rest, hposition, himpossible.split, fun left hleft => ?_, ?_⟩
  · obtain ⟨hbefore, hnone⟩ := himpossible.final left hleft
    have hsecond : (left.prepend taken).kindAt 1 = cursor.kindAt 1 := by
      rw [himpossible.split]
      match taken with
      | [] =>
          -- The first token would be rejected wherever it stands, but it stands where it does.
          have hplace (position : Position) : cursor.position = position :=
            (himpossible.final (rest.prepend [⟨rest.kind, position⟩]) rfl).1.position
          cases (hplace .start).symm.trans (hplace .synthetic)
      | [first] =>
          rw [Cursor.kindAt_one, Cursor.kindAt_one]
          exact hleft
      | first :: other :: others => rfl
    rw [second _ hbefore hsecond]
    exact ⟨hbefore, hnone⟩
  · exact himpossible.goesOn.imp fun kinds htakes => htakes.congr accepts

end PromptAt

/-! ### Tokens -/

namespace Prompt

variable {before : View} {follow : Cursor → Prop}

section

variable {parser parser' : Parser α}

theorem mono {before' : View} {follow' : Cursor → Prop} (h : Prompt before follow parser parser')
    (weaker : ∀ cursor cursor', before cursor cursor' → before' cursor cursor')
    (stronger : ∀ left, follow' left → follow left) : Prompt before' follow' parser parser' :=
  fun cursor => (h cursor).mono (weaker cursor) stronger

/-- Less may be said of the cursors before. -/
theorem widen (stronger : View) {weaker : View} (h : Prompt stronger follow parser parser')
    (weaken : ∀ cursor cursor', stronger cursor cursor' → weaker cursor cursor') :
    Prompt weaker follow parser parser' :=
  fun cursor => (h cursor).widen stronger (weaken cursor)

theorem map {f : α → β} (h : Prompt before follow parser parser') :
    Prompt before follow (parser >>= fun value => Pure.pure (f value))
      (parser' >>= fun value => Pure.pure (f value)) :=
  fun cursor => (h cursor).map

end

theorem expect (kind : Token.Kind) (some' : kind ≠ .endOfFile)
    (instead : ∀ cursor cursor', Instead [kind] cursor cursor' → before cursor cursor') :
    Prompt before follow (Parser.expect kind) (Parser.expect kind) := by
  intro cursor
  by_cases hkind : cursor.kind = kind
  · exact .accepted (if_pos hkind)
  · refine .reject (if_neg hkind) (fun left hleft value after hread => ?_) (instead cursor)
      (.expect some')
    exact hkind (hleft ▸ (expect_eq_accepted hread).1)

theorem identifier
    (instead : ∀ cursor cursor', Instead [Takes.anyName] cursor cursor' → before cursor cursor') :
    Prompt before follow Parser.identifier Parser.identifier := by
  intro cursor
  cases hkind : cursor.kind.isIdentifier with
  | true =>
      obtain ⟨name, negative, hname⟩ := Token.Kind.eq_identifier hkind
      refine .sure fun error hread => ?_
      simp [Parser.identifier, hname] at hread
  | false =>
      have hread : Parser.identifier cursor =
          .rejected ⟨.expectedIdentifier cursor.kind, cursor.position⟩ := by
        unfold Parser.identifier
        split
        · rename_i hname
          rw [hname] at hkind
          cases hkind
        · rfl
      refine .reject hread (fun left hleft value after hread => ?_) (instead cursor) .identifier
      rw [← hleft, (identifier_eq_accepted hread).1] at hkind
      cases hkind

/-- Where something is to be closed, what closes it is told from all else. -/
theorem expectClosing (opening closing : Mark) (openedAt : Position)
    (instead : ∀ cursor cursor', cursor.kind ≠ .mark closing →
      Instead [.mark closing] cursor cursor' → before cursor cursor') :
    Prompt before follow (Parser.expectClosing opening closing openedAt)
      (Parser.expectClosing opening closing openedAt) := by
  intro cursor
  by_cases hkind : cursor.kind = .mark closing
  · have hread : Parser.expectClosing opening closing openedAt cursor =
        .accepted () cursor.next := by
      simp [Parser.expectClosing, hkind]
    exact .accepted hread
  · have hreads : ∀ left : Cursor, left.kind = cursor.kind → ∃ cause,
        Parser.expectClosing opening closing openedAt left =
          .rejected ⟨cause, left.position⟩ := by
      intro left hleft
      unfold Parser.expectClosing
      split
      · exact ⟨_, rfl⟩
      · rw [hleft, if_neg hkind]
        exact ⟨_, rfl⟩
    obtain ⟨cause, hread⟩ := hreads cursor rfl
    refine .reject hread (fun left hleft value after hread => ?_)
      (fun cursor' => instead cursor cursor' hkind) (.expectClosing _ _ _)
    obtain ⟨cause, hrejected⟩ := hreads left hleft
    cases hrejected.symm.trans hread

end Prompt

/-! ### Sequences -/

/-- A parser is prompt, and tokens of some kinds are all that it needs. -/
structure Expects (before : View) (kinds : List Token.Kind) (above follow : Cursor → Prop)
    (parser parser' : Parser α) : Prop where
  prompt : Prompt before follow parser parser'
  takes : Takes parser' [] kinds follow above

namespace Expects

variable {before : View} {kinds : List Token.Kind} {above follow : Cursor → Prop}

section

variable {parser parser' : Parser α}

theorem mono (h : Expects before kinds above follow parser parser') {before' : View}
    {above' follow' : Cursor → Prop}
    (wider : ∀ cursor cursor', before cursor cursor' → before' cursor cursor')
    (weaker : ∀ cursor, above cursor → above' cursor)
    (stronger : ∀ left, follow' left → follow left) :
    Expects before' kinds above' follow' parser parser' where
  prompt := h.prompt.mono wider stronger
  takes := h.takes.mono stronger weaker

theorem bind (between : α → View) {middle : Cursor → Prop} {others : List Token.Kind}
    {next next' : α → Parser β} (hlocal : Local before between parser parser')
    (hfirst : Expects before kinds above middle parser parser')
    (hnext : ∀ value, Expects (between value) others middle follow (next value) (next' value)) :
    Expects before (kinds ++ others) above follow (parser >>= next) (parser' >>= next') where
  prompt cursor := (hfirst.prompt cursor).bind between middle (hlocal cursor)
    (fun value rest _ => (hnext value).prompt rest) ⟨others, fun value => (hnext value).takes⟩
  takes := hfirst.takes.bind fun value => (hnext value).takes

theorem map {f : α → β} (h : Expects before kinds above follow parser parser') :
    Expects before kinds above follow (parser >>= fun value => Pure.pure (f value))
      (parser' >>= fun value => Pure.pure (f value)) where
  prompt := h.prompt.map
  takes := h.takes.map

end

theorem expect (kind : Token.Kind) (some' : kind ≠ .endOfFile) :
    Expects (Instead [kind]) [kind] (fun cursor => cursor.kind = kind) follow (Parser.expect kind)
      (Parser.expect kind) where
  prompt := .expect kind some' fun _ _ h => h
  takes := .expect some'

theorem identifier :
    Expects (Instead [Takes.anyName]) [Takes.anyName] (fun cursor => cursor.kind = Takes.anyName)
      follow Parser.identifier Parser.identifier where
  prompt := .identifier fun _ _ h => h
  takes := .identifier

theorem expectClosing (opening closing : Mark) (openedAt : Position)
    (instead : ∀ cursor cursor', cursor.kind ≠ .mark closing →
      Instead [.mark closing] cursor cursor' → before cursor cursor') :
    Expects before [.mark closing] (fun cursor => cursor.kind = .mark closing) follow
      (Parser.expectClosing opening closing openedAt)
      (Parser.expectClosing opening closing openedAt) where
  prompt := .expectClosing opening closing openedAt instead
  takes := .expectClosing opening closing openedAt

/-- A token of some kind, and what stands behind it. -/
theorem behind (kind : Token.Kind) (some' : kind ≠ .endOfFile) {behind : View}
    {middle : Cursor → Prop} {next next' : Position → Parser α}
    (hnext : ∀ position, Expects behind kinds middle follow (next position) (next' position)) :
    Expects (Instead [kind]) (kind :: kinds) (fun cursor => cursor.kind = kind) follow
      (Parser.expect kind >>= next) (Parser.expect kind >>= next') :=
  bind (fun _ => behind) ((Local.expect kind some').widen _ fun _ _ h => .inl h.kind)
    (expect kind some') hnext

end Expects

/-! ### Loops -/

section

variable {view behind : View} {follow ended : Cursor → Prop} {item item' : Parser α} {start : Token.Kind}
  {bound bound' : Nat} {cursor : Cursor}

/-- An item, and as many more as have a sign before them. -/
def listed (start : Token.Kind) (item : Parser α) (bound : Nat) : Parser (List α) := do
  let first ← item
  let rest ← many start item bound
  return first :: rest

theorem many_of_start (h : cursor.kind = start) :
    many start item (bound + 1) cursor = listed start item bound cursor.next :=
  bind_of_accepted (eat?_of_eq h)

theorem many_of_ne (h : cursor.kind ≠ start) :
    many start item (bound + 1) cursor = .accepted [] cursor :=
  bind_of_accepted (eat?_of_ne h)

/-- A loop stops where its sign does not stand. -/
theorem many_stops {values : List α} {rest : Cursor}
    (h : many start item bound cursor = .accepted values rest) : rest.kind ≠ start := by
  induction bound generalizing cursor values with
  | zero => cases h
  | succ bound ih =>
      by_cases hstart : cursor.kind = start
      · rw [many_of_start hstart] at h
        obtain ⟨first, middle, -, h⟩ := bind_eq_accepted.1 h
        obtain ⟨others, after, hothers, h⟩ := bind_eq_accepted.1 h
        cases h
        exact ih hothers
      · cases (many_of_ne hstart).symm.trans h
        exact hstart

theorem many_takes (hfollow : ∀ left, follow left → left.kind ≠ start) (hbound : 0 < bound) :
    Takes (many start item bound) [] [] follow follow where
  endless := nofun
  reads more hmore := by
    obtain _ | bound := bound
    · omega
    · cases List.map_eq_nil_iff.1 hmore
      exact ⟨[], fun left hleft => ⟨many_of_ne (hfollow left hleft), hleft⟩⟩

theorem listed_prompt {before : View} (hitem : PromptAt cursor before ended item item')
    (hlocal : LocalAt cursor before (fun _ => view) item item')
    (hmany : Prompt view follow (many start item bound) (many start item' bound'))
    (hfollow : ∀ left, follow left → left.kind ≠ start ∧ ended left) (hbound : 0 < bound') :
    PromptAt cursor before follow (listed start item bound) (listed start item' bound') := by
  have htakes : Takes (many start item' bound') [] [] follow follow :=
    many_takes (fun left h => (hfollow left h).1) hbound
  refine hitem.bind _ ended hlocal (fun first rest _ => (hmany rest).map) ⟨[], fun first => ?_⟩
  exact htakes.map.mono (fun _ h => h) fun cursor h => (hfollow cursor h).2

/-- A loop over a sign is as prompt as its items. -/
theorem many_prompt (lt : bound < bound') (some' : start ≠ .endOfFile)
    (tells : Tells view behind start) (hlocal : Local behind (fun _ => view) item item')
    (hitem : Prompt behind ended item item')
    (hfollow : ∀ left, follow left → left.kind ≠ start ∧ ended left) :
    Prompt view follow (many start item bound) (many start item' bound') := by
  induction bound generalizing bound' with
  | zero => exact fun _ => .exhausted
  | succ bound ih =>
      obtain _ | bound' := bound'
      · omega
      · intro cursor
        by_cases hstart : cursor.kind = start
        · have hlt := Nat.lt_of_succ_lt_succ lt
          refine .widen (SameHead behind) ?_ fun _ h => tells.head h hstart
          refine .step (hstart ▸ some') (many_of_start hstart)
            (fun cursor' hhead => many_of_start (hhead.kind.symm.trans hstart)) ?_
          exact listed_prompt (hitem _) (hlocal _) (ih hlt) hfollow (Nat.zero_lt_of_lt hlt)
        · exact .accepted (many_of_ne hstart)

theorem many_expects (lt : bound < bound') (some' : start ≠ .endOfFile)
    (tells : Tells view behind start) (hlocal : Local behind (fun _ => view) item item')
    (hitem : Prompt behind ended item item')
    (hfollow : ∀ left, follow left → left.kind ≠ start ∧ ended left) :
    Expects view [] follow follow (many start item bound) (many start item' bound') where
  prompt := many_prompt lt some' tells hlocal hitem hfollow
  takes := many_takes (fun left h => (hfollow left h).1) (Nat.zero_lt_of_lt lt)

/-! ### Enclosures -/

section Enclosures

variable {closing : Mark} {goesOn : Token.Kind → Bool} {fresh : Token.Kind}

theorem separated_of_closing (h : cursor.kind = .mark closing) :
    separated closing item bound cursor = .accepted [] cursor := by
  change (if cursor.kind = .mark closing then _ else _ : Parser (List α)) cursor = _
  rw [if_pos h]
  rfl

theorem separated_of_ne (h : cursor.kind ≠ .mark closing) :
    separated closing item bound cursor = listed (.mark .comma) item bound cursor := by
  change (if cursor.kind = .mark closing then _ else _ : Parser (List α)) cursor = _
  rw [if_neg h]
  rfl

/-- Items in an enclosure are as prompt as each of them. -/
theorem separated_expects (lt : bound < bound') (comma : goesOn (.mark .comma) = true)
    (noComma : closing ≠ .comma) (hlocal : Local SameStart (fun _ => Stays goesOn) item item')
    (hitem : Prompt (Instead [fresh]) ended item item') (new : fresh ≠ .mark closing)
    (hended : ∀ left : Cursor, left.kind = .mark closing → ended left) :
    Expects (Instead [fresh]) [] (fun left => left.kind = .mark closing)
      (fun left => left.kind = .mark closing) (separated closing item bound)
      (separated closing item' bound') where
  prompt := by
    intro cursor
    by_cases hkind : cursor.kind = .mark closing
    · exact .accepted (separated_of_closing hkind)
    · have hfollow : ∀ left : Cursor, left.kind = .mark closing →
          left.kind ≠ .mark .comma ∧ ended left := by
        refine fun left hleft => ⟨?_, hended left hleft⟩
        rw [hleft]
        simpa using noComma
      have hmany : Prompt (Stays goesOn) (fun left => left.kind = .mark closing)
          (many (.mark .comma) item bound) (many (.mark .comma) item' bound') :=
        many_prompt lt nofun (.stays comma) (hlocal.widen _ fun _ _ _ => trivial)
          (hitem.widen _ fun _ _ _ => trivial) hfollow
      have hlisted := listed_prompt (hitem cursor) ((hlocal cursor).widen _ fun _ h => .inl h.kind)
        hmany hfollow (Nat.zero_lt_of_lt lt)
      refine hlisted.congr (separated_of_ne hkind) fun cursor' hinstead => separated_of_ne ?_
      rcases hinstead with hsame | hfresh
      · rwa [← hsame]
      · rwa [List.mem_singleton.1 hfresh]
  takes := {
    endless := nofun
    reads := fun more hmore => by
      cases List.map_eq_nil_iff.1 hmore
      exact ⟨[], fun left hleft => ⟨separated_of_closing hleft, hleft⟩⟩ }

/-- An enclosure is as prompt as its items. -/
theorem delimited_expects (opening closing : Mark) (lt : bound < bound')
    (comma : goesOn (.mark .comma) = true) (noComma : closing ≠ .comma)
    (ends : goesOn (.mark closing) = false)
    (hlocal : Local SameStart (fun _ => Stays goesOn) item item')
    (hitem : Prompt (Instead [fresh]) ended item item') (new : fresh ≠ .mark closing)
    (hended : ∀ left : Cursor, left.kind = .mark closing → ended left) :
    Expects (Instead [.mark opening]) [.mark opening, .mark closing]
      (fun cursor => cursor.kind = .mark opening) follow (delimited opening closing item bound)
      (delimited opening closing item' bound') := by
  have hclosed : ∀ cursor cursor' : Cursor, cursor.kind ≠ .mark closing →
      Instead [.mark closing] cursor cursor' → Closes closing goesOn cursor cursor' := by
    refine fun cursor cursor' hkind h => ⟨fun hclosed => absurd hclosed hkind, h.stays ?_⟩
    intro kind hmem
    rwa [List.mem_singleton.1 hmem]
  exact .behind (.mark opening) nofun fun openedAt => .bind (fun _ => Closes closing goesOn)
    ((Local.separated (Nat.le_of_lt lt) closing comma hlocal).widen _ fun _ _ h => .inl h)
    (separated_expects lt comma noComma hlocal hitem new hended) fun items =>
      (Expects.expectClosing opening closing openedAt hclosed).map

end Enclosures

end

end Parser

end Grammar
end Bir
