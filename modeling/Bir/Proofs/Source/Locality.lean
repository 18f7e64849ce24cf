import Bir.Grammar.Parser

/-!
# Locality — a reading depends on what it takes

A parser that accepts takes tokens from the front of its cursor.  Beyond them it looks at no more
than the kinds of the next two tokens, and only to see whether they go on with what it reads.  This
file defines:

* `Cursor.prepend` — a cursor with tokens before it;
* `View` — what two cursors have in common in what stands next: `Stays`, `SameKind`, `SameHead`,
  `SameView`, `SameStart` and `Closes`;
* `Tells view behind start` — a view tells whether a token of some kind stands next;
* `Parser.Local before after parser parser'` — what `parser` accepts, `parser'` accepts wherever
  the taken tokens stand, if what follows them is alike in the sense of `after`; the cursors before
  them are then alike in the sense of `before`.

There is one rule for each step, loop and enclosure.  `parser'` is `parser`, or the same parser with
a greater bound.
-/

namespace Bir
namespace Grammar

/-! ## Cursors -/

namespace Cursor

/-- A cursor with tokens before it. -/
def prepend (taken : List Token) (cursor : Cursor) : Cursor :=
  { cursor with tokens := taken ++ cursor.tokens }

variable (cursor : Cursor) (token : Token)

@[simp]
theorem prepend_nil : cursor.prepend [] = cursor := rfl

@[simp]
theorem prepend_append (taken more : List Token) :
    cursor.prepend (taken ++ more) = (cursor.prepend more).prepend taken := by
  simp [prepend]

@[simp]
theorem kind_prepend_singleton : (cursor.prepend [token]).kind = token.kind := rfl

@[simp]
theorem position_prepend_singleton : (cursor.prepend [token]).position = token.position := rfl

@[simp]
theorem next_prepend_singleton : (cursor.prepend [token]).next = cursor := rfl

theorem kindAt_one : cursor.kindAt 1 = cursor.next.kind := by
  obtain ⟨tokens, stop⟩ := cursor
  unfold kindAt kind next
  rcases tokens with _ | ⟨first, _ | ⟨second, rest⟩⟩ <;> rfl

/-- Before the end of the file stands a token. -/
theorem eq_prepend_next {cursor : Cursor} (some' : cursor.kind ≠ .endOfFile) :
    ∃ token, cursor = cursor.next.prepend [token] := by
  obtain ⟨tokens, stop⟩ := cursor
  cases tokens with
  | nil => exact absurd rfl some'
  | cons token rest => exact ⟨token, rfl⟩

end Cursor

/-! ## Views -/

/-- What two cursors have in common. -/
abbrev View := Cursor → Cursor → Prop

/-- Nothing in common. -/
def Anywhere : View := fun _ _ => True

/-- The kinds of the next tokens are the same, or the one of the second cursor does not go on. -/
def Stays (goesOn : Token.Kind → Bool) : View := fun cursor cursor' =>
  goesOn cursor'.kind → cursor.kind = cursor'.kind

/-- The next tokens are of the same kind. -/
def SameKind : View := fun cursor cursor' => cursor.kind = cursor'.kind

/-- The next token is the same, and what follows it is alike. -/
def SameHead (behind : View) : View := fun cursor cursor' =>
  ∃ token rest rest', cursor = Cursor.prepend [token] rest ∧
    cursor' = Cursor.prepend [token] rest' ∧ behind rest rest'

/-- The next tokens are of the same kind, and so are those after an opening brace. -/
structure SameView (cursor cursor' : Cursor) : Prop where
  kind : cursor.kind = cursor'.kind
  second : cursor.kind = .mark .leftBrace → cursor.kindAt 1 = cursor'.kindAt 1

/-- The next tokens are of the same kind at the same position, and those after an opening brace are
of the same kind. -/
structure SameStart (cursor cursor' : Cursor) : Prop extends SameView cursor cursor' where
  position : cursor.position = cursor'.position

/-- What closes stays, and the next token of the second cursor does not go on if that of the first
does not. -/
structure Closes (closing : Mark) (goesOn : Token.Kind → Bool) (cursor cursor' : Cursor) : Prop where
  closed : cursor.kind = .mark closing → cursor'.kind = .mark closing
  stays : Stays goesOn cursor cursor'

/-- A token of the given kind stands next at the second cursor where it does at the first, and
nowhere else, if what follows it is alike. -/
structure Tells (view behind : View) (start : Token.Kind) : Prop where
  among : ∀ {cursor cursor'}, view cursor cursor' → cursor'.kind = start → cursor.kind = start
  head : ∀ {cursor cursor'}, SameHead behind cursor cursor' → cursor.kind = start →
    view cursor cursor'

section

variable {cursor cursor' : Cursor} {goesOn : Token.Kind → Bool} {behind : View}

theorem Stays.of_kind (h : cursor.kind = cursor'.kind) : Stays goesOn cursor cursor' := fun _ => h

theorem Stays.mono {goesOn' : Token.Kind → Bool} (h : Stays goesOn cursor cursor')
    (fewer : ∀ kind, goesOn' kind → goesOn kind) : Stays goesOn' cursor cursor' :=
  fun hgoes => h (fewer _ hgoes)

theorem SameHead.kind (h : SameHead behind cursor cursor') : cursor.kind = cursor'.kind := by
  obtain ⟨token, rest, rest', rfl, rfl, -⟩ := h
  rfl

theorem SameHead.position (h : SameHead behind cursor cursor') :
    cursor.position = cursor'.position := by
  obtain ⟨token, rest, rest', rfl, rfl, -⟩ := h
  rfl

theorem Tells.stays {start : Token.Kind} (among : goesOn start = true) :
    Tells (Stays goesOn) behind start where
  among h hstart := (h (hstart ▸ among)).trans hstart
  head h _ := .of_kind h.kind

theorem SameHead.second (h : SameHead SameKind cursor cursor') :
    cursor.kindAt 1 = cursor'.kindAt 1 := by
  obtain ⟨token, rest, rest', rfl, rfl, hrest⟩ := h
  rw [Cursor.kindAt_one, Cursor.kindAt_one]
  exact hrest

theorem SameHead.mono {behind' : View} (h : SameHead behind cursor cursor')
    (weaker : ∀ rest rest', behind rest rest' → behind' rest rest') :
    SameHead behind' cursor cursor' := by
  obtain ⟨token, rest, rest', hcursor, hcursor', hrest⟩ := h
  exact ⟨token, rest, rest', hcursor, hcursor', weaker _ _ hrest⟩

theorem SameHead.sameStart (h : SameHead SameKind cursor cursor') : SameStart cursor cursor' where
  kind := h.kind
  second _ := h.second
  position := h.position

theorem SameHead.sameStart_of_ne (h : SameHead behind cursor cursor')
    (noBrace : cursor.kind ≠ .mark .leftBrace) : SameStart cursor cursor' where
  kind := h.kind
  second hbrace := absurd hbrace noBrace
  position := h.position

end

/-! ## Locality -/

namespace Parser

variable {α β : Type}

/-- What a parser accepts at a cursor depends on the tokens that it takes: the second parser accepts
the same wherever they stand, if what follows them is alike. -/
def LocalAt (cursor : Cursor) (before : View) (after : α → View) (parser parser' : Parser α) :
    Prop :=
  ∀ value rest, parser cursor = .accepted value rest →
    ∃ taken, cursor = rest.prepend taken ∧ ∀ left, after value rest left →
      parser' (left.prepend taken) = .accepted value left ∧ before cursor (left.prepend taken)

/-- What a parser accepts depends on the tokens that it takes. -/
def Local (before : View) (after : α → View) (parser parser' : Parser α) : Prop :=
  ∀ cursor, LocalAt cursor before after parser parser'

namespace LocalAt

variable {cursor : Cursor} {before : View} {after : α → View} {parser parser' : Parser α}

/-! ### Steps -/

theorem mono {before' : View} {after' : α → View}
    (h : LocalAt cursor before after parser parser')
    (weaker : ∀ cursor', before cursor cursor' → before' cursor cursor')
    (stronger : ∀ value rest left, after' value rest left → after value rest left) :
    LocalAt cursor before' after' parser parser' := by
  intro value rest hread
  obtain ⟨taken, hcursor, hleft⟩ := h value rest hread
  refine ⟨taken, hcursor, fun left hafter => ?_⟩
  obtain ⟨haccepted, hbefore⟩ := hleft left (stronger value rest left hafter)
  exact ⟨haccepted, weaker _ hbefore⟩

/-- Less may be said of the cursors before. -/
theorem widen (stronger : View) {weaker : View} (h : LocalAt cursor stronger after parser parser')
    (weaken : ∀ cursor', stronger cursor cursor' → weaker cursor cursor') :
    LocalAt cursor weaker after parser parser' :=
  h.mono weaken fun _ _ _ hafter => hafter

/-- Parsers that agree at the cursors in question are local together. -/
theorem congr {reader reader' : Parser α} (h : LocalAt cursor before after reader reader')
    (here : parser cursor = reader cursor)
    (there : ∀ cursor' value rest, before cursor cursor' →
      reader' cursor' = .accepted value rest → parser' cursor' = reader' cursor') :
    LocalAt cursor before after parser parser' := by
  intro value rest hread
  obtain ⟨taken, hcursor, hleft⟩ := h value rest (here ▸ hread)
  refine ⟨taken, hcursor, fun left hafter => ?_⟩
  obtain ⟨haccepted, hbefore⟩ := hleft left hafter
  exact ⟨(there _ _ _ hbefore haccepted).trans haccepted, hbefore⟩

theorem pure {value : α} : LocalAt cursor (after value) after (pure value) (pure value) := by
  intro _ _ hread
  cases hread
  exact ⟨[], rfl, fun left hafter => ⟨rfl, hafter⟩⟩

theorem exhausted : LocalAt cursor before after Parser.exhausted parser' :=
  fun _ _ hread => nomatch hread

theorem reject {cause : SyntaxError.Cause} {position : Position} :
    LocalAt cursor before after (Parser.reject cause position) parser' :=
  fun _ _ hread => nomatch hread

/-- Where a sequence stops, its second part stops, and the first one stops where that begins. -/
theorem bind {between : α → View} {after : β → View} {next next' : α → Parser β}
    (hitem : LocalAt cursor before between parser parser')
    (hnext : ∀ value, Local (between value) after (next value) (next' value)) :
    LocalAt cursor before after (parser >>= next) (parser' >>= next') := by
  intro value rest hread
  change Parser.bind parser next cursor = _ at hread
  unfold Parser.bind at hread
  cases hfirst : parser cursor with
  | rejected error => simp [hfirst] at hread
  | exhausted => simp [hfirst] at hread
  | accepted first middle =>
      rw [hfirst] at hread
      obtain ⟨taken, rfl, hmiddle⟩ := hitem first middle hfirst
      obtain ⟨more, rfl, hleft⟩ := hnext first middle value rest hread
      refine ⟨taken ++ more, by simp, fun left hafter => ?_⟩
      obtain ⟨hsecond, hbetween⟩ := hleft left hafter
      obtain ⟨haccepted, hbefore⟩ := hmiddle _ hbetween
      rw [Cursor.prepend_append]
      refine ⟨?_, hbefore⟩
      change Parser.bind parser' next' _ = _
      unfold Parser.bind
      rw [haccepted]
      exact hsecond

theorem peek {next next' : Token.Kind → Parser α}
    (hnext : LocalAt cursor before after (next cursor.kind) (next' cursor.kind))
    (same : ∀ cursor', before cursor cursor' → next' cursor'.kind = next' cursor.kind) :
    LocalAt cursor before after (Parser.peek >>= next) (Parser.peek >>= next') :=
  hnext.congr rfl fun cursor' _ _ hbefore _ => congrFun (same cursor' hbefore) cursor'

theorem here {next next' : Position → Parser α}
    (hnext : LocalAt cursor before after (next cursor.position) (next' cursor.position))
    (same : ∀ cursor', before cursor cursor' → cursor.position = cursor'.position) :
    LocalAt cursor before after (Parser.here >>= next) (Parser.here >>= next') :=
  hnext.congr rfl fun cursor' _ _ hbefore _ => by
    rw [same cursor' hbefore]
    rfl

/-- A parser that takes the next token looks at nothing else. -/
theorem take {behind : View} {value : α} (some' : cursor.kind ≠ .endOfFile)
    (hparser : parser cursor = .accepted value cursor.next)
    (hparser' : ∀ cursor', SameHead Anywhere cursor cursor' →
      parser' cursor' = .accepted value cursor'.next) :
    LocalAt cursor (SameHead behind) (fun _ => behind) parser parser' := by
  intro _ rest hread
  rw [hparser] at hread
  cases hread
  obtain ⟨token, hcursor⟩ := Cursor.eq_prepend_next some'
  refine ⟨[token], hcursor, fun left hbehind => ⟨?_, token, _, left, hcursor, rfl, hbehind⟩⟩
  exact hparser' _ ⟨token, _, left, hcursor, rfl, trivial⟩

theorem skip {behind : View} (some' : cursor.kind ≠ .endOfFile) :
    LocalAt cursor (SameHead behind) (fun _ => behind) Parser.skip Parser.skip :=
  take some' rfl fun _ _ => rfl

end LocalAt

namespace Local

variable {before behind view : View} {after : α → View} {parser parser' item item' : Parser α}
variable {goesOn : Token.Kind → Bool}

theorem mono {before' : View} {after' : α → View} (h : Local before after parser parser')
    (weaker : ∀ cursor cursor', before cursor cursor' → before' cursor cursor')
    (stronger : ∀ value rest left, after' value rest left → after value rest left) :
    Local before' after' parser parser' :=
  fun cursor => (h cursor).mono (weaker cursor) stronger

/-- Less may be said of the cursors before. -/
theorem widen (stronger : View) {weaker : View} (h : Local stronger after parser parser')
    (weaken : ∀ cursor cursor', stronger cursor cursor' → weaker cursor cursor') :
    Local weaker after parser parser' :=
  fun cursor => (h cursor).widen stronger (weaken cursor)

theorem pure {value : α} : Local (after value) after (pure value) (pure value) :=
  fun _ => .pure

theorem exhausted : Local before after Parser.exhausted parser' := fun _ => .exhausted

theorem bind {between : α → View} {after : β → View} {next next' : α → Parser β}
    (hitem : Local before between parser parser')
    (hnext : ∀ value, Local (between value) after (next value) (next' value)) :
    Local before after (parser >>= next) (parser' >>= next') :=
  fun cursor => (hitem cursor).bind hnext

theorem expect (kind : Token.Kind) (some' : kind ≠ .endOfFile) :
    Local (SameHead behind) (fun _ => behind) (Parser.expect kind) (Parser.expect kind) := by
  intro cursor
  by_cases hkind : cursor.kind = kind
  · have hread : Parser.expect kind cursor = .accepted cursor.position cursor.next := by
      simp [Parser.expect, hkind]
    refine LocalAt.take (by rwa [hkind]) hread fun cursor' hhead => ?_
    have hkind' : cursor'.kind = kind := hhead.kind.symm.trans hkind
    simp [Parser.expect, hkind', hhead.position]
  · intro value rest hread
    simp [Parser.expect, hkind] at hread

theorem expectClosing (opening : Mark) {closing : Mark} (noBrace : closing ≠ .leftBrace)
    (openedAt : Position) :
    Local SameStart (fun _ => Anywhere) (Parser.expectClosing opening closing openedAt)
      (Parser.expectClosing opening closing openedAt) := by
  intro cursor
  by_cases hkind : cursor.kind = .mark closing
  · have hread : Parser.expectClosing opening closing openedAt cursor =
        .accepted () cursor.next := by
      simp [Parser.expectClosing, hkind]
    have htake : LocalAt cursor (SameHead Anywhere) (fun _ => Anywhere)
        (Parser.expectClosing opening closing openedAt)
        (Parser.expectClosing opening closing openedAt) :=
      .take (by simp [hkind]) hread fun cursor' hhead => by
        simp [Parser.expectClosing, hhead.kind.symm.trans hkind]
    refine htake.mono (fun cursor' hhead => ?_) fun _ _ _ _ => trivial
    exact hhead.sameStart_of_ne (by simpa [hkind] using noBrace)
  · intro value rest hread
    unfold Parser.expectClosing at hread
    split at hread <;> simp_all

theorem identifier :
    Local (SameHead behind) (fun _ => behind) Parser.identifier Parser.identifier := by
  intro cursor
  cases hkind : cursor.kind with
  | identifier name negative =>
      have hread : Parser.identifier cursor =
          .accepted { name, negative, position := cursor.position } cursor.next := by
        simp only [Parser.identifier, hkind]
      refine LocalAt.take (by simp [hkind]) hread fun cursor' hhead => ?_
      have hkind' := hhead.kind.symm.trans hkind
      simp only [Parser.identifier, hkind', hhead.position]
  | _ =>
      intro value rest hread
      simp [Parser.identifier, hkind] at hread

/-- Where a name starts, no brace opens. -/
theorem name : Local SameStart (fun _ => Anywhere) Parser.identifier Parser.identifier := by
  intro cursor value rest hread
  have noBrace : cursor.kind ≠ .mark .leftBrace := by
    intro hbrace
    simp [Parser.identifier, hbrace] at hread
  have hlocal := (identifier cursor).widen (SameHead Anywhere) fun _ h =>
    h.sameStart_of_ne noBrace
  exact hlocal value rest hread

/-- A sign that is looked for and found is taken.  Where it is not found, it must not follow. -/
theorem eat? (start : Token.Kind) (some' : start ≠ .endOfFile)
    (tells : Tells view behind start) :
    Local view (fun found => cond found behind view) (Parser.eat? start) (Parser.eat? start) := by
  intro cursor
  by_cases hkind : cursor.kind = start
  · have htake : LocalAt cursor (SameHead behind) (fun _ => behind) (Parser.eat? start)
        (Parser.eat? start) :=
      LocalAt.take (by rwa [hkind]) (if_pos hkind) fun cursor' hhead =>
        if_pos (hhead.kind.symm.trans hkind)
    intro found rest hread
    cases (if_pos hkind : Parser.eat? start cursor = _).symm.trans hread
    exact htake.widen _ (fun _ hhead => tells.head hhead hkind) true _ hread
  · intro found rest hread
    cases (if_neg hkind : Parser.eat? start cursor = _).symm.trans hread
    exact ⟨[], rfl, fun left hleft => ⟨if_neg fun h => hkind (tells.among hleft h), hleft⟩⟩

/-! ### Loops -/

section

variable {bound bound' : Nat} (le : bound ≤ bound')
include le

/-- A loop over a sign ends where something else follows. -/
theorem many (start : Token.Kind) (some' : start ≠ .endOfFile) (tells : Tells view behind start)
    (hitem : Local behind (fun _ => view) item item') :
    Local view (fun _ => view) (Parser.many start item bound) (Parser.many start item' bound') := by
  induction bound generalizing bound' with
  | zero => exact .exhausted
  | succ bound ih =>
      cases bound' with
      | zero => omega
      | succ bound' =>
          refine (eat? start some' tells).bind fun found => ?_
          cases found with
          | false => exact .pure
          | true =>
              exact hitem.bind fun first =>
                (ih (Nat.le_of_succ_le_succ le)).bind fun rest => .pure

/-- What stands in an enclosure ends where its closing mark stays. -/
theorem separated (closing : Mark) (comma : goesOn (.mark .comma) = true)
    (hitem : Local SameStart (fun _ => Stays goesOn) item item') :
    Local SameKind (fun _ => Closes closing goesOn) (Parser.separated closing item bound)
      (Parser.separated closing item' bound') := by
  have hmany : Local (Stays goesOn) (fun _ => Stays goesOn)
      (Parser.many (.mark .comma) item bound) (Parser.many (.mark .comma) item' bound') :=
    many le (.mark .comma) nofun (.stays comma) hitem
  refine fun cursor => .peek ?_ fun cursor' hkind => by rw [hkind]
  split
  · rename_i hclosing
    exact .widen _ .pure fun cursor' h => hclosing.trans (h.closed hclosing).symm
  · refine .widen SameStart ?_ fun _ h => h.kind
    exact (hitem.bind fun first => hmany.bind fun rest => .widen _ .pure fun _ _ h => h.stays) cursor

theorem delimited (opening : Mark) {closing : Mark} (noBrace : closing ≠ .leftBrace)
    (hitem : Local SameStart (fun _ => SameKind) item item') :
    Local SameStart (fun _ => Anywhere) (Parser.delimited opening closing item bound)
      (Parser.delimited opening closing item' bound') := by
  have hitem' : Local SameStart (fun _ => Stays fun _ => true) item item' :=
    hitem.mono (fun _ _ h => h) fun _ _ _ h => h rfl
  refine .widen (SameHead SameKind) ?_ fun _ _ h => h.sameStart
  refine (expect (.mark opening) nofun).bind fun openedAt => ?_
  refine (separated le closing rfl hitem').bind fun items => ?_
  refine .widen SameStart ?_ fun _ _ h => ⟨fun hclosed => h.kind ▸ hclosed, .of_kind h.kind⟩
  exact (expectClosing opening noBrace openedAt).bind fun _ => .pure

end

end Local

end Parser

end Grammar
end Bir
