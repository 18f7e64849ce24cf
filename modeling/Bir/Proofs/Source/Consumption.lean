import Bir.Proofs.Source.Leaves
import Bir.Proofs.Source.Passages

/-!
# Consumption — what a parser takes stands before the end of the file

A list of tokens may hold an end of the file anywhere, or none.  What a parser accepts it has taken
from the front of its cursor, up to the first end of the file at most, and what lies behind that end
changes nothing.  This file defines:

* `Cursor.whole` — all tokens of a list, also those behind an end of the file;
* `Cursor.cut` — a cursor without what lies behind the first end of the file;
* `Parser.Consumes good parser` — what `parser` accepts is written in the tokens that it takes, in
  the sense of `good`.

There is one rule for each step, loop and enclosure.  The rule of a step says what the steps behind
it have to come to, so a production is gone through from its first token to its last.
-/

namespace Bir
namespace Grammar

/-! ## Cursors -/

namespace Cursor

/-- All tokens of a list.  Behind them stands the end of the file, at the last of them. -/
def whole (tokens : List Token) : Cursor where
  tokens := tokens
  stop := (tokens.getLast?.map Token.position).getD Position.start

/-- A cursor without what lies behind the first end of the file. -/
def cut (cursor : Cursor) : Cursor where
  tokens := cursor.tokens.takeWhile fun token => token.kind ≠ .endOfFile
  stop := ((cursor.tokens.find? fun token => token.kind = .endOfFile).map Token.position).getD
    cursor.stop

theorem cut_whole (tokens : List Token) : (whole tokens).cut = ofTokens tokens := by
  unfold cut whole ofTokens
  cases tokens.find? fun token => decide (token.kind = .endOfFile) with
  | some ending => rfl
  | none => cases tokens.getLast? <;> rfl

variable {cursor : Cursor}

/-- A token before the end of the file is not cut off. -/
theorem cut_prepend {token : Token} (some' : token.kind ≠ .endOfFile) :
    (cursor.prepend [token]).cut = cursor.cut.prepend [token] := by
  simp [cut, prepend, some']

@[simp]
theorem kind_cut : cursor.cut.kind = cursor.kind := by
  obtain ⟨_ | ⟨token, rest⟩, stop⟩ := cursor
  · rfl
  · by_cases hend : token.kind = .endOfFile <;> simp [cut, kind, hend]

@[simp]
theorem position_cut : cursor.cut.position = cursor.position := by
  obtain ⟨_ | ⟨token, rest⟩, stop⟩ := cursor
  · rfl
  · by_cases hend : token.kind = .endOfFile <;> simp [cut, position, hend]

theorem next_cut (some' : cursor.kind ≠ .endOfFile) : cursor.cut.next = cursor.next.cut := by
  obtain ⟨token, hcursor⟩ := eq_prepend_next some'
  rw [hcursor] at some' ⊢
  rw [cut_prepend some', next_prepend_singleton, next_prepend_singleton]

/-- Behind the end of the file nothing is looked at. -/
theorem kindAt_one_cut (some' : cursor.kind ≠ .endOfFile) :
    cursor.cut.kindAt 1 = cursor.kindAt 1 := by
  rw [kindAt_one, kindAt_one, next_cut some', kind_cut]

theorem startsCall_cut :
    startsCall cursor.cut.kind (cursor.cut.kindAt 1) =
      startsCall cursor.kind (cursor.kindAt 1) := by
  by_cases hend : cursor.kind = .endOfFile
  · rw [kind_cut, hend]
    rfl
  · rw [kind_cut, kindAt_one_cut hend]

theorem seeds_cut : cursor.cut.seeds = cursor.seeds := by
  unfold seeds
  by_cases hend : cursor.kind = .endOfFile
  · rw [kind_cut, hend]
    rfl
  · rw [kind_cut, kindAt_one_cut hend]

end Cursor

/-- The verbs of a block are looked for before the end of the file. -/
theorem verbsThenBracket_cut (cursor : Cursor) :
    verbsThenBracket cursor.cut.tokens = verbsThenBracket cursor.tokens := by
  induction hlength : cursor.tokens.length using Nat.strongRecOn generalizing cursor with
  | _ length ih =>
      rw [verbsThenBracket_eq cursor, verbsThenBracket_eq cursor.cut, Cursor.kind_cut]
      -- A verb takes two tokens, and either of them may be missing at the end of the file.
      by_cases hend : cursor.kind = .endOfFile
      · simp [hend]
      · by_cases hend' : cursor.next.kind = .endOfFile
        · simp [Cursor.next_cut hend, hend', Token.Kind.isIdentifier]
        · have hshorter : cursor.next.next.tokens.length < length := by
            obtain ⟨token, hcursor⟩ := Cursor.eq_prepend_next hend
            have hnext : cursor.tokens.length = cursor.next.tokens.length + 1 :=
              congrArg (fun other => other.tokens.length) hcursor
            have htail : cursor.next.next.tokens.length = cursor.next.tokens.length - 1 :=
              List.length_tail
            omega
          rw [Cursor.next_cut hend, Cursor.kind_cut, Cursor.next_cut hend', ih _ hshorter _ rfl]

/-- Where a block is declared is told by what stands before the end of the file. -/
theorem startsBlock_cut (cursor : Cursor) : startsBlock cursor.cut = startsBlock cursor := by
  rw [startsBlock_eq, startsBlock_eq, Cursor.kind_cut]
  by_cases hend : cursor.kind = .endOfFile
  · simp [hend, Token.Kind.isIdentifier]
  · rw [Cursor.next_cut hend, Cursor.kind_cut, verbsThenBracket_cut]

/-- A reading without what lies behind the first end of the file. -/
def Reading.cut {α : Type} : Reading α → Reading α
  | .accepted value rest => .accepted value rest.cut
  | .rejected error => .rejected error
  | .exhausted => .exhausted

/-! ## Consumption -/

namespace Parser

variable {α β : Type}

instance : LawfulMonad Parser := .mk' Parser
  (fun reader => by
    funext cursor
    change Parser.bind reader Parser.pure cursor = _
    unfold Parser.bind
    cases reader cursor <;> rfl)
  (fun _ _ => rfl)
  (fun reader next last => by
    funext cursor
    change Parser.bind (Parser.bind reader next) last cursor =
      Parser.bind reader (fun value => Parser.bind (next value) last) cursor
    unfold Parser.bind
    cases reader cursor <;> rfl)

/-- What a parser accepts at a cursor is written in the tokens that it takes, and these stand before
the end of the file; what lies behind that end changes nothing. -/
structure ConsumesAt (cursor : Cursor) (good : α → List Token → Prop) (parser : Parser α) :
    Prop where
  takes : ∀ value rest, parser cursor = .accepted value rest →
    ∃ taken, cursor = rest.prepend taken ∧ Endless taken ∧ good value taken
  cut : parser cursor.cut = (parser cursor).cut

/-- What a parser accepts is written in the tokens that it takes. -/
def Consumes (good : α → List Token → Prop) (parser : Parser α) : Prop :=
  ∀ cursor, ConsumesAt cursor good parser

namespace ConsumesAt

variable {cursor : Cursor} {good : α → List Token → Prop} {parser : Parser α}

theorem mono {good' : α → List Token → Prop} (h : ConsumesAt cursor good parser)
    (weaker : ∀ value taken, good value taken → good' value taken) :
    ConsumesAt cursor good' parser where
  takes value rest hread := by
    obtain ⟨taken, hcursor, hendless, hgood⟩ := h.takes value rest hread
    exact ⟨taken, hcursor, hendless, weaker value taken hgood⟩
  cut := h.cut

theorem congr {reader : Parser α} (h : ConsumesAt cursor good reader)
    (here : parser cursor = reader cursor) (there : parser cursor.cut = reader cursor.cut) :
    ConsumesAt cursor good parser where
  takes value rest hread := h.takes value rest (here ▸ hread)
  cut := by rw [here, there, h.cut]

/-! ### Steps -/

theorem pure {value : α} (h : good value []) : ConsumesAt cursor good (pure value) where
  takes _ _ hread := by
    cases hread
    exact ⟨[], rfl, nofun, h⟩
  cut := rfl

theorem exhausted : ConsumesAt cursor good Parser.exhausted where
  takes _ _ hread := nomatch hread
  cut := rfl

theorem rejected (error : SyntaxError) :
    ConsumesAt cursor good (fun _ => .rejected error) where
  takes _ _ hread := nomatch hread
  cut := rfl

theorem reject {cause : SyntaxError.Cause} {position : Position} :
    ConsumesAt cursor good (Parser.reject cause position) :=
  rejected ⟨cause, position⟩

/-- What is rejected for its kind and its position is rejected where the rest is cut off as well. -/
theorem rejects (error : SyntaxError) (h : ∀ other : Cursor, other.kind = cursor.kind →
    other.position = cursor.position → parser other = .rejected error) :
    ConsumesAt cursor good parser :=
  (rejected error).congr (h cursor rfl rfl) (h cursor.cut Cursor.kind_cut Cursor.position_cut)

theorem bind {good' : β → List Token → Prop} {next : α → Parser β}
    (hfirst : ConsumesAt cursor good parser)
    (hnext : ∀ value taken, good value taken →
      Consumes (fun value' more => good' value' (taken ++ more)) (next value)) :
    ConsumesAt cursor good' (parser >>= next) := by
  have hcut := hfirst.cut
  cases hread : parser cursor with
  | exhausted =>
      rw [hread] at hcut
      have hwhole : ∀ other : Cursor, parser other = .exhausted →
          (parser >>= next) other = .exhausted := fun other hother => by
        change Parser.bind parser next other = _
        rw [Parser.bind, hother]
      exact exhausted.congr (hwhole _ hread) (hwhole _ hcut)
  | rejected error =>
      rw [hread] at hcut
      exact (rejected error).congr (bind_of_rejected hread) (bind_of_rejected hcut)
  | accepted value rest =>
      rw [hread] at hcut
      obtain ⟨taken, hcursor, hendless, hgood⟩ := hfirst.takes value rest hread
      have hrest := hnext value taken hgood rest
      constructor
      · intro value' rest' hread'
        rw [bind_of_accepted hread] at hread'
        obtain ⟨more, hmore, hendless', hgood'⟩ := hrest.takes value' rest' hread'
        refine ⟨taken ++ more, by rw [Cursor.prepend_append, ← hmore, hcursor], ?_, hgood'⟩
        exact fun token hmem => (List.mem_append.1 hmem).elim (hendless token) (hendless' token)
      · rw [bind_of_accepted hread, bind_of_accepted hcut, hrest.cut]

theorem peek {next : Token.Kind → Parser α} (h : ConsumesAt cursor good (next cursor.kind)) :
    ConsumesAt cursor good (Parser.peek >>= next) :=
  h.congr rfl <| by rw [peek_bind, Cursor.kind_cut]

theorem here {next : Position → Parser α} (h : ConsumesAt cursor good (next cursor.position)) :
    ConsumesAt cursor good (Parser.here >>= next) :=
  h.congr rfl <| by rw [here_bind, Cursor.position_cut]

/-- A parser that takes the next token goes on behind it. -/
theorem step {kind : Token.Kind} {reader : Parser α} (hkind : cursor.kind = kind)
    (some' : kind ≠ .endOfFile)
    (hparser : ∀ other : Cursor, other.kind = kind → other.position = cursor.position →
      parser other = reader other.next)
    (h : Consumes (fun value more => good value (⟨kind, cursor.position⟩ :: more)) reader) :
    ConsumesAt cursor good parser := by
  have some'' : cursor.kind ≠ .endOfFile := hkind ▸ some'
  -- The token stands before the end of the file, so it is next where the rest is cut off as well.
  have hhere := hparser cursor hkind rfl
  have hthere := hparser cursor.cut (Cursor.kind_cut.trans hkind) Cursor.position_cut
  obtain ⟨token, hcursor⟩ := Cursor.eq_prepend_next some''
  have htoken : token = ⟨kind, cursor.position⟩ := by
    rw [← hkind, hcursor]
    rfl
  constructor
  · intro value rest hread
    obtain ⟨more, hmore, hendless, hgood⟩ := (h cursor.next).takes value rest (hhere ▸ hread)
    refine ⟨token :: more, ?_, ?_, htoken ▸ hgood⟩
    · rw [hcursor, hmore]
      rfl
    · rintro other (_ | ⟨_, hmem⟩)
      · rw [htoken]
        exact some'
      · exact hendless other hmem
  · rw [hthere, Cursor.next_cut some'', (h cursor.next).cut, hhere]

theorem skip {kind : Token.Kind} {next : Unit → Parser α} (hkind : cursor.kind = kind)
    (some' : kind ≠ .endOfFile)
    (h : Consumes (fun value more => good value (⟨kind, cursor.position⟩ :: more)) (next ())) :
    ConsumesAt cursor good (Parser.skip >>= next) :=
  step hkind some' (fun _ _ _ => rfl) h

theorem eat {kind : Token.Kind} {next : Bool → Parser α} (some' : kind ≠ .endOfFile)
    (found : ∀ position,
      Consumes (fun value more => good value (⟨kind, position⟩ :: more)) (next true))
    (missing : ConsumesAt cursor good (next false)) :
    ConsumesAt cursor good (eat? kind >>= next) := by
  by_cases hkind : cursor.kind = kind
  · exact step hkind some' (fun _ hother _ => bind_of_accepted (eat?_of_eq hother)) (found _)
  · refine missing.congr (bind_of_accepted (eat?_of_ne hkind)) (bind_of_accepted (eat?_of_ne ?_))
    rwa [Cursor.kind_cut]

theorem expect {kind : Token.Kind} {next : Position → Parser α} (some' : kind ≠ .endOfFile)
    (h : ∀ position,
      Consumes (fun value more => good value (⟨kind, position⟩ :: more)) (next position)) :
    ConsumesAt cursor good (Parser.expect kind >>= next) := by
  by_cases hkind : cursor.kind = kind
  · refine step hkind some' (fun other hother hposition => ?_) (h cursor.position)
    have hread : Parser.expect kind other = .accepted other.position other.next := if_pos hother
    rw [bind_of_accepted hread, hposition]
  · refine rejects ⟨.unexpectedToken (.token kind) cursor.kind, cursor.position⟩ ?_
    intro other hother hposition
    refine bind_of_rejected ?_
    rw [Parser.expect, hother, hposition, if_neg hkind]

theorem expectClosing {opening closing : Mark} {openedAt : Position} {next : Unit → Parser α}
    (h : ∀ position,
      Consumes (fun value more => good value (⟨.mark closing, position⟩ :: more)) (next ())) :
    ConsumesAt cursor good (Parser.expectClosing opening closing openedAt >>= next) := by
  by_cases hend : cursor.kind = .endOfFile
  · refine rejects ⟨.unclosedDelimiter opening openedAt, cursor.position⟩ ?_
    intro other hother hposition
    refine bind_of_rejected ?_
    rw [Parser.expectClosing, hother, hposition, if_pos hend]
  · by_cases hkind : cursor.kind = .mark closing
    · refine step hkind (by simp) (fun other hother _ => bind_of_accepted ?_) (h cursor.position)
      simp [Parser.expectClosing, hother]
    · refine rejects ⟨.unexpectedToken (.token (.mark closing)) cursor.kind, cursor.position⟩ ?_
      intro other hother hposition
      refine bind_of_rejected ?_
      rw [Parser.expectClosing, hother, hposition, if_neg hend, if_neg hkind]

theorem identifier {next : Identifier → Parser α}
    (h : ∀ name, Consumes (fun value more => good value (name.token :: more)) (next name)) :
    ConsumesAt cursor good (Parser.identifier >>= next) := by
  cases hkind : cursor.kind with
  | identifier name negative =>
      refine step hkind nofun (fun other hother hposition => ?_)
        (h { name, negative, position := cursor.position })
      have hread : Parser.identifier other =
          .accepted { name, negative, position := other.position } other.next := by
        rw [Parser.identifier, hother]
      rw [bind_of_accepted hread, hposition]
  | _ =>
      refine rejects ⟨.expectedIdentifier cursor.kind, cursor.position⟩ ?_
      intro other hother hposition
      refine bind_of_rejected ?_
      rw [Parser.identifier, hother, hposition, hkind]

end ConsumesAt

/-! ## Loops -/

section

variable {good : α → List Token → Prop} {item : Parser α}

theorem many_consumes (start : Token.Kind) (some' : start ≠ .endOfFile)
    (hitem : Consumes good item) (bound : Nat) :
    Consumes (InOrder good) (many start item bound) := by
  induction bound with
  | zero => exact fun _ => .exhausted
  | succ bound ih =>
      intro cursor
      refine .eat some' (fun position after => ?_) (.pure (.done []))
      refine (hitem after).bind fun first inside hfirst behind => ?_
      refine (ih behind).bind fun others more hothers _ => .pure ?_
      rw [List.append_nil]
      exact (InOrder.cons hfirst hothers).skip _

theorem separated_consumes (closing : Mark) (hitem : Consumes good item) (bound : Nat) :
    Consumes (InOrder good) (separated closing item bound) := by
  refine fun cursor => .peek ?_
  split
  · exact .pure (.done [])
  · refine (hitem cursor).bind fun first inside hfirst behind => ?_
    have hmany := many_consumes (.mark .comma) nofun hitem bound behind
    refine hmany.bind fun others more hothers _ => .pure ?_
    rw [List.append_nil]
    exact .cons hfirst hothers

/-- An enclosure takes its marks and what is between them. -/
theorem delimited_consumes (opening closing : Mark) (hitem : Consumes good item) (bound : Nat) :
    Consumes (fun items tokens => tokens ≠ [] ∧ InOrder good items tokens)
      (delimited opening closing item bound) := by
  refine fun cursor => .expect nofun fun openedAt after => ?_
  refine (separated_consumes closing hitem bound after).bind fun items inside hitems behind => ?_
  refine .expectClosing fun closedAt _ => .pure ⟨nofun, ?_⟩
  exact (hitems.before _).skip _

end

end Parser
end Grammar
end Bir
