import Bir.Grammar.Statement
import Bir.Proofs.Code

/-!
# Parsers — what is read stands in the tokens

A parser makes up no names and no positions: it takes them from the tokens that it reads, also where
it rejects them.  This
file defines:

* `Law.written` — the law that names and positions are those of tokens;
* `Parser.Yields` — what a parser yields, and that it stays within the tokens.

There is one rule for each step, loop and enclosure that parsers are put together from.
-/

namespace Bir

/-! ## Written names and positions -/

/-- A position is that of a token. -/
def Position.Written (tokens : List Token) (position : Position) : Prop :=
  ∃ token ∈ tokens, token.position = position

/-- A name is a token, with its sign and its position. -/
def Identifier.Written (tokens : List Token) (name : Identifier) : Prop :=
  ⟨.identifier name.name name.negative, name.position⟩ ∈ tokens

/-- The law that names and positions are those of tokens. -/
def Law.written (tokens : List Token) : Law where
  name := Identifier.Written tokens
  keyword := Position.Written tokens

section

variable (tokens : List Token)

@[simp]
theorem Law.written_name : (Law.written tokens).name = Identifier.Written tokens := rfl

@[simp]
theorem Law.written_keyword : (Law.written tokens).keyword = Position.Written tokens := rfl

end

theorem Identifier.Written.position {tokens : List Token} {name : Identifier}
    (h : name.Written tokens) : name.position.Written tokens :=
  ⟨_, h, rfl⟩

theorem Law.written_places (tokens : List Token) :
    (Law.written tokens).Places (Position.Written tokens) where
  name h := h.position
  keyword h := h

namespace Grammar

variable {tokens : List Token} {α β : Type}

/-- A cursor stands within a list of tokens, its stop at one of them. -/
structure Cursor.Within (tokens : List Token) (cursor : Cursor) : Prop where
  subset : ∀ token ∈ cursor.tokens, token ∈ tokens
  stop : cursor.stop.Written tokens

/-- What stands at a place: the position of a token, and its kind unless that is the end. -/
structure Stands (tokens : List Token) (position : Position) (kind : Token.Kind) : Prop where
  placed : position.Written tokens
  token : kind ≠ .endOfFile → ⟨kind, position⟩ ∈ tokens

namespace Cursor.Within

variable {cursor : Cursor}

theorem next (h : cursor.Within tokens) : cursor.next.Within tokens where
  subset token hmem := h.subset token (List.mem_of_mem_tail hmem)
  stop := h.stop

theorem stands (h : cursor.Within tokens) : Stands tokens cursor.position cursor.kind := by
  obtain ⟨subset, stop⟩ := h
  unfold Cursor.position Cursor.kind
  cases hleft : cursor.tokens with
  | nil => exact ⟨stop, fun hend => absurd rfl hend⟩
  | cons token rest =>
      have hmem : token ∈ tokens := subset token (by simp [hleft])
      exact ⟨⟨token, hmem, rfl⟩, fun _ => hmem⟩

end Cursor.Within

/-- What an accepted reading yields, and that it goes on within the tokens.  A rejected one points to
a token. -/
def Reading.Gives (tokens : List Token) (good : α → Prop) : Reading α → Prop
  | .accepted value rest => good value ∧ rest.Within tokens
  | .rejected error => error.position.Written tokens
  | .exhausted => True

namespace Parser

/-- What a parser yields from within the tokens, and that it stays within them. -/
def Yields (tokens : List Token) (good : α → Prop) (parser : Parser α) : Prop :=
  ∀ cursor : Cursor, cursor.Within tokens → (parser cursor).Gives tokens good

namespace Yields

variable {good : α → Prop} {good' : β → Prop} {item : Parser α}

/-! ## Steps -/

theorem pure {value : α} (h : good value) : Yields tokens good (pure value) := by
  intro cursor hcursor
  exact ⟨h, hcursor⟩

theorem bind {next : α → Parser β} (hitem : Yields tokens good item)
    (hnext : ∀ value, good value → Yields tokens good' (next value)) :
    Yields tokens good' (item >>= next) := by
  intro cursor hcursor
  have hfirst := hitem cursor hcursor
  change Reading.Gives tokens good' (Parser.bind item next cursor)
  unfold Parser.bind
  cases hread : item cursor with
  | accepted value rest =>
      rw [hread] at hfirst
      exact hnext value hfirst.1 rest hfirst.2
  | rejected error =>
      rw [hread] at hfirst
      exact hfirst
  | exhausted => trivial

theorem exhausted : Yields tokens good Parser.exhausted := fun _ _ => trivial

theorem reject (cause : SyntaxError.Cause) {position : Position}
    (written : position.Written tokens) : Yields tokens good (Parser.reject cause position) :=
  fun _ _ => written

theorem skip : Yields tokens (fun _ => True) Parser.skip := by
  intro cursor hcursor
  exact ⟨trivial, hcursor.next⟩

theorem peek : Yields tokens (fun _ => True) Parser.peek := by
  intro cursor hcursor
  exact ⟨trivial, hcursor⟩

theorem peekAt (ahead : Nat) : Yields tokens (fun _ => True) (Parser.peekAt ahead) := by
  intro cursor hcursor
  exact ⟨trivial, hcursor⟩

theorem here : Yields tokens (Position.Written tokens) Parser.here := by
  intro cursor hcursor
  exact ⟨hcursor.stands.placed, hcursor⟩

/-- The position and the kind that are asked for at one place are those of one token. -/
theorem look {next : Position → Token.Kind → Parser α}
    (h : ∀ position kind, Stands tokens position kind →
      Yields tokens good (next position kind)) :
    Yields tokens good (Parser.here >>= fun position => Parser.peek >>= next position) := by
  intro cursor hcursor
  exact h cursor.position cursor.kind hcursor.stands cursor hcursor

theorem eat? (kind : Token.Kind) : Yields tokens (fun _ => True) (Parser.eat? kind) := by
  intro cursor hcursor
  unfold Parser.eat?
  split
  · exact ⟨trivial, hcursor.next⟩
  · exact ⟨trivial, hcursor⟩

theorem expect (kind : Token.Kind) :
    Yields tokens (Position.Written tokens) (Parser.expect kind) := by
  intro cursor hcursor
  unfold Parser.expect
  split
  · exact ⟨hcursor.stands.placed, hcursor.next⟩
  · exact hcursor.stands.placed

theorem expectClosing (opening closing : Mark) (openedAt : Position) :
    Yields tokens (fun _ => True) (Parser.expectClosing opening closing openedAt) := by
  intro cursor hcursor
  unfold Parser.expectClosing
  split
  · exact hcursor.stands.placed
  · split
    · exact ⟨trivial, hcursor.next⟩
    · exact hcursor.stands.placed

theorem identifier : Yields tokens (Identifier.Written tokens) Parser.identifier := by
  intro cursor hcursor
  unfold Parser.identifier
  split
  · rename_i name negative hkind
    have hstands := hcursor.stands
    rw [hkind] at hstands
    exact ⟨hstands.token (by simp), hcursor.next⟩
  · exact hcursor.stands.placed

/-! ## Loops -/

theorem many (start : Token.Kind) (hitem : Yields tokens good item) (bound : Nat) :
    Yields tokens (fun items => ∀ item ∈ items, good item) (Parser.many start item bound) := by
  induction bound with
  | zero => exact exhausted
  | succ bound ih =>
      refine (eat? start).bind fun started _ => ?_
      split
      · refine hitem.bind fun first hfirst => ih.bind fun rest hrest => ?_
        exact pure (by simpa using ⟨hfirst, hrest⟩)
      · exact pure (by simp)

theorem separated (closing : Mark) (hitem : Yields tokens good item) (bound : Nat) :
    Yields tokens (fun items => ∀ item ∈ items, good item)
      (Parser.separated closing item bound) := by
  refine peek.bind fun kind _ => ?_
  split
  · exact pure (by simp)
  · refine hitem.bind fun first hfirst => (many _ hitem bound).bind fun rest hrest => ?_
    exact pure (by simpa using ⟨hfirst, hrest⟩)

theorem delimited (opening closing : Mark) (hitem : Yields tokens good item) (bound : Nat) :
    Yields tokens (fun items => ∀ item ∈ items, good item)
      (Parser.delimited opening closing item bound) := by
  refine (expect _).bind fun openedAt _ => ?_
  refine (separated closing hitem bound).bind fun items hitems => ?_
  exact (expectClosing _ _ _).bind fun _ _ => pure hitems

end Yields

end Parser

end Grammar
end Bir
