import Bir.Proofs.Source.Passages

/-!
# Brackets — what is opened is closed

Parentheses, square brackets and braces enclose parts of a program.  A parser that opens one closes
it before it accepts, so whatever it takes is balanced, and the brackets that are open at any point
are those of the enclosures it is in.  Where the text ends, the innermost of them is to blame.  This
file defines:

* `Mark.closing?` and `Token.Kind.isBracket` — which marks enclose, and what closes them;
* `Balanced` — tokens in which all that is opened is closed, in the right order;
* `Opened` and `Layers` — tokens in which some brackets are open, with balanced tokens between them;
* `Cursor.Amid` — the place of a cursor in a text: the brackets that are open there;
* `Parser.Tracks` — a parser leads from certain open brackets to others, and `Parser.Balances` — it
  leads back to those that were open before it.

There is one rule for each step, loop and enclosure.
-/

namespace Bir

/-! ## Brackets -/

/-- The mark that closes what a mark opens. -/
def Mark.closing? : Mark → Option Mark
  | .leftParen => some .rightParen
  | .leftBracket => some .rightBracket
  | .leftBrace => some .rightBrace
  | _ => none

/-- Whether a token of this kind opens or closes. -/
def Token.Kind.isBracket : Token.Kind → Bool
  | .mark .leftParen | .mark .rightParen => true
  | .mark .leftBracket | .mark .rightBracket => true
  | .mark .leftBrace | .mark .rightBrace => true
  | _ => false

/-- The marks that open. -/
theorem Mark.mem_of_closing? {opening closing : Mark} (h : opening.closing? = some closing) :
    opening ∈ [leftParen, leftBracket, leftBrace] := by
  cases opening <;> simp_all [closing?]

namespace Grammar

/-- All that is opened in the tokens is closed there by its partner, and the other way round. -/
inductive Balanced : List Token → Prop where
  | nil : Balanced []
  | plain {token : Token} (plain : token.kind.isBracket = false) : Balanced [token]
  | append {before behind : List Token} (first : Balanced before) (second : Balanced behind) :
      Balanced (before ++ behind)
  | enclosed {opening closing : Mark} {inside : List Token} (openedAt closedAt : Position)
      (partners : opening.closing? = some closing) (balanced : Balanced inside) :
      Balanced (⟨.mark opening, openedAt⟩ :: inside ++ [⟨.mark closing, closedAt⟩])

/-! ## Open brackets -/

/-- A bracket that is open. -/
structure Opened where
  mark : Mark
  position : Position

/-- The token that opened a bracket. -/
def Opened.token (bracket : Opened) : Token := ⟨.mark bracket.mark, bracket.position⟩

/-- Certain brackets are open behind the tokens, the innermost first, and what stands before,
between and behind them is balanced. -/
inductive Layers : List Opened → List Token → Prop where
  | ground {tokens : List Token} (balanced : Balanced tokens) : Layers [] tokens
  | within {bracket : Opened} {closing : Mark} {outer : List Opened} {before inside : List Token}
      (below : Layers outer before) (opens : bracket.mark.closing? = some closing)
      (balanced : Balanced inside) : Layers (bracket :: outer) (before ++ bracket.token :: inside)

namespace Layers

variable {opened outer : List Opened} {bracket : Opened} {closing : Mark}
variable {before more : List Token}

/-- Balanced tokens change nothing of what is open. -/
theorem append (h : Layers opened before) (balanced : Balanced more) :
    Layers opened (before ++ more) := by
  cases h with
  | ground first => exact .ground (first.append balanced)
  | within below opens inside =>
      rw [List.append_assoc, List.cons_append]
      exact .within below opens (inside.append balanced)

theorem enter (h : Layers outer before) (opens : bracket.mark.closing? = some closing) :
    Layers (bracket :: outer) (before ++ [bracket.token]) :=
  .within h opens .nil

/-- What closes the innermost bracket makes one enclosure of it and of all behind it. -/
theorem leave (h : Layers (bracket :: outer) before)
    (partners : bracket.mark.closing? = some closing) (closedAt : Position) :
    Layers outer (before ++ [⟨.mark closing, closedAt⟩]) := by
  cases h with
  | within below opens inside =>
      rw [List.append_assoc]
      exact below.append (.enclosed bracket.position closedAt partners inside)

end Layers

/-! ## Places in a text -/

/-- A cursor stands in a text without another end of the file, and certain brackets are open behind
the tokens before it. -/
structure Cursor.Amid (cursor text : Cursor) (opened : List Opened) : Prop where
  stop : cursor.stop = text.stop
  endless : Endless cursor.tokens
  behind : ∃ before, text.tokens = before ++ cursor.tokens ∧ Layers opened before

/-- A syntax error blames a bracket at the end of a text, and that is the innermost one open. -/
structure Innermost (text : Cursor) (error : SyntaxError) (bracket : Opened) : Prop where
  position : error.position = text.stop
  layers : ∃ outer, Layers (bracket :: outer) text.tokens

/-- An accepted reading goes on amid certain brackets.  A rejected one blames the innermost of those
that are open, if it blames any. -/
def Reading.Tracks {α : Type} (text : Cursor) (after : α → List Opened) : Reading α → Prop
  | .accepted value rest => rest.Amid text (after value)
  | .rejected error => ∀ mark position, error.cause = .unclosedDelimiter mark position →
      Innermost text error ⟨mark, position⟩
  | .exhausted => True

namespace Cursor.Amid

variable {text cursor : Cursor} {opened outer : List Opened}

/-- The next token and what it leads to.  At the end of the text there is none. -/
theorem next (h : cursor.Amid text opened) {opened' : List Opened}
    (leads : ∀ token before, token.kind = cursor.kind → token.position = cursor.position →
      Layers opened before → Layers opened' (before ++ [token]))
    (some' : cursor.kind ≠ .endOfFile) : cursor.next.Amid text opened' := by
  rcases h with ⟨stop, endless, before, htext, hlayers⟩
  rcases Cursor.eq_prepend_next some' with ⟨token, hcursor⟩
  have htokens : cursor.tokens = token :: cursor.next.tokens := congrArg Cursor.tokens hcursor
  have hkind : token.kind = cursor.kind := (congrArg Cursor.kind hcursor).symm
  have hposition : token.position = cursor.position := (congrArg Cursor.position hcursor).symm
  refine ⟨stop, fun other hmem => endless other (List.mem_of_mem_tail hmem), before ++ [token], ?_,
    leads token before hkind hposition hlayers⟩
  rw [htext, htokens, List.append_assoc, List.singleton_append]

/-- A token that is no bracket changes nothing of what is open. -/
theorem next_plain (h : cursor.Amid text opened) (plain : cursor.kind.isBracket = false) :
    cursor.next.Amid text opened := by
  by_cases hend : cursor.kind = .endOfFile
  · have hnext : cursor.next = cursor := by
      rcases cursor with ⟨_ | ⟨token, rest⟩, stop⟩
      · rfl
      · exact absurd hend (h.endless token List.mem_cons_self)
    rwa [hnext]
  · exact h.next (fun token before hkind _ hlayers => hlayers.append (.plain (hkind ▸ plain))) hend

theorem next_opening (h : cursor.Amid text opened) {mark closing : Mark}
    (hkind : cursor.kind = .mark mark) (opens : mark.closing? = some closing) :
    cursor.next.Amid text (⟨mark, cursor.position⟩ :: opened) := by
  refine h.next (fun token before htoken hposition hlayers => ?_) (by simp [hkind])
  have hbracket : token = Opened.token ⟨mark, cursor.position⟩ := by
    rcases token with ⟨kind, position⟩
    simp only [Opened.token, Token.mk.injEq]
    exact ⟨htoken.trans hkind, hposition⟩
  rw [hbracket]
  exact hlayers.enter opens

theorem next_closing {bracket : Opened} (h : cursor.Amid text (bracket :: outer)) {closing : Mark}
    (hkind : cursor.kind = .mark closing) (partners : bracket.mark.closing? = some closing) :
    cursor.next.Amid text outer := by
  refine h.next (fun token before htoken hposition hlayers => ?_) (by simp [hkind])
  rcases token with ⟨kind, position⟩
  have hmark : kind = .mark closing := htoken.trans hkind
  rw [hmark]
  exact hlayers.leave partners position

/-- At the end of a text the innermost bracket of those that are open is to blame. -/
theorem innermost {bracket : Opened} (h : cursor.Amid text (bracket :: outer))
    (hend : cursor.kind = .endOfFile) (cause : SyntaxError.Cause) :
    Innermost text ⟨cause, cursor.position⟩ bracket := by
  rcases h with ⟨stop, endless, before, htext, hlayers⟩
  rcases cursor with ⟨_ | ⟨token, rest⟩, position⟩
  · rw [List.append_nil] at htext
    exact ⟨stop, outer, htext ▸ hlayers⟩
  · exact absurd hend (endless token List.mem_cons_self)

end Cursor.Amid

/-! ## Parsers -/

namespace Parser

variable {α β : Type} (text : Cursor)

/-- A parser leads from certain open brackets to others, where it is at the cursor. -/
def TracksAt (cursor : Cursor) (opened : List Opened) (after : α → List Opened)
    (parser : Parser α) : Prop :=
  cursor.Amid text opened → (parser cursor).Tracks text after

/-- A parser leads from certain open brackets to others. -/
def Tracks (opened : List Opened) (after : α → List Opened) (parser : Parser α) : Prop :=
  ∀ cursor, TracksAt text cursor opened after parser

/-- A parser closes what it opens, whatever is open before it. -/
def Balances (parser : Parser α) : Prop :=
  ∀ opened, Tracks text opened (fun _ => opened) parser

variable {text} {cursor : Cursor} {opened : List Opened} {after : α → List Opened}
variable {item : Parser α}

/-! ### Steps -/

namespace TracksAt

theorem bind {between : α → List Opened} {after : β → List Opened} {next : α → Parser β}
    (hitem : TracksAt text cursor opened between item)
    (hnext : ∀ value, Tracks text (between value) after (next value)) :
    TracksAt text cursor opened after (item >>= next) := by
  intro hcursor
  have hfirst := hitem hcursor
  cases hread : item cursor with
  | accepted value rest =>
      rw [hread] at hfirst
      rw [bind_of_accepted hread]
      exact hnext value rest hfirst
  | rejected error =>
      rw [hread] at hfirst
      rw [bind_of_rejected hread]
      exact hfirst
  | exhausted =>
      have hexhausted : (item >>= next) cursor = .exhausted := by
        change Parser.bind item next cursor = _
        simp only [Parser.bind, hread]
      rw [hexhausted]
      trivial

theorem peek {next : Token.Kind → Parser α}
    (h : TracksAt text cursor opened after (next cursor.kind)) :
    TracksAt text cursor opened after (Parser.peek >>= next) := h

theorem peekAt {ahead : Nat} {next : Token.Kind → Parser α}
    (h : TracksAt text cursor opened after (next (cursor.kindAt ahead))) :
    TracksAt text cursor opened after (Parser.peekAt ahead >>= next) := h

theorem here {next : Position → Parser α}
    (h : TracksAt text cursor opened after (next cursor.position)) :
    TracksAt text cursor opened after (Parser.here >>= next) := h

/-- An error that blames no bracket says nothing of them. -/
theorem reject {cause : SyntaxError.Cause} {position : Position}
    (blames : ∀ mark openedAt, cause ≠ .unclosedDelimiter mark openedAt) :
    TracksAt text cursor opened after (Parser.reject cause position) :=
  fun _ mark openedAt hcause => absurd hcause (blames mark openedAt)

theorem skip {kind : Token.Kind} (hkind : cursor.kind = kind) (plain : kind.isBracket = false) :
    TracksAt text cursor opened (fun _ => opened) Parser.skip :=
  fun h => h.next_plain (hkind ▸ plain)

theorem skip_opening {mark closing : Mark} (hkind : cursor.kind = .mark mark)
    (opens : mark.closing? = some closing) :
    TracksAt text cursor opened (fun _ => ⟨mark, cursor.position⟩ :: opened) Parser.skip :=
  fun h => h.next_opening hkind opens

end TracksAt

namespace Tracks

theorem exhausted : Tracks text opened after Parser.exhausted := fun _ _ => trivial

theorem bind {between : α → List Opened} {after : β → List Opened} {next : α → Parser β}
    (hitem : Tracks text opened between item)
    (hnext : ∀ value, Tracks text (between value) after (next value)) :
    Tracks text opened after (item >>= next) :=
  fun cursor => (hitem cursor).bind hnext

/-- A bracket that has to be there opens an enclosure. -/
theorem expect {mark closing : Mark} (opens : mark.closing? = some closing) :
    Tracks text opened (fun openedAt => ⟨mark, openedAt⟩ :: opened)
      (Parser.expect (.mark mark)) := by
  intro cursor hcursor
  unfold Parser.expect
  split
  · rename_i hkind
    exact hcursor.next_opening hkind opens
  · exact nofun

/-- What closes an enclosure leads out of it.  Where the text ends instead, the bracket that is
blamed is the innermost one. -/
theorem expectClosing {mark closing : Mark} (partners : mark.closing? = some closing)
    (openedAt : Position) :
    Tracks text (⟨mark, openedAt⟩ :: opened) (fun _ => opened)
      (Parser.expectClosing mark closing openedAt) := by
  intro cursor hcursor
  unfold Parser.expectClosing
  split
  · rename_i hend
    rintro _ _ ⟨⟩
    exact hcursor.innermost hend _
  · split
    · rename_i hkind
      exact hcursor.next_closing hkind partners
    · exact nofun

end Tracks

namespace Balances

theorem pure {value : α} : Balances text (Pure.pure value) := fun _ _ h => h

theorem exhausted : Balances text (Parser.exhausted : Parser α) := fun _ => .exhausted

theorem bind {next : α → Parser β} (hitem : Balances text item)
    (hnext : ∀ value, Balances text (next value)) : Balances text (item >>= next) :=
  fun opened => (hitem opened).bind fun value => hnext value opened

theorem peek {next : Token.Kind → Parser α} (hnext : ∀ kind, Balances text (next kind)) :
    Balances text (Parser.peek >>= next) :=
  fun opened cursor => hnext cursor.kind opened cursor

theorem reject {cause : SyntaxError.Cause} {position : Position}
    (blames : ∀ mark openedAt, cause ≠ .unclosedDelimiter mark openedAt) :
    Balances text (Parser.reject cause position : Parser α) :=
  fun _ _ => .reject blames

theorem eat? {kind : Token.Kind} (plain : kind.isBracket = false) :
    Balances text (Parser.eat? kind) := by
  intro opened cursor hcursor
  unfold Parser.eat?
  split
  · rename_i hkind
    exact hcursor.next_plain (hkind ▸ plain)
  · exact hcursor

theorem expect {kind : Token.Kind} (plain : kind.isBracket = false) :
    Balances text (Parser.expect kind) := by
  intro opened cursor hcursor
  unfold Parser.expect
  split
  · rename_i hkind
    exact hcursor.next_plain (hkind ▸ plain)
  · exact nofun

theorem identifier : Balances text Parser.identifier := by
  intro opened cursor hcursor
  unfold Parser.identifier
  split
  · rename_i hkind
    exact hcursor.next_plain (by rw [hkind]; rfl)
  · exact nofun

/-! ### Loops -/

theorem many {start : Token.Kind} (plain : start.isBracket = false) (hitem : Balances text item)
    (bound : Nat) : Balances text (Parser.many start item bound) := by
  induction bound with
  | zero => exact exhausted
  | succ bound ih =>
      refine (eat? plain).bind fun started => ?_
      split
      · exact hitem.bind fun first => ih.bind fun rest => pure
      · exact pure

theorem separated (closing : Mark) (hitem : Balances text item) (bound : Nat) :
    Balances text (Parser.separated closing item bound) := by
  refine peek fun kind => ?_
  split
  · exact pure
  · exact hitem.bind fun first => (many rfl hitem bound).bind fun rest => pure

/-- What stands in an enclosure is balanced, and so is the enclosure. -/
theorem delimited {opening closing : Mark} (partners : opening.closing? = some closing)
    (hitem : Balances text item) (bound : Nat) :
    Balances text (Parser.delimited opening closing item bound) := by
  intro opened
  refine (Tracks.expect partners).bind fun openedAt => ?_
  refine (separated closing hitem bound _).bind fun items => ?_
  exact (Tracks.expectClosing partners openedAt).bind fun _ => pure _

end Balances

end Parser

end Grammar
end Bir
