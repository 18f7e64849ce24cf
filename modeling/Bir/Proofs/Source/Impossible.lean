import Bir.Proofs.Source.Passages
import Bir.Proofs.Source.PromptStatements
import Bir.Proofs.Source.Settled

/-!
# Impossible tokens — where a program is rejected

A program is rejected at the first token that no program has in its place.  This file defines
`Viable`: tokens can be gone on with to a program.

A rejection is final for every bound, since under a great enough one a program is read as under any
greater one.
-/

namespace Bir
namespace Grammar

open Bir.Grammar.Parser

variable {bound bound' : Nat}

/-! ## Imports -/

section Imports

variable {cursor : Cursor}

/-- The name of a module that is imported. -/
def importName (position : Position) : Parser Import := do
  let named ← here
  match ← peek with
  | .text name =>
    skip
    return ⟨name, position⟩
  | found => reject (.unexpectedToken .moduleName found) named

theorem importName_of_text {name : String} (h : cursor.kind = .text name) (position : Position) :
    importName position cursor = .accepted ⟨name, position⟩ cursor.next := by
  rw [importName, here_bind, peek_bind, h]
  rfl

theorem importName_of_other (h : ∀ name, cursor.kind ≠ .text name) (position : Position) :
    importName position cursor =
      .rejected ⟨.unexpectedToken .moduleName cursor.kind, cursor.position⟩ := by
  rw [importName, here_bind, peek_bind]
  cases hkind : cursor.kind with
  | text name => exact absurd hkind (h name)
  | _ => rfl

theorem importRequest_local {behind : View} :
    Local (SameHead (SameHead behind)) (fun _ => behind) importRequest importRequest := by
  refine (Local.expect (.keyword .use) nofun).bind fun position cursor => ?_
  by_cases hname : ∃ name, cursor.kind = .text name
  · obtain ⟨name, hname⟩ := hname
    refine .take (by simp [hname]) (importName_of_text hname position) fun cursor' hhead => ?_
    exact importName_of_text (hhead.kind.symm.trans hname) position
  · intro request rest hread
    cases (importName_of_other (fun name h => hname ⟨name, h⟩) position).symm.trans hread

/-- The name that stands for one that is missing. -/
abbrev anyText : Token.Kind := .text ""

theorem importName_takes {follow : Cursor → Prop} (position : Position) :
    Takes (importName position) [] [anyText] follow fun cursor => cursor.kind = anyText :=
  .token nofun fun token hkind => by
    refine ⟨⟨"", position⟩, fun left _ => ?_⟩
    have hname : (left.prepend [token]).kind = anyText := hkind
    exact importName_of_text hname position

theorem importName_prompt {follow : Cursor → Prop} (position : Position) :
    Prompt (Instead [anyText]) follow (importName position) (importName position) := by
  intro cursor
  by_cases hname : ∃ name, cursor.kind = .text name
  · obtain ⟨name, hname⟩ := hname
    exact .accepted (importName_of_text hname position)
  · have hother (left : Cursor) (hleft : left.kind = cursor.kind) (name : String) :
        left.kind ≠ .text name :=
      fun h => hname ⟨name, hleft.symm.trans h⟩
    refine .reject (importName_of_other (hother cursor rfl) position)
      (fun left hleft value after hread => ?_) (fun _ h => h) (importName_takes position)
    cases (importName_of_other (hother left hleft) position).symm.trans hread

theorem importRequest_prompt {follow : Cursor → Prop} (huse : cursor.kind = .keyword .use) :
    PromptAt cursor (SameHead (Instead [anyText])) follow importRequest importRequest :=
  .andThen (if_pos huse) (Local.expect (.keyword .use) nofun cursor)
    (importName_prompt cursor.position cursor.next)

end Imports

/-! ## Programs -/

section Programs

variable {inner inner' : Parser Statement} {cursor : Cursor} {inHeader : Bool}

theorem programRest_stop (hend : cursor.kind = .endOfFile) :
    programRest inner (bound + 1) inHeader cursor = .accepted {} cursor := by
  rw [programRest, peek_bind, if_pos hend]
  rfl

theorem programRest_import (huse : cursor.kind = .keyword .use) :
    programRest inner (bound + 1) true cursor =
      (do
        let request ← importRequest
        let rest ← programRest inner bound true
        return { rest with imports := request :: rest.imports } : Parser Program) cursor := by
  rw [programRest, peek_bind, if_neg (by simp [huse]), if_pos ⟨rfl, huse⟩]

theorem programRest_statement (some' : cursor.kind ≠ .endOfFile)
    (noImport : ¬(inHeader = true ∧ cursor.kind = .keyword .use)) :
    programRest inner (bound + 1) inHeader cursor =
      (do
        let first ← inner
        let rest ← programRest inner bound (inHeader && first.isComment)
        return { rest with statements := first :: rest.statements } : Parser Program) cursor := by
  rw [programRest, peek_bind, if_neg some', if_neg noImport]

theorem programRest_takes (hbound : 0 < bound) :
    Takes (programRest inner bound inHeader) [] [] (fun left => left.kind = .endOfFile)
      (fun left => left.kind = .endOfFile) where
  endless := nofun
  reads more hmore := by
    obtain _ | bound := bound
    · omega
    · cases List.map_eq_nil_iff.1 hmore
      exact ⟨{}, fun left hleft => ⟨programRest_stop hleft, hleft⟩⟩

/-- An import and what follows it are as prompt as what follows. -/
theorem imported_prompt {rest rest' : Parser Program} (huse : cursor.kind = .keyword .use)
    (hrest : Prompt AtStatement (fun left => left.kind = .endOfFile) rest rest')
    (htakes : Takes rest' [] [] (fun left => left.kind = .endOfFile)
      (fun left => left.kind = .endOfFile)) :
    PromptAt cursor (SameHead Anywhere) (fun left => left.kind = .endOfFile)
      (do
        let request ← importRequest
        let others ← rest
        return { others with imports := request :: others.imports })
      (do
        let request ← importRequest
        let others ← rest'
        return { others with imports := request :: others.imports }) := by
  have hrequest : PromptAt cursor (SameHead Anywhere) (fun left => left.kind = .endOfFile)
      importRequest importRequest :=
    .widen _ (importRequest_prompt huse) fun _ h => h.mono fun _ _ _ => trivial
  exact hrequest.bind (fun _ => AtStatement) _
    ((importRequest_local cursor).widen _ fun _ h => h.mono fun _ _ _ => trivial)
    (fun request after _ => (hrest after).map) ⟨[], fun request => htakes.map⟩

/-- A statement and what follows it are as prompt as both are. -/
theorem stated_prompt {rest rest' : Statement → Parser Program}
    (hlocal : Local SameStart Behind inner inner')
    (hinner : Prompt AtStatement EndsStatement inner inner')
    (hrest : ∀ first, Prompt AtStatement (fun left => left.kind = .endOfFile) (rest first)
      (rest' first))
    (htakes : ∀ first, Takes (rest' first) [] [] (fun left => left.kind = .endOfFile)
      (fun left => left.kind = .endOfFile)) :
    Prompt AtStatement (fun left => left.kind = .endOfFile)
      (do
        let first ← inner
        let others ← rest first
        return { others with statements := first :: others.statements })
      (do
        let first ← inner'
        let others ← rest' first
        return { others with statements := first :: others.statements }) := by
  refine fun cursor => (hinner cursor).bind Behind EndsStatement
    ((hlocal cursor).widen _ fun _ h => h.begins) (fun first after _ => ?_) ⟨[], fun first => ?_⟩
  · refine ((hrest first after).map).widen _ fun _ h => h.behind ?_ first
    simp [Token.Kind.continuesStatement, Token.Kind.continuesExpression]
  · exact (htakes first).map.mono (fun _ h => h) fun _ h => .of_kind h rfl (by simp)

theorem programRest_prompt (lt : bound < bound') (hlocal : Local SameStart Behind inner inner')
    (hinner : Prompt AtStatement EndsStatement inner inner') :
    Prompt AtStatement (fun left => left.kind = .endOfFile) (programRest inner bound inHeader)
      (programRest inner' bound' inHeader) := by
  induction bound generalizing bound' inHeader with
  | zero => exact fun _ => .exhausted
  | succ bound ih =>
      obtain _ | bound' := bound'
      · omega
      · intro cursor
        have hlt := Nat.lt_of_succ_lt_succ lt
        have htakes (inHeader : Bool) : Takes (programRest inner' bound' inHeader) [] [] _ _ :=
          programRest_takes (Nat.zero_lt_of_lt hlt)
        by_cases hend : cursor.kind = .endOfFile
        · exact .accepted (programRest_stop hend)
        by_cases himport : inHeader = true ∧ cursor.kind = .keyword .use
        · obtain ⟨rfl, huse⟩ := himport
          refine .widen (SameHead Anywhere) ?_ fun _ h => h.begins_of_ne (by simp [huse])
          refine (imported_prompt huse (ih hlt) (htakes true)).congr (programRest_import huse) ?_
          exact fun cursor' h => programRest_import (h.kind.symm.trans huse)
        · refine (stated_prompt hlocal hinner (fun first => ih hlt) (fun first => htakes _) cursor).congr
            (programRest_statement hend himport) fun cursor' h => ?_
          rcases h.kind with hsame | hfresh
          · exact programRest_statement (hsame ▸ hend) (hsame ▸ himport)
          · simp only [List.mem_cons, List.not_mem_nil, or_false] at hfresh
            rcases hfresh with h | h <;> exact programRest_statement (by simp [h]) (by simp [h])

/-- What a program rejects is the first token that is impossible in it. -/
theorem program_prompt (room : bound + 2 ≤ bound') :
    Prompt AtStatement (fun left => left.kind = .endOfFile) (program bound) (program bound') :=
  programRest_prompt (by omega) (statement_local (by omega)) (statement_prompt room)

end Programs

/-! ## Great enough bounds -/

section Bounds

variable {cursor rest : Cursor} {value : Program}

/-- What is read as a statement is read as the same one under a greater bound. -/
theorem statement_mono (le : bound ≤ bound') {cursor rest : Cursor} {value : Statement}
    (h : statement bound cursor = .accepted value rest) :
    statement bound' cursor = .accepted value rest := by
  obtain ⟨taken, hcursor, hleft⟩ := statement_local le cursor value rest h
  rw [hcursor]
  exact (hleft rest ⟨.of_kind rfl, fun _ hseeds => hseeds⟩).1

theorem programRest_mono {inner inner' : Parser Statement} {inHeader : Bool} (le : bound ≤ bound')
    (hinner : ∀ cursor value rest, inner cursor = .accepted value rest →
      inner' cursor = .accepted value rest)
    (h : programRest inner bound inHeader cursor = .accepted value rest) :
    programRest inner' bound' inHeader cursor = .accepted value rest := by
  induction bound generalizing bound' cursor rest value inHeader with
  | zero => cases h
  | succ bound ih =>
      obtain _ | bound' := bound'
      · omega
      · have hle := Nat.le_of_succ_le_succ le
        by_cases hend : cursor.kind = .endOfFile
        · exact (programRest_stop hend).trans ((programRest_stop hend).symm.trans h)
        by_cases himport : inHeader = true ∧ cursor.kind = .keyword .use
        · obtain ⟨rfl, huse⟩ := himport
          rw [programRest_import huse] at h ⊢
          obtain ⟨request, middle, hrequest, h⟩ := bind_eq_accepted.1 h
          obtain ⟨others, after, hothers, h⟩ := bind_eq_accepted.1 h
          exact bind_eq_accepted.2 ⟨request, middle, hrequest,
            bind_eq_accepted.2 ⟨others, after, ih hle hothers, h⟩⟩
        · rw [programRest_statement hend himport] at h ⊢
          obtain ⟨first, middle, hfirst, h⟩ := bind_eq_accepted.1 h
          obtain ⟨others, after, hothers, h⟩ := bind_eq_accepted.1 h
          exact bind_eq_accepted.2 ⟨first, middle, hinner _ _ _ hfirst,
            bind_eq_accepted.2 ⟨others, after, ih hle hothers, h⟩⟩

/-- A program that is read under some bound is read as the same one under a greater bound. -/
theorem program_mono (le : bound ≤ bound') (h : program bound cursor = .accepted value rest) :
    program bound' cursor = .accepted value rest :=
  programRest_mono le (fun _ _ _ => statement_mono le) h

/-- A program that is read under some bound is read under the one that suffices. -/
theorem program_of_accepted (h : program bound cursor = .accepted value rest) :
    program (sufficientBound cursor.tokens.length) cursor = .accepted value rest := by
  obtain le | le := Nat.le_total bound (sufficientBound cursor.tokens.length)
  · exact program_mono le h
  · exact (program_settled le (Nat.le_refl _)).same.symm.trans h

theorem ofTokens_eq_ok {tokens : List Token}
    (h : program bound (Cursor.ofTokens tokens) = .accepted value rest) :
    Program.ofTokens tokens = .ok value := by
  rw [Program.ofTokens, program_of_accepted h]
  rfl

/-- The bound suffices, so a text that is no program is rejected and does not exhaust it. -/
theorem rejected_of_ofTokens {tokens : List Token} {error : SyntaxError}
    (h : Program.ofTokens tokens = .error error) :
    program (sufficientBound (Cursor.ofTokens tokens).tokens.length) (Cursor.ofTokens tokens) =
      .rejected error := by
  rw [Program.ofTokens] at h
  cases hread : program (sufficientBound (Cursor.ofTokens tokens).tokens.length)
      (Cursor.ofTokens tokens) with
  | accepted program rest =>
      rw [hread] at h
      cases h
  | rejected error =>
      rw [hread] at h
      cases h
      rfl
  | exhausted => exact absurd hread (program_settled (Nat.le_refl _) (Nat.le_refl _)).ends

end Bounds

/-! ## First impossible tokens -/

/-- Tokens that some more tokens make a program. -/
def Viable (tokens : List Token) : Prop :=
  ∃ more program, Program.ofTokens (tokens ++ more) = .ok program

section

variable {tokens taken : List Token} {ending : Token} {rest : Cursor}

theorem Cursor.prepend_injective (taken : List Token) : Function.Injective (Cursor.prepend taken) := by
  rintro ⟨tokens, stop⟩ ⟨tokens', stop'⟩ h
  simpa [Cursor.prepend] using h

/-- At the front of what is left of a text stands the token behind those that were taken. -/
theorem token_at_rest (hending : ending.kind = .endOfFile)
    (h : (⟨tokens, ending.position⟩ : Cursor) = rest.prepend taken) :
    ∃ token, (tokens ++ [ending])[taken.length]? = some token ∧ token.position = rest.position ∧
      token.kind = rest.kind ∧ (tokens ++ [ending]).take taken.length = taken := by
  obtain ⟨left, stop⟩ := rest
  obtain ⟨rfl, rfl⟩ := Cursor.mk.inj h
  cases left with
  | nil => exact ⟨ending, by simp, rfl, hending, by simp⟩
  | cons token left => exact ⟨token, by simp, rfl, rfl, by simp⟩

/-- Different tokens have different positions, so a position tells how many tokens stand before it. -/
theorem taken_eq_of_position {others : List Token} {rest' : Cursor}
    (hending : ending.kind = .endOfFile)
    (distinct : ((tokens ++ [ending]).map Token.position).Nodup)
    (h : (⟨tokens, ending.position⟩ : Cursor) = rest.prepend taken)
    (h' : (⟨tokens, ending.position⟩ : Cursor) = rest'.prepend others)
    (same : rest.position = rest'.position) : others = taken := by
  obtain ⟨token, htoken, hposition, -, htaken⟩ := token_at_rest hending h
  obtain ⟨token', htoken', hposition', -, hothers⟩ := token_at_rest hending h'
  have hplace : ((tokens ++ [ending]).map Token.position)[taken.length]? =
      ((tokens ++ [ending]).map Token.position)[others.length]? := by
    rw [List.getElem?_map, List.getElem?_map, htoken, htoken', Option.map_some, Option.map_some,
      hposition, hposition', same]
  have hlength : taken.length = others.length :=
    (List.getElem?_inj (by simpa using (List.getElem?_eq_some_iff.1 htoken).1) distinct).1 hplace
  rw [← htaken, ← hothers, hlength]

theorem ofTokens_of_ending (endless : Endless tokens) (hending : ending.kind = .endOfFile) :
    Cursor.ofTokens (tokens ++ [ending]) = ⟨tokens, ending.position⟩ := by
  have hall : ∀ token ∈ tokens, decide (token.kind ≠ .endOfFile) = true := by
    simpa [Endless] using endless
  have htake : (tokens ++ [ending]).takeWhile (fun token => token.kind ≠ .endOfFile) = tokens := by
    rw [List.takeWhile_append_of_pos hall]
    simp [hending]
  have hfind : (tokens ++ [ending]).find? (fun token => token.kind = .endOfFile) = some ending := by
    have hnone : tokens.find? (fun token => token.kind = .endOfFile) = none :=
      List.find?_eq_none.2 fun token hmem => by simpa using endless token hmem
    simp [hnone, hending]
  simp only [Cursor.ofTokens, htake, hfind]

/-- Tokens behind others are read at a cursor where the first of them stands. -/
theorem ofTokens_of_behind (endless : Endless taken) (token : Token) (more : List Token) :
    ∃ left : Cursor, Cursor.ofTokens (taken ++ token :: more) = left.prepend taken ∧
      left.kind = token.kind := by
  have htake : (taken ++ token :: more).takeWhile (fun token => token.kind ≠ .endOfFile) =
      taken ++ (token :: more).takeWhile fun token => token.kind ≠ .endOfFile :=
    List.takeWhile_append_of_pos fun token hmem => by simpa using endless token hmem
  refine ⟨⟨(token :: more).takeWhile fun token => token.kind ≠ .endOfFile,
    (Cursor.ofTokens (taken ++ token :: more)).stop⟩, ?_, ?_⟩
  · simp only [Cursor.ofTokens, Cursor.prepend, htake]
  · by_cases hend : token.kind = .endOfFile <;> simp [Cursor.kind, hend]

/-- What tokens of some kinds complete to a program can be gone on with. -/
theorem viable_of_takes {kinds : List Token.Kind} {before : Cursor → Prop} (endless : Endless taken)
    (h : Takes (program bound) taken kinds (fun left => left.kind = .endOfFile) before) :
    Viable taken := by
  obtain ⟨more, hmore⟩ : ∃ more : List Token, more.map Token.kind = kinds :=
    ⟨kinds.map fun kind => ⟨kind, .start⟩, by simp [Function.comp_def]⟩
  obtain ⟨value, hreads⟩ := h.reads more hmore
  have hall : Endless (taken ++ more) := by
    intro token hmem hend
    obtain hmem | hmem := List.mem_append.1 hmem
    · exact endless token hmem hend
    · exact h.endless (hmore ▸ List.mem_map.2 ⟨token, hmem, hend⟩)
  obtain ⟨stop, hstop⟩ := Cursor.ofTokens_of_endless hall
  have hread : program bound (Cursor.ofTokens (taken ++ more)) = .accepted value ⟨[], stop⟩ := by
    rw [hstop]
    simpa [Cursor.prepend] using (hreads ⟨[], stop⟩ rfl).1
  exact ⟨more, value, ofTokens_eq_ok hread⟩

end

/-- Where a text is no program, and not because something other than a name is assigned to, its
first token is blamed that no program has in its place: those before it can be gone on with, and with
it they cannot. -/
theorem rejections_are_at_the_first_impossible_token {tokens : List Token} {ending : Token}
    {error : SyntaxError} (endless : Endless tokens) (hending : ending.kind = .endOfFile)
    (distinct : ((tokens ++ [ending]).map Token.position).Nodup)
    (herror : Program.ofTokens (tokens ++ [ending]) = .error error)
    (hcause : error.cause ≠ .assignmentToExpression) :
    ∃ place token, (tokens ++ [ending])[place]? = some token ∧ error.position = token.position ∧
      Viable ((tokens ++ [ending]).take place) ∧
        ¬Viable ((tokens ++ [ending]).take (place + 1)) := by
  have hcursor := ofTokens_of_ending endless hending
  have hread := rejected_of_ofTokens herror
  rw [hcursor] at hread
  have blamed (bound : Nat) (room : sufficientBound tokens.length + 2 ≤ bound) :=
    program_prompt room ⟨tokens, ending.position⟩ error hread hcause
  obtain ⟨taken, rest, hposition, himpossible⟩ := blamed _ (Nat.le_refl _)
  obtain ⟨token, htoken, hplace, hkind, htaken⟩ := token_at_rest hending himpossible.split
  have htakenEndless : Endless taken := by
    intro token hmem
    obtain ⟨rfl, -⟩ := Cursor.mk.inj himpossible.split
    exact endless token (List.mem_append_left _ hmem)
  refine ⟨taken.length, token, htoken, hposition.trans hplace.symm, ?_, ?_⟩
  · obtain ⟨kinds, htakes⟩ := himpossible.goesOn
    rw [htaken]
    exact viable_of_takes htakenEndless htakes
  · rintro ⟨more, program, hprogram⟩
    rw [List.take_add_one, htoken, htaken, Option.toList_some, List.append_assoc] at hprogram
    obtain ⟨left, hleft, hleftKind⟩ := ofTokens_of_behind htakenEndless token more
    obtain ⟨bound, after, haccepted⟩ := accepted_of_ofTokens hprogram
    -- Under a bound that is great enough for both texts the same token is to blame.
    obtain ⟨others, rest', hposition', himpossible'⟩ := blamed _ (Nat.le_max_right bound _)
    have hothers := taken_eq_of_position hending distinct himpossible.split himpossible'.split
      (hposition.symm.trans hposition')
    have hrest : rest = rest' := by
      have hsplit := himpossible.split.symm.trans himpossible'.split
      rw [hothers] at hsplit
      exact Cursor.prepend_injective taken hsplit
    have hfinal := (himpossible'.final left (by rw [hleftKind, hkind, hrest])).2
    refine hfinal program after ?_
    rw [hothers, ← hleft]
    exact program_mono (Nat.le_max_left _ _) haccepted

/-- What seeds the slots of a block stands in brackets within its braces, so a parenthesis in the place
of the bracket is the first impossible token. -/
theorem rejections_are_at_the_first_impossible_token_of_populate :
    ∃ tokens ending error, Endless tokens ∧ ending.kind = .endOfFile ∧
      ((tokens ++ [ending]).map Token.position).Nodup ∧
      Program.ofTokens (tokens ++ [ending]) = .error error ∧
      error.cause ≠ .assignmentToExpression ∧ error.position = ⟨1, 7⟩ ∧
      ∃ place token, (tokens ++ [ending])[place]? = some token ∧ error.position = token.position ∧
        Viable ((tokens ++ [ending]).take place) ∧
          ¬Viable ((tokens ++ [ending]).take (place + 1)) := by
  let tokens : List Token :=
    [⟨.identifier "a" false, ⟨1, 1⟩⟩, ⟨.keyword .implements, ⟨1, 2⟩⟩,
      ⟨.identifier "b" false, ⟨1, 3⟩⟩, ⟨.mark .leftBrace, ⟨1, 4⟩⟩, ⟨.mark .leftBracket, ⟨1, 5⟩⟩,
      ⟨.integer 5, ⟨1, 6⟩⟩, ⟨.mark .rightParen, ⟨1, 7⟩⟩]
  let ending : Token := ⟨.endOfFile, ⟨1, 8⟩⟩
  have hread : Program.ofTokens (tokens ++ [ending]) = .error
      ⟨.unexpectedToken (.token (.mark .rightBracket)) (.mark .rightParen), ⟨1, 7⟩⟩ := rfl
  exact ⟨tokens, ending, _, by decide, rfl, by decide, hread, nofun, rfl,
    rejections_are_at_the_first_impossible_token (by decide) rfl (by decide) hread nofun⟩

end Grammar
end Bir
