import Bir.Proofs.Source.First

/-!
# Turns — what a loop over a sign reads

This file defines `Turns start item`: items with the sign `start` before each of them, one after the
other.  A loop reads exactly these, up to where the sign is missing, if its bound has room for them.
-/

namespace Bir
namespace Grammar

open Bir.Grammar.Parser

/-- Items with a sign before each of them, one after the other. -/
inductive Turns {α : Type} (start : Token.Kind) (item : Parser α) :
    Cursor → List α → Cursor → Prop
  | done (cursor : Cursor) : Turns start item cursor [] cursor
  | step {cursor middle rest : Cursor} {first : α} {others : List α} (starts : cursor.kind = start)
      (reads : item cursor.next = .accepted first middle)
      (goesOn : Turns start item middle others rest) :
      Turns start item cursor (first :: others) rest

namespace Turns

variable {α : Type} {start : Token.Kind} {item item' : Parser α} {cursor middle rest : Cursor}
  {items others : List α} {bound : Nat}

theorem append (h : Turns start item cursor items middle)
    (goesOn : Turns start item middle others rest) :
    Turns start item cursor (items ++ others) rest := by
  induction h with
  | done => exact goesOn
  | step starts reads _ ih => exact .step starts reads (ih goesOn)

theorem cons (sign : Token) {first : α} (starts : sign.kind = start)
    (reads : item cursor = .accepted first middle) (goesOn : Turns start item middle others rest) :
    Turns start item (cursor.prepend [sign]) (first :: others) rest :=
  .step starts reads goesOn

theorem of_many (h : many start item bound cursor = .accepted items rest) :
    Turns start item cursor items rest := by
  induction bound generalizing cursor items with
  | zero => cases h
  | succ bound ih =>
      obtain ⟨found, afterFound, hfound, h⟩ := bind_eq_accepted.1 h
      by_cases hstart : cursor.kind = start
      · cases (eat?_of_eq hstart).symm.trans hfound
        obtain ⟨first, afterFirst, hfirst, h⟩ := bind_eq_accepted.1 h
        obtain ⟨others, afterOthers, hothers, h⟩ := bind_eq_accepted.1 h
        cases h
        exact .step hstart hfirst (ih hothers)
      · cases (eat?_of_ne hstart).symm.trans hfound
        cases h
        exact .done _

/-- A loop makes all turns if its bound has room for them. -/
theorem many (h : Turns start item cursor items rest) (room : items.length < bound)
    (hend : rest.kind ≠ start) :
    Parser.many start item bound cursor = .accepted items rest := by
  induction h generalizing bound with
  | done cursor =>
      obtain _ | bound := bound
      · cases room
      · exact (bind_of_accepted (eat?_of_ne hend)).trans rfl
  | step starts reads _ ih =>
      obtain _ | bound := bound
      · cases room
      · refine (bind_of_accepted (eat?_of_eq starts)).trans ?_
        refine (bind_of_accepted reads).trans ?_
        exact (bind_of_accepted (ih (Nat.lt_of_succ_lt_succ room) hend)).trans rfl

/-- Items that end by themselves are read alike wherever they stand. -/
theorem elsewhere (h : Turns start item cursor items rest) (some' : start ≠ .endOfFile)
    (hitem : Local SameStart (fun _ => Anywhere) item item') :
    ∃ taken, cursor = rest.prepend taken ∧ items.length ≤ taken.length ∧
      ∀ left : Cursor, Turns start item' (left.prepend taken) items left := by
  induction h with
  | done cursor => exact ⟨[], rfl, Nat.le_refl _, fun left => .done left⟩
  | @step cursor middle rest first others starts reads goesOn ih =>
      obtain ⟨sign, hsign⟩ := Cursor.eq_prepend_next (starts ▸ some')
      obtain ⟨taken, htaken, hfirst⟩ := hitem _ _ _ reads
      obtain ⟨more, rfl, hlength, hothers⟩ := ih
      refine ⟨sign :: (taken ++ more), ?_, ?_, fun left => ?_⟩
      · rw [hsign, htaken]
        simp [Cursor.prepend]
      · simp only [List.length_cons, List.length_append]
        omega
      · have hkind : sign.kind = start := by
          rw [hsign] at starts
          exact starts
        have hread := (hfirst (left.prepend more) trivial).1
        rw [← Cursor.prepend_append] at hread
        exact .step hkind hread (hothers left)

end Turns

end Grammar
end Bir
