import Bir.Proofs.Source.Literals
import Bir.Proofs.Source.Progress

/-!
# Strings — where a string ends and what it denotes

Read from its opening quote on, a string is a run of pieces, and the first quote that is no part of a
piece closes it.  A scanner finds that quote, although it takes as much as it can and looks back at the
backslashes before the last quote: `Token.strings_are_read_forwards`.
-/

namespace Bir
namespace Token

open Literal

theorem lexemeAt_quote (rest : List Char) : lexemeAt '"' rest = stringAt rest := rfl

variable {source : String} {read : List (Kind × Nat)} {offset : Nat} {rest : List Char}
  {pieces : List Piece}

namespace Scans

variable (scans : Scans source.toList read offset) (quote : source.toList.drop offset = '"' :: rest)

include scans quote

/-- A string whose escapes are all known is read up to its closing quote. -/
theorem string {later : List Char} (fits : ∀ piece ∈ pieces, piece.Fits)
    (closed : rest = spell pieces ++ '"' :: later) {plain : List Char}
    (meaning : pieces.mapM Piece.meaning = .ok plain) :
    Scans source.toList (read ++ [(.text (String.ofList plain), offset)])
      (offset + ((spell pieces).length + 2)) := by
  refine scans.token quote rfl ?_
  rw [lexemeAt_quote, closed, stringAt_closed fits, meaning]

/-- A string with an unknown escape is refused for the first one. -/
theorem string_invalidEscape {later : List Char} (fits : ∀ piece ∈ pieces, piece.Fits)
    (closed : rest = spell pieces ++ '"' :: later) {c : Char}
    (meaning : pieces.mapM Piece.meaning = .error c) :
    scan source = .error ⟨.invalidEscape c, placeAt source.toList offset⟩ := by
  refine scans.scan_eq_error ⟨'"', rest, quote, rfl, ?_⟩
  rw [lexemeAt_quote, closed, stringAt_closed fits, meaning]

/-- A string that no quote closes is refused. -/
theorem string_unterminated
    (unclosed : ¬ ∃ pieces later, (∀ piece ∈ pieces, piece.Fits) ∧
      rest = spell pieces ++ '"' :: later) :
    scan source = .error ⟨.unterminatedString, placeAt source.toList offset⟩ := by
  obtain ⟨pieces, last, hrest, hfits, ⟨later, rfl⟩ | hbreaks⟩ := exists_pieces rest
  · exact (unclosed ⟨pieces, later, hfits, hrest⟩).elim
  · refine scans.scan_eq_error ⟨'"', rest, quote, rfl, ?_⟩
    rw [lexemeAt_quote, hrest, stringAt_unclosed hfits hbreaks]

end Scans

/-- Strings are read as if from left to right, each backslash together with the character behind it.
The first other quote closes the string, which denotes what its pieces stand for and is refused for the
first escape that stands for nothing.  If a line or the text ends before, the string is unterminated,
whatever its escapes are. -/
theorem strings_are_read_forwards {source : String} {read : List (Kind × Nat)} {offset : Nat}
    {rest : List Char} (scans : Scans source.toList read offset)
    (quote : source.toList.drop offset = '"' :: rest) :
    (∀ pieces later, (∀ piece ∈ pieces, piece.Fits) → rest = spell pieces ++ '"' :: later →
      match pieces.mapM Piece.meaning with
      | .ok plain =>
        Scans source.toList (read ++ [(.text (String.ofList plain), offset)])
          (offset + ((spell pieces).length + 2)) ∧
        ∀ tokens, scan source = .ok tokens →
          read.map (placed source.toList) ++
            [⟨.text (String.ofList plain), placeAt source.toList offset⟩] <+: tokens
      | .error c => scan source = .error ⟨.invalidEscape c, placeAt source.toList offset⟩) ∧
    ((¬ ∃ pieces later, (∀ piece ∈ pieces, piece.Fits) ∧ rest = spell pieces ++ '"' :: later) →
      scan source = .error ⟨.unterminatedString, placeAt source.toList offset⟩) := by
  refine ⟨?_, fun unclosed => scans.string_unterminated quote unclosed⟩
  intro pieces later hfits hclosed
  cases hmeaning : pieces.mapM Piece.meaning with
  | ok plain =>
      have hscans := scans.string quote hfits hclosed hmeaning
      refine ⟨hscans, fun tokens hscan => ?_⟩
      simpa [placed] using hscans.placed_prefix hscan
  | error c => exact scans.string_invalidEscape quote hfits hclosed hmeaning

/-- A quote behind three backslashes and one behind two, as an instance: the second one closes the
string, and nothing closes the string behind it. -/
theorem strings_are_read_forwards_of_backslashes :
    Scans "x \"a\\\\\\\"\\\\\" \"y".toList
        [(.identifier "x" false, 0), (.text "a\\\"\\", 2)] 11 ∧
      scan "x \"a\\\\\\\"\\\\\" \"y" = .error ⟨.unterminatedString, ⟨1, 13⟩⟩ := by
  have hname : Scans "x \"a\\\\\\\"\\\\\" \"y".toList [(.identifier "x" false, 0)] 1 :=
    @Scans.token _ [] 0 'x' _ _ 1 .start rfl rfl rfl
  have hstring := (strings_are_read_forwards (hname.blank rfl rfl) rfl).1
    [.plain 'a', .escaped '\\', .escaped '"', .escaped '\\'] [' ', '"', 'y'] (by decide) rfl
  have hblank := hstring.1.blank rfl rfl
  have hplace : placeAt "x \"a\\\\\\\"\\\\\" \"y".toList 12 = ⟨1, 13⟩ := by decide +kernel
  refine ⟨hstring.1, ?_⟩
  rw [← hplace]
  refine (@strings_are_read_forwards _ _ _ ['y'] hblank rfl).2 ?_
  rintro ⟨pieces, later, -, hclosed⟩
  have hquote : '"' ∈ ['y'] := by rw [hclosed]; simp
  exact absurd hquote (by decide)

end Token
end Bir
