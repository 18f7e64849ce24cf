import Bir.Text.Quoted
import Bir.Token.Basic

/-!
# Listings — tokens as text, one a line

`Token.listing` shows the tokens of a file for inspection: the label of each kind with what the
token carries, and its position.
-/

namespace Bir
namespace Token

/-- A label and, in parentheses, what goes with it. -/
def labelled (label content : String) : String := label ++ "(" ++ content ++ ")"

/-- A kind with what it carries. -/
def Kind.shown (kind : Kind) : String :=
  match kind with
  | .integer value => labelled kind.label (toString value.toInt)
  | .text value => labelled kind.label (Text.quoted value)
  | .comment words => labelled kind.label (Text.quoted words)
  | .identifier name negative =>
    kind.label ++ " \x7b name: " ++ Text.quoted name ++ ", negative: "
      ++ (if negative then "true" else "false") ++ " \x7d"
  | .slot op => labelled kind.label op.name
  | .condition op => labelled kind.label op.name
  | _ => kind.label

/-- A token with its position. -/
def line (token : Token) : String :=
  "  " ++ token.kind.shown ++ " @ " ++ token.position.text ++ "\n"

/-- The tokens of the file with the given path. -/
def listing (path : String) (tokens : List Token) : String :=
  "Tokens for '" ++ path ++ "' (" ++ toString tokens.length ++ " tokens):\n"
    ++ String.join (tokens.map line)

end Token
end Bir
