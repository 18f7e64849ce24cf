import Bir.Operator
import Bir.Position

/-!
# Tokens — the words and signs of a source text

This file defines:

* `Keyword` and `Mark` — the reserved words and the punctuation;
* `Token.Kind` — what a token says, with literals already converted;
* `Token` — a kind and the position of its first character;
* `Token.Kind.describe` — how a message names a token;
* `Token.Kind.label` — the name of a kind in a listing of tokens.
-/

namespace Bir

/-! ## Words and marks -/

/-- A reserved word. -/
inductive Keyword where
  | use
  | const
  | «let»
  | init
  | «return»
  | throw
  | implements
  | «if»
  | elif
  | «else»
  | switch
  | default
  | «for»
  | «while»
  | as
  | case
  | log
  deriving DecidableEq, Repr, Inhabited

namespace Keyword

/-- All reserved words. -/
def all : List Keyword :=
  [.use, .const, .let, .init, .return, .throw, .implements, .if, .elif, .else, .switch, .default,
    .for, .while, .as, .case, .log]

/-- The spelling of a reserved word. -/
def symbol : Keyword → String
  | .use => "use"
  | .const => "const"
  | .let => "let"
  | .init => "init"
  | .return => "return"
  | .throw => "throw"
  | .implements => "implements"
  | .if => "if"
  | .elif => "elif"
  | .else => "else"
  | .switch => "switch"
  | .default => "default"
  | .for => "for"
  | .while => "while"
  | .as => "as"
  | .case => "case"
  | .log => logarithmSymbol

/-- The reserved word with the given spelling. -/
def ofSymbol? (symbol : String) : Option Keyword :=
  all.find? (fun word => word.symbol == symbol)

end Keyword

/-- A punctuation mark. -/
inductive Mark where
  | colon
  | comma
  | leftParen
  | rightParen
  | leftBrace
  | rightBrace
  | leftBracket
  | rightBracket
  | equals
  deriving DecidableEq, Repr, Inhabited

namespace Mark

/-- All punctuation marks. -/
def all : List Mark :=
  [.colon, .comma, .leftParen, .rightParen, .leftBrace, .rightBrace, .leftBracket, .rightBracket,
    .equals]

/-- The spelling of a mark. -/
def symbol : Mark → String
  | .colon => ":"
  | .comma => ","
  | .leftParen => "("
  | .rightParen => ")"
  | .leftBrace => "\x7b"
  | .rightBrace => "\x7d"
  | .leftBracket => "["
  | .rightBracket => "]"
  | .equals => "="

end Mark

/-! ## Tokens -/

namespace Token

/-- What a token says. An identifier is negative when a `-` is glued to its name. -/
inductive Kind where
  | integer (value : Int64)
  | text (value : String)
  | identifier (name : String) (negative : Bool)
  | comment (text : String)
  | slot (op : SlotOp)
  | condition (op : ConditionOp)
  | arithmetic (op : ArithmeticOp)
  | quantity (op : QuantityOp)
  | keyword (word : Keyword)
  | mark (sign : Mark)
  | endOfFile
  deriving DecidableEq, Repr, Inhabited

namespace Kind

/-- How a message names a token. -/
def describe : Kind → String
  | .integer value => "number `" ++ toString value.toInt ++ "`"
  | .text _ => "string literal"
  | .identifier name negative => "identifier `" ++ (if negative then "-" else "") ++ name ++ "`"
  | .comment _ => "comment"
  | .slot op => "`" ++ op.keyword ++ "`"
  | .condition op => "`" ++ op.symbol ++ "`"
  | .arithmetic op => "`" ++ op.symbol ++ "`"
  | .quantity op => "`" ++ op.symbol ++ "`"
  | .keyword word => "`" ++ word.symbol ++ "`"
  | .mark sign => "`" ++ sign.symbol ++ "`"
  | .endOfFile => "end of file"

/-- The name of a kind in a listing of tokens. -/
def label : Kind → String
  | .integer _ => "Int"
  | .text _ => "Str"
  | .identifier _ _ => "Ident"
  | .comment _ => "Comment"
  | .slot _ => "Mutater"
  | .condition _ => "Condition"
  | .arithmetic .addition => "Plus"
  | .arithmetic .subtraction => "Minus"
  | .arithmetic .multiplication => "Star"
  | .arithmetic .division => "Slash"
  | .arithmetic .exponent => "Caret"
  | .arithmetic .root => "Apostrophe"
  | .arithmetic .modulus => "Percent"
  | .quantity .increment => "PlusPlus"
  | .quantity .decrement => "MinusMinus"
  | .quantity .add => "PlusEq"
  | .quantity .subtract => "MinusEq"
  | .quantity .multiply => "StarEq"
  | .quantity .divide => "SlashEq"
  | .keyword word => word.symbol.capitalize
  | .mark .colon => "Colon"
  | .mark .comma => "Comma"
  | .mark .leftParen => "LParen"
  | .mark .rightParen => "RParen"
  | .mark .leftBrace => "LBrace"
  | .mark .rightBrace => "RBrace"
  | .mark .leftBracket => "LBracket"
  | .mark .rightBracket => "RBracket"
  | .mark .equals => "Eq"
  | .endOfFile => "Eof"

/-- The kinds with a spelling of their own that is no word: operators and marks. -/
def signs : List Kind :=
  SlotOp.all.map .slot ++ ConditionOp.all.map .condition ++ QuantityOp.all.map .quantity
    ++ [.arithmetic .addition, .arithmetic .subtraction, .arithmetic .multiplication,
      .arithmetic .division, .arithmetic .exponent, .arithmetic .root, .arithmetic .modulus]
    ++ Mark.all.map .mark

/-- The spelling of an operator, a mark or a reserved word; no other kind has one. -/
def symbol : Kind → String
  | .slot op => op.keyword
  | .condition op => op.symbol
  | .arithmetic op => op.symbol
  | .quantity op => op.symbol
  | .keyword word => word.symbol
  | .mark sign => sign.symbol
  | _ => ""

end Kind

end Token

/-- A kind and the position of the first character. -/
structure Token where
  kind : Token.Kind
  position : Position
  deriving DecidableEq, Repr, Inhabited

end Bir
