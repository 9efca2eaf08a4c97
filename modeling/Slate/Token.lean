-- SUMMARY: The tokens of the language: keywords, type names, identifiers, literals and marks, with their spellings.
import Slate.Source
import Slate.Value

/-!
# Tokens

A token is a stretch of source text with the class it belongs to. Keywords, type
names and marks have one fixed spelling each; identifiers, integers and strings
carry what was written.
-/

namespace Slate

/-! ## Keywords and marks -/

/-- The reserved words, type names apart. -/
inductive Keyword where
  | letKw
  | fnKw
  | ifKw
  | elseKw
  | whileKw
  | returnKw
  | breakKw
  | continueKw
  | needsKw
  | trueKw
  | falseKw
deriving DecidableEq, Repr

namespace Keyword

def all : List Keyword :=
  [letKw, fnKw, ifKw, elseKw, whileKw, returnKw, breakKw, continueKw, needsKw, trueKw, falseKw]

/-- The spelling of a keyword. -/
def text : Keyword → String
  | letKw => "let"
  | fnKw => "fn"
  | ifKw => "if"
  | elseKw => "else"
  | whileKw => "while"
  | returnKw => "return"
  | breakKw => "break"
  | continueKw => "continue"
  | needsKw => "needs"
  | trueKw => "true"
  | falseKw => "false"

end Keyword

/-- The types in the order in which they are listed. -/
def Ty.all : List Ty := [.int, .string, .bool, .void]

/-- Operators and punctuation. -/
inductive Mark where
  | plus
  | minus
  | star
  | slash
  | percent
  | equal
  | equalEqual
  | bangEqual
  | less
  | lessEqual
  | greater
  | greaterEqual
  | ampAmp
  | pipePipe
  | bang
  | leftParen
  | rightParen
  | leftBrace
  | rightBrace
  | comma
  | colon
  | semicolon
  | arrow
deriving DecidableEq, Repr

namespace Mark

/-- Every mark, those of two characters first. -/
def all : List Mark :=
  [equalEqual, bangEqual, lessEqual, greaterEqual, ampAmp, pipePipe, arrow,
    plus, minus, star, slash, percent, equal, less, greater, bang,
    leftParen, rightParen, leftBrace, rightBrace, comma, colon, semicolon]

/-- The spelling of a mark. -/
def text : Mark → String
  | plus => "+"
  | minus => "-"
  | star => "*"
  | slash => "/"
  | percent => "%"
  | equal => "="
  | equalEqual => "=="
  | bangEqual => "!="
  | less => "<"
  | lessEqual => "<="
  | greater => ">"
  | greaterEqual => ">="
  | ampAmp => "&&"
  | pipePipe => "||"
  | bang => "!"
  | leftParen => "("
  | rightParen => ")"
  | leftBrace => "\x7b"
  | rightBrace => "\x7d"
  | comma => ","
  | colon => ":"
  | semicolon => ";"
  | arrow => "->"

end Mark

/-! ## Tokens -/

/-- The class of a token. -/
inductive Kind where
  | keyword (k : Keyword)
  | typeName (ty : Ty)
  | identifier
  | integer
  | string
  | mark (m : Mark)
deriving DecidableEq, Repr

/-- A class as messages name it: the spelling where there is just one. -/
def Kind.text : Kind → String
  | .keyword k => k.text
  | .typeName ty => ty.text
  | .identifier => "identifier"
  | .integer => "integer"
  | .string => "string literal"
  | .mark m => m.text

/-- The classes with one fixed spelling, and the three that have many. -/
def Kind.all : List Kind :=
  Keyword.all.map .keyword ++ Ty.all.map .typeName ++ [.identifier, .integer, .string] ++
    Mark.all.map .mark

/-- A token: its class, the text it was read from, and where that text stands. -/
structure Token where
  kind : Kind
  text : String
  span : Span
deriving DecidableEq, Repr

end Slate
