-- SUMMARY: The four quoted forms of a TOML string, and how each is read.
import Slate.Toml.Digit
import Slate.Toml.Reader

/-!
# Quoted strings

A string is quoted in one of four forms: basic or literal, each short or long. A
basic form has escapes, which a backslash opens; a literal form stands for its
characters as they are. A short form has one quote at either end and lies on one
line, a long form has three and may hold line ends. Up to two quotes directly
before the three that close a long form belong to the string.
-/

namespace Slate.Toml

/-! ## Forms -/

/-- The quoted forms. -/
inductive Form where
  | basic
  | literal
  | longBasic
  | longLiteral
deriving DecidableEq, Repr

namespace Form

/-- The quote of a form. -/
def quote : Form → Char
  | .basic | .longBasic => '"'
  | .literal | .longLiteral => '\''

/-- Whether a form may hold line ends. -/
def long : Form → Bool
  | .basic | .literal => false
  | .longBasic | .longLiteral => true

/-- What opens a form, and what closes it. -/
def mark (f : Form) : List Char := List.replicate (if f.long then 3 else 1) f.quote

end Form

/-- The characters that may stand for themselves: all but the control characters,
of which the tab alone is allowed. -/
def isPlain (c : Char) : Bool := c == '\t' || ('\x20' ≤ c && c != '\x7f')

namespace Quoted

open Reader

/-! ## Blanks and line ends -/

/-- Space and tab. -/
def isBlank (c : Char) : Bool := c == ' ' || c == '\t'

/-- One line end: a line feed, perhaps behind a carriage return. -/
def newline : Reader Unit := text "\n" <|> text "\r\n"

/-! ## Escapes -/

/-- The character whose number is written in so many hexadecimal digits. -/
def scalar (digits : Nat) : Reader Char := do
  let ds ← exactly (isDigitOf 16) digits
  let n := number 16 ds
  if n.isValidChar then return Char.ofNat n else failure

/-- The character that a backslash and `c` stand for. -/
def escapeValue? (c : Char) : Option Char :=
  if c = 'b' then some '\x08'
  else if c = 't' then some '\t'
  else if c = 'n' then some '\n'
  else if c = 'f' then some '\x0c'
  else if c = 'r' then some '\r'
  else if c = '"' then some '"'
  else if c = '\\' then some '\\'
  else none

/-- A character written with a backslash. -/
def escape : Reader Char := do
  char '\\'
  let c ← satisfy fun _ => true
  if c = 'u' then scalar 4
  else if c = 'U' then scalar 8
  else (escapeValue? c : Option Char)

/-! ## Short forms -/

/-- One character of a basic form. -/
def basicChar : Reader Char := satisfy (fun c => isPlain c && c != '"' && c != '\\') <|> escape

/-- A string in the basic form. -/
def basic : Reader (List Char) := do
  char '"'
  let cs ← many basicChar
  char '"'
  return cs

/-- A string in the literal form. -/
def literal : Reader (List Char) := do
  char '\''
  let cs ← run (fun c => isPlain c && c != '\'')
  char '\''
  return cs

/-! ## Long forms -/

/-- One quote that does not close a long form: no two more follow it. -/
def innerQuote (quote : Char) : Reader (List Char)
  | [] => none
  | c :: cs => if c = quote ∧ ¬ [quote, quote] <+: cs then some ([c], cs) else none

/-- A line end inside a long form, which always counts as one line feed. -/
def lineEnd : Reader (List Char) := do
  newline
  return ['\n']

/-- A backslash at the end of a line: it joins the line to the next character that
is neither a blank nor a line end. -/
def joint : Reader (List Char) := do
  char '\\'
  let _ ← run isBlank
  newline
  let _ ← many ((do let _ ← run1 isBlank) <|> newline)
  return []

/-- The three quotes that close a long form, and the quotes directly before them,
at most two, that belong to the string. -/
def closing (quote : Char) : Reader (List Char) := do
  chars [quote, quote, quote]
  (do chars [quote, quote]; return [quote, quote])
    <|> (do char quote; return [quote])
    <|> return []

/-- A string in a long form whose inside is made of the given pieces. A line end
directly behind the opening quotes does not count. -/
def longForm (quote : Char) (piece : Reader (List Char)) : Reader (List Char) := do
  chars [quote, quote, quote]
  newline <|> pure ()
  let pieces ← many (innerQuote quote <|> lineEnd <|> piece)
  let last ← closing quote
  return pieces.flatten ++ last

/-- A string in the long basic form. -/
def longBasic : Reader (List Char) :=
  longForm '"' (joint <|> (do let c ← basicChar; return [c]))

/-- A string in the long literal form. -/
def longLiteral : Reader (List Char) :=
  longForm '\'' (do let c ← satisfy fun c => isPlain c && c != '\''; return [c])

end Quoted

/-- A string in any quoted form. The long forms are tried first, since their
opening quotes could be read as an empty string. -/
def quoted : Reader String := do
  let cs ← Quoted.longBasic <|> Quoted.basic <|> Quoted.longLiteral <|> Quoted.literal
  return String.ofList cs

end Slate.Toml
