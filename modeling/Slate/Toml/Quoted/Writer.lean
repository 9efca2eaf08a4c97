-- SUMMARY: Writing a string in the quoted form that needs the least escaping.
import Slate.Toml.Quoted

/-!
# Writing quoted strings

The plainest form that can hold a string without escapes is taken; a tab does
not count as an escape. Where no form can, a basic form is taken and what cannot
stand as it is gets a backslash.
-/

namespace Slate.Toml

/-! ## Choosing a form -/

/-- The control characters that only an escape can write. -/
def isControl (c : Char) : Bool := (c < ' ' && c != '\t' && c != '\n') || c == '\x7f'

/-- Whether a quote stands three times in a row. -/
def hasTriple (quote : Char) : List Char → Bool
  | [] => false
  | c :: cs => [quote, quote, quote].isPrefixOf (c :: cs) || hasTriple quote cs

/-- Whether a form can hold a text without escapes. -/
def Form.holds (f : Form) (cs : List Char) : Bool :=
  !cs.any isControl &&
  match f with
  | .basic => !cs.contains '\\' && !cs.contains '"' && !cs.contains '\n'
  | .literal => !cs.contains '\'' && !cs.contains '\n'
  | .longBasic => !cs.contains '\\' && !hasTriple '"' cs
  | .longLiteral => !hasTriple '\'' cs

/-- The forms, the plainest first. -/
def Form.all : List Form := [.basic, .literal, .longBasic, .longLiteral]

/-- The form in which a text is written. -/
def Form.of (cs : List Char) : Form :=
  match Form.all.find? (·.holds cs) with
  | some f => f
  | none => if cs.contains '\n' then .longBasic else .basic

/-! ## Escapes -/

namespace Quoted

/-- The written form of one character in a basic form. -/
def escapeChar (c : Char) : List Char :=
  if c = '\x08' then ['\\', 'b']
  else if c = '\t' then ['\\', 't']
  else if c = '\n' then ['\\', 'n']
  else if c = '\x0c' then ['\\', 'f']
  else if c = '\r' then ['\\', 'r']
  else if c = '"' then ['\\', '"']
  else if c = '\\' then ['\\', '\\']
  else if isControl c then '\\' :: 'u' :: hex4 c.toNat
  else [c]

/-- The inside of a long basic form, behind `quotes` quotes that stand as they are.
Line ends stand as they are too, and of the quotes of a run every third is
escaped. -/
def escapeLong (quotes : Nat) : List Char → List Char
  | [] => []
  | c :: cs =>
    if c = '"' ∧ quotes < 2 then c :: escapeLong (quotes + 1) cs
    else if c = '\n' then c :: escapeLong 0 cs
    else escapeChar c ++ escapeLong 0 cs

/-! ## Writing -/

/-- What stands between the quotes of a form. A long form whose text has a line end
begins with one that does not count. -/
def inside (f : Form) (cs : List Char) : List Char :=
  let lead := if f.long ∧ '\n' ∈ cs then ['\n'] else []
  lead ++
  match f with
  | .basic => cs.flatMap escapeChar
  | .longBasic => escapeLong 0 cs
  | .literal | .longLiteral => cs

/-- A text in a given form. -/
def writeAs (f : Form) (cs : List Char) : List Char := f.mark ++ inside f cs ++ f.mark

/-- A text in the form chosen for it. -/
def write (cs : List Char) : List Char := writeAs (Form.of cs) cs

end Quoted

end Slate.Toml
