-- SUMMARY: Reading a TOML document: keys, values, lines, and the table that they make up.
import Slate.Toml.Quoted
import Slate.Toml.Scalar

/-!
# Documents

A document is a sequence of lines. A header opens a table, and the pairs that
follow belong to it; each line is read first, and then put where it belongs.
Arrays and tables in braces nest to a limited depth, and a key has a limited
number of names.
-/

namespace Slate.Toml

namespace Document

open Reader

/-! ## Blanks and comments -/

/-- Blanks within a line. -/
def blanks : Reader Unit := do let _ ← run Quoted.isBlank

/-- A comment, up to the end of its line. -/
def comment : Reader Unit := do
  char '#'
  let _ ← run isPlain

/-- Blanks, line ends and comments, as they may stand between the items of an
array. -/
def gap : Reader Unit := do
  let _ ← many ((do let _ ← run1 Quoted.isBlank) <|> Quoted.newline <|>
    (do comment; Quoted.newline))

/-- What may follow on a line: blanks, a comment, and the end of the line or of the
document. -/
def lineRest : Reader Unit := do
  blanks
  comment <|> pure ()
  Quoted.newline <|> eof

/-! ## Keys -/

/-- The number of names in a key, and of levels in a value, that is too high. -/
def nestingLimit : Nat := 80

/-- The characters of a name without quotes. -/
def isNamePart (c : Char) : Bool := c.isAlphanum || c == '_' || c == '-'

/-- A name, bare or in one of the short quoted forms. -/
def name : Reader String := do
  let cs ← Quoted.basic <|> Quoted.literal <|> run1 isNamePart
  return String.ofList cs

/-- A name between blanks. -/
def spacedName : Reader String := do
  blanks
  let n ← name
  blanks
  return n

/-- A key: names with dots between them. -/
def key : Reader Key := do
  let first ← spacedName
  let more ← many (do char '.'; spacedName)
  if more.length + 1 < nestingLimit then
    return { path := (first :: more).dropLast, name := more.getLastD first }
  else failure

/-! ## Values -/

/-- An array of the given items, which may end in a comma. -/
def array (item : Reader Value) : Reader (List Value) := do
  char '['
  gap
  (do char ']'; return [])
    <|> do
      let first ← item
      gap
      let more ← many (do char ','; gap; let v ← item; gap; return v)
      (do char ','; gap) <|> pure ()
      char ']'
      return first :: more

/-- A key and its value, which an equals sign separates. -/
def pair (item : Reader Value) : Reader (Key × Value) := do
  let k ← key
  char '='
  blanks
  let v ← item
  return (k, v)

/-- A table in braces. It lies on one line and must not end in a comma. -/
def braces (item : Reader Value) : Reader Table := do
  let spacedPair := do let p ← pair item; blanks; return p
  char '\x7b'
  let pairs ←
    (do let p ← spacedPair; let ps ← many (do char ','; spacedPair); return p :: ps)
      <|> return []
  blanks
  char '\x7d'
  (pairs.foldlM (fun t (k, v) => t.insert k v) (Table.empty .braces) : Option Table)

/-- A value in which arrays and tables in braces nest up to `depth` levels. -/
def value (depth : Nat) : Reader Value :=
  (do let s ← quoted; return .string s) <|> scalar <|>
  match depth with
  | 0 => failure
  | depth + 1 =>
    (do let vs ← array (value depth); return .array vs)
      <|> (do let t ← braces (value depth); return .table t)

/-! ## Lines -/

/-- A line of a document. -/
inductive Line where
  /-- Blanks or a comment. -/
  | blank
  /-- A header in single brackets. -/
  | header (k : Key)
  /-- A header in double brackets. -/
  | element (k : Key)
  /-- A key and its value. -/
  | pair (k : Key) (v : Value)

/-- One line with its end, which may be the end of the document. -/
def line : Reader Line := do
  blanks
  let l ←
    (do text "[["; let k ← key; text "]]"; return .element k)
      <|> (do char '['; let k ← key; char ']'; return .header k)
      <|> (do let (k, v) ← pair (value (nestingLimit - 1)); return .pair k v)
      <|> return .blank
  lineRest
  return l

/-- All lines of a document, which may begin with a byte order mark. -/
def lines : Reader (List Line) := do
  char '\ufeff' <|> pure ()
  let ls ← many line
  eof
  return ls

/-! ## The table of a document -/

/-- A document so far: its table, and the header under which pairs now belong. -/
structure State where
  root : Table
  header : List String

/-- Put a line where it belongs. -/
def add (s : State) : Line → Option State
  | .blank => some s
  | .header k => do
    let root ← s.root.openHeader k
    return { root, header := k.names }
  | .element k => do
    let root ← s.root.openElement k
    return { root, header := k.names }
  | .pair k v => do
    let root ← s.root.insertUnder s.header k v
    return { s with root }

/-- The table that lines make up. -/
def assemble (ls : List Line) : Option Table := do
  let s ← ls.foldlM add { root := Table.empty .header, header := [] }
  return s.root

end Document

/-- The table of a document, unless the text is none. -/
def read? (text : List Char) : Option Table := do
  let (ls, _) ← Document.lines text
  Document.assemble ls

end Slate.Toml
