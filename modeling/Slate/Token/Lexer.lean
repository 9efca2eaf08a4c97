-- SUMMARY: Cutting a source text into tokens, always the longest that fits, with blanks and comments left out.
import Slate.Diagnostic
import Slate.Token

/-!
# Lexing

Between tokens stand blanks and comments; a comment runs from `//` to the end of
its line. Where a token must begin, the longest one that fits is taken, and a
reserved word is read as such only if it is the whole word. The first place
where no token fits ends the reading.
-/

namespace Slate.Lexer

/-! ## Character classes -/

/-- The blanks that separate tokens: space, tab, line ends and form feed. -/
def isBlank (c : Char) : Bool :=
  c == ' ' || c == '\t' || c == '\r' || c == '\n' || c == '\x0c'

/-- The characters that open a word; ASCII letters only. -/
def isWordStart (c : Char) : Bool := c.isAlpha || c == '_'

/-- The characters that continue a word. -/
def isWordPart (c : Char) : Bool := c.isAlphanum || c == '_'

/-! ## One token -/

/-- What stands at a place where a token must begin. Lengths count characters. -/
inductive Munch where
  /-- The longest token that fits. -/
  | token (kind : Kind) (length : Nat)
  /-- No token fits; so many characters are to blame. -/
  | stuck (length : Nat)
deriving DecidableEq, Repr

/-- The rest of a string literal whose opening quote has been read: the number of
characters up to and with the closing quote, or the number after which matching
stops for want of one. A backslash takes the next character with it, unless that
is a line feed. -/
def stringBody : List Char → Except Nat Nat
  | [] => .error 0
  | '"' :: _ => .ok 1
  | '\\' :: c :: cs =>
    if c = '\n' then .error 0
    else match stringBody cs with
      | .ok n => .ok (n + 2)
      | .error n => .error (n + 2)
  | ['\\'] => .error 0
  | _ :: cs =>
    match stringBody cs with
    | .ok n => .ok (n + 1)
    | .error n => .error (n + 1)

/-- The class of a whole word: reserved words and type names before identifiers. -/
def wordKind (word : List Char) : Kind :=
  match Keyword.all.find? (·.text.toList == word) with
  | some k => .keyword k
  | none =>
    match Ty.all.find? (·.text.toList == word) with
    | some ty => .typeName ty
    | none => .identifier

/-- The longest mark that opens a text; the list of marks has the longer ones first. -/
def markAt (cs : List Char) : Option Mark :=
  Mark.all.find? (·.text.toList.isPrefixOf cs)

/-- What stands at the front of a text that is not empty. -/
def munch (c : Char) (cs : List Char) : Munch :=
  if isWordStart c then
    let word := c :: cs.takeWhile isWordPart
    .token (wordKind word) word.length
  else if c.isDigit then
    .token .integer (cs.takeWhile Char.isDigit).length.succ
  else if c = '"' then
    match stringBody cs with
    | .ok n => .token .string (n + 1)
    | .error n => .stuck (n + 1)
  else
    match markAt (c :: cs) with
    | some m => .token (.mark m) m.text.length
    | none => .stuck 1

/-! ## All tokens -/

/-- The number of characters that stand before the next token: blanks, and
comments up to the end of their line. The flag says that the text begins inside
a comment. -/
def gapLength (inComment : Bool) : List Char → Nat
  | [] => 0
  | c :: cs =>
    if inComment then gapLength (c != '\n') cs + 1
    else if isBlank c then gapLength false cs + 1
    else if c == '/' && cs.head? == some '/' then gapLength true cs + 1
    else 0

/-- The tokens of the text `cs` that begins at byte `offset`, located by the line
table of the whole text. -/
def tokensFrom (lines : Lines) (offset : Nat) (cs : List Char) :
    Except Diagnostic (List Token) :=
  let gap := gapLength false cs
  let start := offset + byteLength (cs.take gap)
  match _h : cs.drop gap with
  | [] => .ok []
  | d :: ds =>
    match munch d ds with
    | .stuck n =>
      let slice := (d :: ds).take n
      .error ⟨.invalidToken (String.ofList slice),
        some (lines.span start (start + byteLength slice))⟩
    | .token kind n =>
      let lexeme := (d :: ds).take n
      let stop := start + byteLength lexeme
      let token := { kind, text := String.ofList lexeme, span := lines.span start stop }
      -- a token has one character at least, so what remains is shorter
      match tokensFrom lines stop (ds.drop (n - 1)) with
      | .ok tokens => .ok (token :: tokens)
      | .error e => .error e
termination_by cs.length
decreasing_by
  have : (cs.drop gap).length = ds.length + 1 := by rw [_h]; rfl
  simp only [List.length_drop] at *
  omega

end Lexer

/-- The tokens of a source text, or the first place where no token fits. -/
def tokenize (source : String) : Except Diagnostic (List Token) :=
  let text := source.toList
  Lexer.tokensFrom (Lines.ofText text) 0 text

end Slate
