-- SUMMARY: What the text of a literal denotes: the number of an integer literal, the characters of a string literal.
import Slate.Diagnostic

/-!
# Literals

An integer literal denotes its decimal value, which must fit a signed 32-bit
word; a minus directly before it belongs to it, so that the least word can be
written. A string literal denotes the characters between its quotes, in which a
backslash and a letter stand for one character.

The functions below have a value for every text. What becomes of texts that the lexer
does not make, where a text is cut at bytes and a machine word is turned round, is the
matter of the cursor.
-/

namespace Slate.Literal

/-! ## Integers -/

/-- The number that a row of decimal digits denotes. -/
def digitsValue (ds : List Char) : Nat :=
  ds.foldl (fun n d => 10 * n + (d.toNat - '0'.toNat)) 0

/-- The number that a text denotes, if it is a row of decimal digits and not empty. -/
def unsigned? (cs : List Char) : Option Nat :=
  if !cs.isEmpty && cs.all Char.isDigit then some (digitsValue cs) else none

/-- The number that a text denotes, if it is a row of decimal digits after at
most one sign. -/
def signed? : List Char → Option Int
  | '-' :: cs => (unsigned? cs).map fun n => -(n : Int)
  | '+' :: cs => (unsigned? cs).map Int.ofNat
  | cs => (unsigned? cs).map Int.ofNat

/-- A number as a signed 32-bit word, if it is one. -/
def word? (n : Int) : Option Int32 :=
  if -2147483648 ≤ n ∧ n ≤ 2147483647 then some (Int32.ofInt n) else none

/-- The word that an integer literal denotes, turned round if a minus belongs to it. -/
def integer? (negative : Bool) (text : String) : Option Int32 := do
  let n ← signed? text.toList
  word? (if negative then -n else n)

/-- A number as a signed 64-bit word, if it is one. -/
def doubleWord? (n : Int) : Option Int64 :=
  if -9223372036854775808 ≤ n ∧ n ≤ 9223372036854775807 then some (Int64.ofInt n) else none

/-- The double word that a text denotes, before a minus in front of it is counted. -/
def magnitude? (text : String) : Option Int64 := signed? text.toList >>= doubleWord?

/-! ## Strings -/

/-- The character that a backslash and `c` stand for. -/
def escapeValue? (c : Char) : Option Char :=
  if c = 'n' then some '\n'
  else if c = 't' then some '\t'
  else if c = '"' then some '"'
  else if c = '\\' then some '\\'
  else none

/-- The characters that the inside of a string literal denotes. -/
def unescape : List Char → Except Fault (List Char)
  | [] => .ok []
  | '\\' :: c :: cs =>
    match escapeValue? c with
    | some v => (unescape cs).map (v :: ·)
    | none => .error (.unknownEscape c)
  | ['\\'] => .error .unterminatedEscape
  | c :: cs => (unescape cs).map (c :: ·)

/-- The string that a string literal denotes; its first and last character are
the quotes. -/
def string (text : String) : Except Fault String :=
  (unescape (text.toList.drop 1).dropLast).map String.ofList

end Slate.Literal
