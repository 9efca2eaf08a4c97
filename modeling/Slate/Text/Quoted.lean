-- SUMMARY: Strings in quotes, written so that every character stays visible and no two strings look alike.
import Slate.Text.Extender

/-!
# Quoted strings

A string value is shown between double quotes. A quote, a backslash and the four
blanks that have a letter of their own are written with a backslash; a character
that is unprintable, or that would be drawn onto its neighbour, is written as its
code point in braces. All else stands as it is.
-/

namespace Slate.Text

/-- A number in lower-case hexadecimal, without leading zeros. -/
def hex (n : Nat) : List Char := Nat.toDigits 16 n

/-- A character that cannot stand as it is: the code point in braces. -/
def escapeCodePoint (c : Char) : List Char :=
  ['\\', 'u', '\x7b'] ++ hex c.toNat ++ ['\x7d']

/-- The written form of one character inside quotes. -/
def escapeChar (c : Char) : List Char :=
  if c = '\x00' then ['\\', '0']
  else if c = '\t' then ['\\', 't']
  else if c = '\r' then ['\\', 'r']
  else if c = '\n' then ['\\', 'n']
  else if c = '"' then ['\\', '"']
  else if c = '\\' then ['\\', '\\']
  else if 0x20 ≤ c.toNat ∧ c.toNat < 0x7F then [c]
  else if isExtender c || isUnprintable c then escapeCodePoint c
  else [c]

/-- The characters of a string between quotes. -/
def quoteChars (cs : List Char) : List Char :=
  '"' :: cs.flatMap escapeChar ++ ['"']

/-- A string between quotes. -/
def quote (s : String) : String := String.ofList (quoteChars s.toList)

end Slate.Text
