-- SUMMARY: Readers over characters: a reader takes a value off the front of a text, or refuses it.

/-!
# Readers

A reader takes a value off the front of a text and says what is left, or refuses
the text. A choice tries its second reader on the same text when the first
refuses. A repetition goes on while its item reads something and consumes at
least one character, so that it ends by the length of what is left.
-/

namespace Slate.Toml

/-- A reader of values of type `α`. -/
abbrev Reader := StateT (List Char) Option

namespace Reader

/-! ## One character -/

/-- One character of a class. -/
def satisfy (p : Char → Bool) : Reader Char
  | [] => none
  | c :: cs => if p c then some (c, cs) else none

/-- One given character. -/
def char (c : Char) : Reader Unit
  | [] => none
  | d :: cs => if d = c then some ((), cs) else none

/-- The characters of a text, one after the other. -/
def chars : List Char → Reader Unit
  | [] => pure ()
  | c :: cs => do
    char c
    chars cs

/-- A given text. -/
def text (s : String) : Reader Unit := chars s.toList

/-- The end of the text. -/
def eof : Reader Unit
  | [] => some ((), [])
  | _ :: _ => none

/-! ## Runs and repetition -/

/-- The longest run of characters of a class; it may be empty. -/
def run (p : Char → Bool) : Reader (List Char) := fun cs =>
  some (cs.takeWhile p, cs.dropWhile p)

/-- The longest run of characters of a class, which may not be empty. -/
def run1 (p : Char → Bool) : Reader (List Char) := do
  let c ← satisfy p
  let cs ← run p
  return c :: cs

/-- So many characters of a class. -/
def exactly (p : Char → Bool) : Nat → Reader (List Char)
  | 0 => pure []
  | n + 1 => do
    let c ← satisfy p
    let cs ← exactly p n
    return c :: cs

/-- As many items as follow one another; the last is the one after which the item
is refused or takes nothing. -/
def many {α : Type} (item : Reader α) (cs : List Char) : Option (List α × List Char) :=
  match item cs with
  | none => some ([], cs)
  | some (a, rest) =>
    if rest.length < cs.length then
      (many item rest).map fun (as, rest) => (a :: as, rest)
    else some ([], cs)
termination_by cs.length

end Reader

end Slate.Toml
