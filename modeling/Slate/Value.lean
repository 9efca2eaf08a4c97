-- SUMMARY: The static types of the language and the values known at compile time.
import Slate.Text.Quoted

/-!
# Types and values

The language has three types of values and `void`, the type of calls that yield
none. Integers are signed 32-bit words, and their arithmetic wraps.
-/

namespace Slate

/-- A static type. `void` is the type of a call that yields no value. -/
inductive Ty where
  | int
  | string
  | bool
  | void
deriving DecidableEq, Repr, Inhabited

/-- The word that names a type in source text and in messages. -/
def Ty.text : Ty → String
  | .int => "int"
  | .string => "string"
  | .bool => "bool"
  | .void => "void"

/-- A value known at compile time. -/
inductive Value where
  | int (n : Int32)
  | string (s : String)
  | bool (b : Bool)
deriving DecidableEq, Repr, Inhabited

/-- The type of a value; no value has type `void`. -/
def Value.ty : Value → Ty
  | .int _ => .int
  | .string _ => .string
  | .bool _ => .bool

/-- The value of a variable that is declared without an initializer. -/
def Ty.default? : Ty → Option Value
  | .int => some (.int 0)
  | .string => some (.string "")
  | .bool => some (.bool false)
  | .void => none

/-- The words for the two truth values. -/
def boolText (b : Bool) : String := if b then "true" else "false"

/-- A signed word in decimal notation. -/
def wordText (n : Int32) : String :=
  match n.toInt with
  | .ofNat m => Nat.repr m
  | .negSucc m => "-" ++ Nat.repr (m + 1)

/-- A value as it is written in symbol tables, strings in quotes. -/
def Value.text : Value → String
  | .int n => wordText n
  | .string s => Text.quote s
  | .bool b => boolText b

end Slate
