-- SUMMARY: Numbers, truth values, dates and times as TOML writes them.
import Slate.Toml.Digit
import Slate.Toml.Reader
import Slate.Toml.Value

/-!
# Scalars

A number may have underscores between its digits and no leading zeros. An
integer has to fit a signed 64-bit word; a decimal must not be too large for a
64-bit float. Dates follow the calendar, and a minute may have a leap second.
-/

namespace Slate.Toml

namespace Scalar

open Reader

/-! ## Digits -/

/-- Digits of a base, between which single underscores may stand. -/
def digits (base : Nat) : Reader (List Char) := do
  let d ← satisfy (isDigitOf base)
  let ds ← many (satisfy (isDigitOf base) <|> (do char '_'; satisfy (isDigitOf base)))
  return d :: ds

/-- A sign, if there is one; whether it is a minus. -/
def sign : Reader Bool :=
  (do char '-'; return true) <|> (do char '+'; return false) <|> return false

/-- A decimal number without leading zeros. -/
def wholeDigits : Reader (List Char) := fun cs =>
  match cs with
  | '0' :: rest => some (['0'], rest)
  | _ => digits 10 cs

/-! ## Integers -/

/-- An integer that fits a signed 64-bit word. -/
def fitted (n : Int) : Reader Value :=
  if -9223372036854775808 ≤ n ∧ n ≤ 9223372036854775807 then return .integer n else failure

/-- An integer in a base that two characters announce. -/
def based (mark : List Char) (base : Nat) : Reader Value := do
  chars mark
  let ds ← digits base
  fitted (number base ds)

/-- An integer. Only a decimal one may have a sign. -/
def integer : Reader Value :=
  based ['0', 'x'] 16 <|> based ['0', 'o'] 8 <|> based ['0', 'b'] 2 <|> do
    let negative ← sign
    let ds ← wholeDigits
    let n : Int := number 10 ds
    fitted (if negative then -n else n)

/-! ## Floating-point numbers -/

/-- The least number that a 64-bit float no longer holds but rounds to infinity:
it lies half a unit above the largest one. -/
def floatLimit : Nat := Nat.pow 2 1024 - Nat.pow 2 970

/-- Whether the decimal `digits · 10 ^ exponent` is too large for a 64-bit float.
The largest one has 309 digits before the point, so that the exact comparison is
left to decimals that have as many. -/
def tooLarge (digits : Nat) (exponent : Int) : Bool :=
  let width : Int := (Nat.toDigits 10 digits).length + exponent
  if digits = 0 ∨ width < 309 then false
  else if 309 < width then true
  else if 0 ≤ exponent then decide (floatLimit ≤ digits * Nat.pow 10 exponent.toNat)
  else decide (floatLimit * Nat.pow 10 (-exponent).toNat ≤ digits)

/-- The exponent of a decimal; it may have leading zeros. -/
def exponent : Reader Int := do
  char 'e' <|> char 'E'
  let negative ← sign
  let ds ← digits 10
  let n : Int := number 10 ds
  return if negative then -n else n

/-- The digits behind the point of a decimal. -/
def fraction : Reader (List Char) := do
  char '.'
  digits 10

/-- A decimal with a fraction, an exponent or both. -/
def decimal : Reader Value := do
  let negative ← sign
  let whole ← wholeDigits
  let (places, scale) ←
    (do let e ← exponent; return ([], e))
      <|> (do let places ← fraction; let e ← exponent <|> return 0; return (places, e))
  let n := number 10 (whole ++ places)
  let e := scale - places.length
  if !negative && tooLarge n e then failure
  else return .float (.decimal negative n e)

/-- One of the floats that have a name. -/
def namedFloat : Reader Value := do
  let negative ← sign
  (do text "inf"; return .float (.infinity negative))
    <|> (do text "nan"; return .float (.nan negative))

/-- A floating-point number. -/
def float : Reader Value := decimal <|> namedFloat

/-- A truth value. -/
def boolean : Reader Value :=
  (do text "true"; return .boolean true) <|> (do text "false"; return .boolean false)

/-! ## Dates and times -/

/-- A number of so many digits. -/
def field (width : Nat) : Reader Nat := do
  let ds ← exactly Char.isDigit width
  return number 10 ds

/-- A number of two digits between two bounds. -/
def between (least most : Nat) : Reader Nat := do
  let n ← field 2
  if least ≤ n ∧ n ≤ most then return n else failure

/-- Whether a year has a 29th of February. -/
def isLeap (year : Nat) : Bool := year % 4 = 0 && (year % 100 ≠ 0 || year % 400 = 0)

/-- The number of days of a month. -/
def daysIn (year month : Nat) : Nat :=
  if month = 2 then if isLeap year then 29 else 28
  else if month = 4 ∨ month = 6 ∨ month = 9 ∨ month = 11 then 30
  else 31

/-- A date: year, month and day. -/
def date : Reader Date := do
  let year ← field 4
  char '-'
  let month ← between 1 12
  char '-'
  let day ← between 1 (daysIn year month)
  return ⟨year, month, day⟩

/-- A time of day. -/
def time : Reader Time := do
  let hour ← between 0 23
  char ':'
  let minute ← between 0 59
  char ':'
  let second ← between 0 60
  let fraction ← (do char '.'; run1 Char.isDigit) <|> return []
  return ⟨hour, minute, second, fraction⟩

/-- The distance from UTC, in minutes. -/
def offset : Reader Int :=
  (do char 'Z' <|> char 'z'; return 0) <|> do
    let negative ← (do char '-'; return true) <|> (do char '+'; return false)
    let hour ← between 0 23
    char ':'
    let minute ← between 0 59
    let distance : Int := 60 * hour + minute
    return if negative then -distance else distance

/-- The time behind a date, perhaps with its distance from UTC. -/
def timeOfDate : Reader (Time × Option Int) := do
  char 'T' <|> char 't' <|> char ' '
  let t ← time
  let o ← (do let o ← offset; return some o) <|> return none
  return (t, o)

/-- A date, a time, or both. -/
def moment : Reader Value :=
  (do
    let d ← date
    let rest ← (do let r ← timeOfDate; return some r) <|> return none
    return .moment
      { date := some d, time := rest.map (·.1), offset := rest.bind (·.2) })
  <|> do
    let t ← time
    return .moment { date := none, time := some t, offset := none }

end Scalar

/-- A value that is no string, array or table. What could be a date is tried as one
first, and what could be a float before it is an integer. -/
def scalar : Reader Value :=
  Scalar.boolean <|> Scalar.moment <|> Scalar.float <|> Scalar.integer

end Slate.Toml
