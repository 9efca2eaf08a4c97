-- SUMMARY: The values of a TOML document, and the rules by which its tables are put together.

/-!
# Values and tables

A document is a table of named values. Its tables come about in four ways: in
braces, under a header of their own, by being named on the way to another
header, or by a dotted key. The way a table came about decides what may still be
added to it, and no name is ever given twice.
-/

namespace Slate.Toml

/-! ## Scalars -/

/-- A floating-point number: a decimal `± digits · 10 ^ exponent`, or one of the
two that no decimal denotes. -/
inductive Real where
  | decimal (negative : Bool) (digits : Nat) (exponent : Int)
  | infinity (negative : Bool)
  | nan (negative : Bool)
deriving DecidableEq, Repr

/-- A day of the calendar. -/
structure Date where
  year : Nat
  month : Nat
  day : Nat
deriving DecidableEq, Repr

/-- A time of day; the fraction of a second is kept as its digits. -/
structure Time where
  hour : Nat
  minute : Nat
  second : Nat
  fraction : List Char
deriving DecidableEq, Repr

/-- A date, a time, or both, the latter perhaps with its distance from UTC in
minutes. -/
structure Moment where
  date : Option Date
  time : Option Time
  offset : Option Int
deriving DecidableEq, Repr

/-! ## Values -/

/-- How a table came about. -/
inductive Origin where
  /-- Written out in braces. -/
  | braces
  /-- Opened by a header of its own. -/
  | header
  /-- Named by a header on its way to another table. -/
  | passed
  /-- Made by a dotted key. -/
  | dotted
deriving DecidableEq, Repr

mutual

/-- A value of a document. -/
inductive Value where
  | string (s : String)
  | integer (n : Int)
  | float (x : Real)
  | boolean (b : Bool)
  | moment (m : Moment)
  | array (items : List Value)
  | table (t : Table)
  /-- The tables that headers in double brackets have opened, in order. -/
  | tables (ts : List Table)

/-- Named values, in the order in which they came. -/
inductive Table where
  | mk (origin : Origin) (entries : List (String × Value))

end

/-- What names a value or a table: the names on the way to it, and its own. -/
structure Key where
  path : List String
  name : String
deriving DecidableEq, Repr

/-- All names of a key. -/
def Key.names (k : Key) : List String := k.path ++ [k.name]

namespace Table

/-- How a table came about. -/
def origin : Table → Origin
  | mk origin _ => origin

/-- The named values of a table. -/
def entries : Table → List (String × Value)
  | mk _ entries => entries

/-- A table without values. -/
def empty (origin : Origin) : Table := mk origin []

/-- The value of a name. -/
def get? (t : Table) (name : String) : Option Value := t.entries.lookup name

/-- Replace the value of a name that has one. -/
def replace (name : String) (v : Value) : List (String × Value) → List (String × Value)
  | [] => []
  | (n, w) :: rest => if n = name then (n, v) :: rest else (n, w) :: replace name v rest

/-- Give a value to a name, in its old place if the name has a value already. -/
def put (t : Table) (name : String) (v : Value) : Table :=
  match t.get? name with
  | some _ => mk t.origin (replace name v t.entries)
  | none => mk t.origin (t.entries ++ [(name, v)])

/-! ## Reaching a table -/

/-- Reach the table at the end of a path and change it. Tables that are missing on
the way are made with the origin `way`, which is `passed` for a header and
`dotted` for a dotted key. A header may pass through every table that is not
written in braces; a dotted key must not enter one that a header has opened. Of
tables in double brackets the last is meant. -/
def reach (way : Origin) (change : Table → Option Table) : List String → Table → Option Table
  | [], t => change t
  | name :: path, t =>
    match t.get? name with
    | none => do
      let sub ← reach way change path (empty way)
      return t.put name (.table sub)
    | some (.table sub) =>
      if sub.origin = .braces ∨ way = .dotted ∧ sub.origin = .header then none
      else do
        let sub ← reach way change path sub
        return t.put name (.table sub)
    | some (.tables ts) => do
      let last ← ts.getLast?
      let last ← reach way change path last
      return t.put name (.tables (ts.dropLast ++ [last]))
    | some _ => none

/-! ## Adding to a document -/

/-- Open the table of a header. It must be new, or have been passed so far on the
way to others only. -/
def openHeader (t : Table) (k : Key) : Option Table :=
  let change (parent : Table) : Option Table :=
    match parent.get? k.name with
    | none => some (parent.put k.name (.table (empty .header)))
    | some (.table (mk .passed entries)) =>
      some (parent.put k.name (.table (mk .header entries)))
    | some _ => none
  reach .passed change k.path t

/-- Open one more table of a header in double brackets, which only headers of this
kind may have named before. -/
def openElement (t : Table) (k : Key) : Option Table :=
  let change (parent : Table) : Option Table :=
    match parent.get? k.name with
    | none => some (parent.put k.name (.tables [empty .header]))
    | some (.tables ts) => some (parent.put k.name (.tables (ts ++ [empty .header])))
    | some _ => none
  reach .passed change k.path t

/-- Give a value to a key. The name must be new, and the table that takes it one
that dotted keys have made just if the key itself is dotted. -/
def insert (t : Table) (k : Key) (v : Value) : Option Table :=
  let change (target : Table) : Option Table :=
    if decide (target.origin = .dotted) = k.path.isEmpty then none
    else match target.get? k.name with
      | none => some (target.put k.name v)
      | some _ => none
  reach .dotted change k.path t

/-- Give a value to a key under the header whose names are `header`. -/
def insertUnder (t : Table) (header : List String) (k : Key) (v : Value) : Option Table :=
  reach .passed (·.insert k v) header t

end Table

end Slate.Toml
