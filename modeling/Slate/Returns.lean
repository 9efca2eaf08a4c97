-- SUMMARY: Keeping account of the returns of one function: how many there are, and the first that disagrees with the declared type.
import Slate.Typing

/-!
# Returns of a function

While the body of a function is checked, each return is held against the declared
type. A function of type `void` may not return a value; any other has to return
one that fits. The first return that disagrees is kept.
-/

namespace Slate

/-- A return that disagrees with the declared type. What it carries is `void` for
a return without a value, and nothing if the value has no type. -/
structure ReturnMismatch where
  span : Span
  expected : Ty
  found : Option Ty
deriving DecidableEq, Repr

namespace ReturnMismatch

def cause (m : ReturnMismatch) : Cause := .wrongReturn m.expected m.found

/-- The mismatch as a diagnostic at the return. -/
def diagnostic (m : ReturnMismatch) : Diagnostic := .spanned m.cause m.span

end ReturnMismatch

/-- The account of the returns of a function of type `declared`: how many were
inspected, and the first mismatch among them. -/
structure Returns where
  declared : Ty
  inspected : Nat
  mismatch : Option ReturnMismatch
deriving Repr

namespace Returns

/-- The account before the first return. -/
def start (declared : Ty) : Returns := { declared, inspected := 0, mismatch := none }

/-- Whether a return agrees with the declared type. -/
def agrees (t : Table) (declared : Ty) : Option Expr → Bool
  | none => declared == .void
  | some value => declared != .void && value.fits t declared

/-- The type that a return carries. -/
def carried (t : Table) : Option Expr → Option Ty
  | none => some .void
  | some value => value.type? t

/-- Takes account of one more return. -/
def inspect (r : Returns) (t : Table) (value : Option Expr) (span : Span) : Returns :=
  let mismatch := match r.mismatch with
    | some first => some first
    | none =>
      if agrees t r.declared value then none
      else some { span, expected := r.declared, found := carried t value }
  { r with inspected := r.inspected + 1, mismatch }

/-- Refuses the returns of a function if one of them disagrees. -/
def finish (r : Returns) : Except Diagnostic Unit :=
  match r.mismatch with
  | some m => .error m.diagnostic
  | none => .ok ()

end Returns

end Slate
