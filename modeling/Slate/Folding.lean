-- SUMMARY: Computing the values of expressions at compile time, one evaluator for each type of value.
import Slate.Typing

/-!
# Constant folding

Each of the three evaluators computes a value of its own type and whether that
value is known at compile time. They take any expression, fitting or not, and
both operands of an operator are always computed. What a call yields is never
known, and neither is a quotient or remainder by zero, which is left for run time
to report.
-/

namespace Slate

/-! ## Folded values -/

/-- A value, and whether it is the value of the expression it was computed from. -/
structure Folded (α : Type) where
  value : α
  known : Bool
deriving DecidableEq, Repr

namespace Folded

variable {α β γ : Type}

/-- A value that is known. -/
def fixed (value : α) : Folded α := { value, known := true }

/-- A value that stands in where none is known. -/
def unknown (filler : α) : Folded α := { value := filler, known := false }

/-- A function of one value; the result is as known as the operand. -/
def map (f : α → β) (a : Folded α) : Folded β := { value := f a.value, known := a.known }

/-- A function of two values; the result is known if both operands are. -/
def combine (f : α → β → γ) (a : Folded α) (b : Folded β) : Folded γ where
  value := f a.value b.value
  known := a.known && b.known

end Folded

/-! ## Evaluators -/

/-- The result of an operator between two numbers. Arithmetic wraps, division
truncates toward zero, and a remainder has the sign of the dividend. -/
def foldArithmetic (op : BinaryOp) (a b : Folded Int32) : Folded Int32 :=
  match op with
  | .add => a.combine (· + ·) b
  | .subtract => a.combine (· - ·) b
  | .multiply => a.combine (· * ·) b
  | .divide => if b.value = 0 then .unknown 0 else a.combine (· / ·) b
  | .modulo => if b.value = 0 then .unknown 0 else a.combine (· % ·) b
  | _ => .unknown 0

/-- The value of an expression as a number. -/
def Expr.foldInt (t : Table) : Expr → Folded Int32
  | .literal (.int n) _ => .fixed n
  | .ident name _ =>
    match t.boundVariable? name with
    | some { value := .int n, known, .. } => { value := n, known }
    | _ => .unknown 0
  | .binary left op right _ => foldArithmetic op (left.foldInt t) (right.foldInt t)
  | .unary .negate operand _ => (operand.foldInt t).map (-·)
  | _ => .unknown 0

/-- The value of an expression as a string. -/
def Expr.foldString (t : Table) : Expr → Folded String
  | .literal (.string s) _ => .fixed s
  | .ident name _ =>
    match t.boundVariable? name with
    | some { value := .string s, known, .. } => { value := s, known }
    | _ => .unknown ""
  | .binary left .add right _ => (left.foldString t).combine (· ++ ·) (right.foldString t)
  | _ => .unknown ""

/-- The result of comparing two numbers by size. -/
def compareWords (op : BinaryOp) (a b : Int32) : Bool :=
  match op with
  | .less => a < b
  | .lessEqual => a ≤ b
  | .greater => b < a
  | .greaterEqual => b ≤ a
  | _ => false

/-- The value of an expression as a truth value. Which evaluator an equality
compares with is decided by the type of its left operand. -/
def Expr.foldBool (t : Table) : Expr → Folded Bool
  | .literal (.bool b) _ => .fixed b
  | .ident name _ =>
    match t.boundVariable? name with
    | some { value := .bool b, known, .. } => { value := b, known }
    | _ => .unknown false
  | .binary left op right _ =>
    match op with
    | .and => (left.foldBool t).combine (· && ·) (right.foldBool t)
    | .or => (left.foldBool t).combine (· || ·) (right.foldBool t)
    | .less | .lessEqual | .greater | .greaterEqual =>
      (left.foldInt t).combine (compareWords op) (right.foldInt t)
    | .equal | .notEqual =>
      let equal := match left.type? t with
        | some .int => (left.foldInt t).combine (· == ·) (right.foldInt t)
        | some .string => (left.foldString t).combine (· == ·) (right.foldString t)
        | some .bool => (left.foldBool t).combine (· == ·) (right.foldBool t)
        | _ => .unknown false
      if op = .equal then equal else equal.map (!·)
    | _ => .unknown false
  | .unary .not operand _ => (operand.foldBool t).map (!·)
  | _ => .unknown false

/-- The value of an expression as a value of type `ty`. -/
def Expr.fold? (t : Table) (ty : Ty) (e : Expr) : Option (Folded Value) :=
  match ty with
  | .int => some ((e.foldInt t).map .int)
  | .string => some ((e.foldString t).map .string)
  | .bool => some ((e.foldBool t).map .bool)
  | .void => none

end Slate
