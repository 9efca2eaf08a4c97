-- SUMMARY: The types of expressions: the type an expression has, and whether it can stand where a given type is due.
import Slate.Scope
import Slate.Syntax

/-!
# Typing

Two questions can be asked about an expression. `Expr.type?` works from the
leaves up and finds the one type that the expression has, if it has one.
`Expr.fits` works from the root down and tells whether the expression can stand
where a value of a given type is due. Neither reports errors: an unknown name
and a wrong call simply have no type.
-/

namespace Slate

/-! ## Operators -/

/-- The type that an operator yields when both of its operands have type `ty`. -/
def BinaryOp.result? (op : BinaryOp) (ty : Ty) : Option Ty :=
  match ty with
  | .int => if op.isArithmetic then some .int
      else if op.isOrdering || op.isEquality then some .bool else none
  | .string => if op = .add then some .string
      else if op.isEquality then some .bool else none
  | .bool => if op.isEquality || op.isLogical then some .bool else none
  | .void => none

/-- The type that an operator yields when its operand has type `ty`. -/
def UnaryOp.result? : UnaryOp → Ty → Option Ty
  | .negate, .int => some .int
  | .not, .bool => some .bool
  | _, _ => none

/-! ## Names -/

/-- The variable that a name stands for. -/
def Table.boundVariable? (t : Table) (name : String) : Option Variable :=
  match t.lookup? name with
  | some (.var v) => some v
  | _ => none

/-- The signature of the function that a name stands for. Built-in functions come
first. -/
def Table.signature? (t : Table) (name : String) : Option Signature :=
  match Builtin.signature? name with
  | some signature => some signature
  | none => (t.lookup? name).bind Symbol.signature?

/-! ## Fitting a type -/

mutual

/-- Whether an expression can stand where a value of type `ty` is due. Nothing
can stand for `void`: a call that yields no value may only be a statement. -/
def Expr.fits (t : Table) (ty : Ty) : Expr → Bool
  | .literal value _ => value.ty == ty
  | .ident name _ =>
    match t.boundVariable? name with
    | some v => v.value.ty == ty
    | none => false
  | .binary left op right _ =>
    match ty with
    | .int => op.isArithmetic && left.fits t .int && right.fits t .int
    | .string => op == .add && left.fits t .string && right.fits t .string
    | .bool =>
      if op.isLogical then left.fits t .bool && right.fits t .bool
      else if op.isOrdering then left.fits t .int && right.fits t .int
      else if op.isEquality then
        (left.fits t .int && right.fits t .int) ||
          (left.fits t .string && right.fits t .string) ||
          (left.fits t .bool && right.fits t .bool)
      else false
    | .void => false
  | .unary op operand _ =>
    match ty, op with
    | .int, .negate => operand.fits t .int
    | .bool, .not => operand.fits t .bool
    | _, _ => false
  | .call callee arguments _ =>
    match t.signature? callee with
    | some signature =>
      ty != .void && signature.returns == ty && argumentsFit t signature.params arguments
    | none => false

/-- Whether there is one argument for each type, and each can stand for its type. -/
def argumentsFit (t : Table) : List Ty → List Expr → Bool
  | [], [] => true
  | ty :: types, argument :: arguments =>
    argument.fits t ty && argumentsFit t types arguments
  | _, _ => false

end

/-! ## The type of an expression -/

/-- The type that a call yields, if the callee is a function and the arguments
fit its parameters. -/
def Table.callType? (t : Table) (callee : String) (arguments : List Expr) : Option Ty :=
  match t.signature? callee with
  | some signature =>
    if argumentsFit t signature.params arguments then some signature.returns else none
  | none => none

/-- The type that an expression has. The operands of an operator between two must
have one type in common. -/
def Expr.type? (t : Table) : Expr → Option Ty
  | .literal value _ => some value.ty
  | .ident name _ => (t.boundVariable? name).map (·.value.ty)
  | .binary left op right _ =>
    match left.type? t, right.type? t with
    | some a, some b => if a = b then op.result? a else none
    | _, _ => none
  | .unary op operand _ => (operand.type? t).bind op.result?
  | .call callee arguments _ => t.callType? callee arguments

end Slate
