-- SUMMARY: Resolving the names and calls in an expression, with a diagnostic for the first that cannot be resolved.
import Slate.Typing

/-!
# Resolution

Before an expression is typed, its names and calls are resolved from left to
right, the arguments of a call before the call itself. A name must stand for a
variable, a callee for a function, and the arguments must fit the parameters.
What is left to typing are the operators.
-/

namespace Slate

/-- Checks arguments against parameter types from the left; `position` counts from
one. The first argument that does not fit is to blame. -/
def Table.resolveArguments (t : Table) (callee : String) (position : Nat) :
    List Ty → List Expr → Except Diagnostic Unit
  | ty :: types, argument :: arguments =>
    if argument.fits t ty then t.resolveArguments callee (position + 1) types arguments
    else .error (.spanned (.wrongArgument position callee ty (argument.type? t)) argument.span)
  | _, _ => .ok ()

/-- Checks a call whose arguments are resolved. -/
def Table.resolveCall (t : Table) (callee : String) (arguments : List Expr) (span : Span) :
    Except Diagnostic Unit :=
  match t.signature? callee with
  | none =>
    if (t.lookup? callee).isSome then .error (.spanned (.notAFunction callee) span)
    else .error (.spanned (.unknownFunction callee) span)
  | some signature =>
    if signature.params.length ≠ arguments.length then
      .error (.spanned (.wrongArity callee signature.params.length arguments.length) span)
    else t.resolveArguments callee 1 signature.params arguments

mutual

/-- Resolves every name and every call in an expression. -/
def Expr.resolve (t : Table) : Expr → Except Diagnostic Unit
  | .literal .. => .ok ()
  | .ident name span =>
    match t.lookup? name with
    | some (.var _) => .ok ()
    | some (.function ..) => .error (.spanned (.functionAsValue name) span)
    | none => .error (.spanned (.unknownIdentifier name) span)
  | .binary left _ right _ => do
    left.resolve t
    right.resolve t
  | .unary _ operand _ => operand.resolve t
  | .call callee arguments span => do
    resolveAll t arguments
    t.resolveCall callee arguments span

/-- Resolves expressions from left to right. -/
def resolveAll (t : Table) : List Expr → Except Diagnostic Unit
  | [] => .ok ()
  | e :: es => do
    e.resolve t
    resolveAll t es

end

end Slate
