-- SUMMARY: The names that a program mentions: those it declares, reads, assigns or calls.
import Slate.Syntax

/-!
# Names of a program

A program mentions a name where it declares a variable, parameter or function of that
name, and where it reads, assigns or calls one. The module of a `needs` statement and the
text of a statement that could not be read are no names.
-/

namespace Slate

mutual

/-- The names that an expression reads or calls. -/
def Expr.names : Expr → List String
  | .literal .. => []
  | .ident name _ => [name]
  | .binary left _ right _ => left.names ++ right.names
  | .unary _ operand _ => operand.names
  | .call callee arguments _ => callee :: argumentNames arguments

/-- The names in the arguments of a call. -/
def argumentNames : List Expr → List String
  | [] => []
  | e :: es => e.names ++ argumentNames es

end

mutual

/-- The names that a statement mentions. -/
def Stmt.names : Stmt → List String
  | .needs .. | .breakLoop _ | .continueLoop _ | .error .. | .ret none _ => []
  | .declare name _ _ => [name]
  | .define name _ value _ | .assign name value _ => name :: value.names
  | .function name params _ body _ => name :: (params.map Param.name ++ body.names)
  | .ifChain branches none _ => branchNames branches
  | .ifChain branches (some body) _ => branchNames branches ++ body.names
  | .whileLoop test body _ => test.names ++ body.names
  | .block body => body.names
  | .ret (some value) _ | .expression value _ => value.names

/-- The names that a block mentions. -/
def Block.names : Block → List String
  | .mk statements _ => statementNames statements

/-- The names that statements mention. -/
def statementNames : List Stmt → List String
  | [] => []
  | s :: ss => s.names ++ statementNames ss

/-- The names that the branches of an `if` chain mention. -/
def branchNames : List Branch → List String
  | [] => []
  | .mk test body _ :: branches => test.names ++ (body.names ++ branchNames branches)

end

/-- The names that a program mentions. -/
def Program.names (p : Program) : List String := statementNames p.statements

end Slate
