-- SUMMARY: The spans that a program carries, all nodes and parameters of it taken together.
import Slate.Syntax

/-!
# Spans of a program

Every node of a program says where it stands in the source, and so does every
parameter of a function. The spans of a program are all of these together. What is
said about them is said about whatever a diagnostic may point at.
-/

namespace Slate

mutual

/-- The spans of an expression and of all expressions inside it. -/
def Expr.spans : Expr → List Span
  | .literal _ span | .ident _ span => [span]
  | .binary left _ right span => span :: (left.spans ++ right.spans)
  | .unary _ operand span => span :: operand.spans
  | .call _ arguments span => span :: argumentSpans arguments

/-- The spans of the arguments of a call. -/
def argumentSpans : List Expr → List Span
  | [] => []
  | e :: es => e.spans ++ argumentSpans es

end

mutual

/-- The spans of a statement and of everything inside it. -/
def Stmt.spans : Stmt → List Span
  | .needs _ span | .declare _ _ span | .breakLoop span | .continueLoop span
  | .error _ _ span | .ret none span => [span]
  | .define _ _ value span | .assign _ value span | .expression value span
  | .ret (some value) span => span :: value.spans
  | .function _ params _ body span => span :: (params.map Param.span ++ body.spans)
  | .ifChain branches none span => span :: branchSpans branches
  | .ifChain branches (some body) span => span :: (branchSpans branches ++ body.spans)
  | .whileLoop test body span => span :: (test.spans ++ body.spans)
  | .block body => body.spans

/-- The spans of a block and of everything inside it. -/
def Block.spans : Block → List Span
  | .mk statements span => span :: statementSpans statements

/-- The spans of statements and of everything inside them. -/
def statementSpans : List Stmt → List Span
  | [] => []
  | s :: ss => s.spans ++ statementSpans ss

/-- The spans of the branches of an `if` chain and of everything inside them. -/
def branchSpans : List Branch → List Span
  | [] => []
  | .mk test body span :: branches =>
    span :: (test.spans ++ (body.spans ++ branchSpans branches))

end

/-- The spans of a program. -/
def Program.spans (p : Program) : List Span := statementSpans p.statements

theorem Expr.span_mem_spans (e : Expr) : e.span ∈ e.spans := by
  cases e <;> exact List.mem_cons_self

end Slate
