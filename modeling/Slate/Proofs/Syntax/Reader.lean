-- SUMMARY: The functions of the descent that spend budget, as one family with their ranks.
import Slate.Syntax.Parser

/-!
# Readers

What is proved of the descent is proved of all its functions at once, by one induction on the
budget. So they are given here as one family. The rank of a reader bounds how many calls can be
open until the next token is passed over: a reader calls others of a lower rank, such as the next
level of operators, or else it has passed over a token before.
-/

namespace Slate.Parser

/-- The functions of the descent that spend budget, with all other arguments. The operators are
those of the levels from some level on. -/
inductive Reader : Type → Type where
  | expression : Reader Expr
  | binary (tables : List (List (Mark × BinaryOp))) (levels : tables <:+ precedence) : Reader Expr
  | operators (table : List (Mark × BinaryOp)) (tighter : List (List (Mark × BinaryOp)))
      (left : Expr) (levels : table :: tighter <:+ precedence) : Reader Expr
  | unary : Reader Expr
  | primary : Reader Expr
  | call (callee : String) (start : Span) : Reader Expr
  | arguments : Reader (List Expr)
  | initializer : Reader Expr
  | declaration : Reader Stmt
  | ret : Reader Stmt
  | assignmentOrExpression : Reader Stmt
  | params : Reader (List Param)
  | statement : Reader Stmt
  | strictStatement : Reader Stmt
  | function : Reader Stmt
  | ifChain : Reader Stmt
  | elseBranches : Reader (List Branch × Option Block)
  | guarded : Reader (Expr × Block)
  | block : Reader Block
  | blockStatements : Reader (List Stmt)
  | programStatements : Reader (List Stmt)

namespace Reader

/-- The function that the reader is. -/
def run {γ : Type} : Reader γ → Nat → ParseM γ
  | expression => Parser.expression
  | binary tables _ => (Parser.binary · tables)
  | operators table tighter left _ => (Parser.operators · table tighter left)
  | unary => Parser.unary
  | primary => Parser.primary
  | call callee start => (Parser.call · callee start)
  | arguments => Parser.arguments
  | initializer => Parser.initializer
  | declaration => Parser.declaration
  | ret => Parser.ret
  | assignmentOrExpression => Parser.assignmentOrExpression
  | params => Parser.params
  | statement => Parser.statement
  | strictStatement => Parser.strictStatement
  | function => Parser.function
  | ifChain => Parser.ifChain
  | elseBranches => Parser.elseBranches
  | guarded => Parser.guarded
  | block => Parser.block
  | blockStatements => Parser.blockStatements
  | programStatements => Parser.programStatements

/-- How many calls can be open between this reader and the next token, the reader included.
Every level of operators that is still to be gone through adds one. -/
def rank {γ : Type} : Reader γ → Nat
  | expression => 10
  | binary tables _ => 3 + tables.length
  | unary => 2
  | operators .. | primary | call .. => 1
  | arguments => 11
  | initializer | assignmentOrExpression => 10
  | declaration | ret | params => 1
  | statement => 12
  | strictStatement => 11
  | function | ifChain | elseBranches | guarded | block => 1
  | blockStatements | programStatements => 13

theorem rank_le {γ : Type} (r : Reader γ) : r.rank ≤ 13 := by
  cases r with
  | binary tables levels =>
    have hlevels : tables.length ≤ 6 := levels.length_le
    change 3 + tables.length ≤ 13
    omega
  | _ => exact Nat.le_of_ble_eq_true rfl

end Reader

/-- The levels that bind tighter are levels of operators again. -/
theorem tighter_levels {table : List (Mark × BinaryOp)} {tighter : List (List (Mark × BinaryOp))}
    (levels : table :: tighter <:+ precedence) : tighter <:+ precedence :=
  (List.suffix_cons table tighter).trans levels

end Slate.Parser
