-- SUMMARY: The abstract syntax of programs: expressions, statements and blocks, each with the source text it came from.
import Slate.Source
import Slate.Value

/-!
# Abstract syntax

Every node carries a span. An expression's span covers the whole expression; a
statement's points at the name it is about or at its keyword, and a block's runs
from brace to brace. A statement that could not be read stays in the tree as an
error node.
-/

namespace Slate

/-! ## Operators -/

/-- Operators between two operands. -/
inductive BinaryOp where
  | add
  | subtract
  | multiply
  | divide
  | modulo
  | less
  | lessEqual
  | greater
  | greaterEqual
  | equal
  | notEqual
  | and
  | or
deriving DecidableEq, Repr

namespace BinaryOp

/-- The spelling of an operator. -/
def text : BinaryOp → String
  | add => "+"
  | subtract => "-"
  | multiply => "*"
  | divide => "/"
  | modulo => "%"
  | less => "<"
  | lessEqual => "<="
  | greater => ">"
  | greaterEqual => ">="
  | equal => "=="
  | notEqual => "!="
  | and => "&&"
  | or => "||"

def all : List BinaryOp :=
  [add, subtract, multiply, divide, modulo, less, lessEqual, greater, greaterEqual,
    equal, notEqual, and, or]

/-- Operators that compute with numbers; `+` also joins strings. -/
def isArithmetic : BinaryOp → Bool
  | add | subtract | multiply | divide | modulo => true
  | _ => false

/-- Operators that compare two numbers by size. -/
def isOrdering : BinaryOp → Bool
  | less | lessEqual | greater | greaterEqual => true
  | _ => false

/-- Operators that compare two values of one type. -/
def isEquality : BinaryOp → Bool
  | equal | notEqual => true
  | _ => false

/-- Operators that join two truth values. -/
def isLogical : BinaryOp → Bool
  | and | or => true
  | _ => false

end BinaryOp

/-- Operators before one operand. -/
inductive UnaryOp where
  | negate
  | not
deriving DecidableEq, Repr

/-- The spelling of an operator. -/
def UnaryOp.text : UnaryOp → String
  | .negate => "-"
  | .not => "!"

/-! ## Expressions -/

/-- Expressions. Parentheses leave no node. -/
inductive Expr where
  | literal (value : Value) (span : Span)
  | ident (name : String) (span : Span)
  | binary (left : Expr) (op : BinaryOp) (right : Expr) (span : Span)
  | unary (op : UnaryOp) (operand : Expr) (span : Span)
  | call (callee : String) (arguments : List Expr) (span : Span)
deriving Repr, Inhabited

namespace Expr

/-- The source text of an expression. -/
def span : Expr → Span
  | literal _ span | ident _ span | binary _ _ _ span | unary _ _ span | call _ _ span => span

/-- Two operands joined by an operator, over the source text of both. -/
def join (left : Expr) (op : BinaryOp) (right : Expr) : Expr :=
  binary left op right (left.span.merge right.span)

end Expr

/-! ## Statements -/

/-- A parameter of a function, at its name. -/
structure Param where
  name : String
  ty : Ty
  span : Span
deriving DecidableEq, Repr

mutual

/-- Statements. -/
inductive Stmt where
  /-- `needs module;` -/
  | needs (module : String) (span : Span)
  /-- `let name: ty;` -/
  | declare (name : String) (ty : Ty) (span : Span)
  /-- `let name: ty = value;`, or without the type -/
  | define (name : String) (ty : Option Ty) (value : Expr) (span : Span)
  /-- `name = value;` -/
  | assign (name : String) (value : Expr) (span : Span)
  | function (name : String) (params : List Param) (returns : Option Ty) (body : Block)
      (span : Span)
  /-- `if`, then any number of `else if`, then perhaps `else` -/
  | ifChain (branches : List Branch) (otherwise : Option Block) (span : Span)
  | whileLoop (condition : Expr) (body : Block) (span : Span)
  | block (body : Block)
  | ret (value : Option Expr) (span : Span)
  | breakLoop (span : Span)
  | continueLoop (span : Span)
  | expression (value : Expr) (span : Span)
  /-- A statement that could not be read: the token where reading stopped, and why. -/
  | error (text : String) (reason : String) (span : Span)

/-- A condition and the block it guards, at its keyword. -/
inductive Branch where
  | mk (condition : Expr) (body : Block) (span : Span)

/-- Statements between braces. -/
inductive Block where
  | mk (statements : List Stmt) (span : Span)

end

namespace Block

def statements : Block → List Stmt
  | mk statements _ => statements

def span : Block → Span
  | mk _ span => span

end Block

namespace Branch

def condition : Branch → Expr
  | mk condition _ _ => condition

def body : Branch → Block
  | mk _ body _ => body

def span : Branch → Span
  | mk _ _ span => span

end Branch

/-- The source text that a statement points at. -/
def Stmt.span : Stmt → Span
  | .needs _ span | .declare _ _ span | .define _ _ _ span | .assign _ _ span
  | .function _ _ _ _ span | .ifChain _ _ span | .whileLoop _ _ span | .ret _ span
  | .breakLoop span | .continueLoop span | .expression _ span | .error _ _ span => span
  | .block body => body.span

/-- A whole program. -/
structure Program where
  statements : List Stmt

end Slate
