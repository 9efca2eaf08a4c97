-- SUMMARY: Reading a stream of tokens as a program by recursive descent, with recovery at the ends of statements.
import Slate.Syntax
import Slate.Syntax.Literal

/-!
# Parsing

A program is read by recursive descent with one token in view; past the end of
the input the last token stays in view. A statement that cannot be read becomes
an error node, and reading goes on behind its semicolon or before the brace that
closes the block around it. Only a statement that the end of the input cuts short
is an error of the whole program.

Every step of the descent spends one unit of a budget that is computed from the
length of the stream. A stream that ends in an opening parenthesis where an
expression is due is the only one that can spend it all: past the end the
parenthesis stays in view, so its expression never begins.
-/

namespace Slate.Parser

/-! ## State -/

/-- The tokens still to be read, the last token of the whole stream, and the
number of blocks that are open around the place reached. -/
structure State where
  rest : List Token
  last : Token
  depth : Nat

/-- Why reading stops. -/
inductive Failure where
  | fault (fault : Fault) (span : Span)
  /-- The budget is spent. -/
  | exhausted
deriving DecidableEq, Repr

/-- Reading part of a program. The state survives a failure, so that recovery
knows how far reading came. -/
abbrev ParseM := EStateM Failure State

namespace State

/-- The token in view. -/
def view (s : State) : Token := s.rest.headD s.last

def atEnd (s : State) : Bool := s.rest.isEmpty

/-- Whether a token of class `kind` is next. -/
def sees (s : State) (kind : Kind) : Bool :=
  match s.rest with
  | t :: _ => t.kind == kind
  | [] => false

/-- Whether a token of class `kind` comes after the next one. -/
def seesSecond (s : State) (kind : Kind) : Bool :=
  match s.rest with
  | _ :: t :: _ => t.kind == kind
  | _ => false

end State

/-! ## Single tokens -/

/-- Passes over the token in view; at the end there is none to pass. -/
def advance : ParseM Unit := modify fun s => { s with rest := s.rest.tail }

/-- Stops reading at a span. -/
def failAt {α : Type} (fault : Fault) (span : Span) : ParseM α := throw (.fault fault span)

/-- Stops reading at the token in view, where `what` was to stand. -/
def unexpected {α : Type} (what : Expectation) : ParseM α := do
  let s ← get
  let found := if s.atEnd then none else some s.view.text
  failAt (.expected what found) s.view.span

/-- Passes over a token of class `kind` and yields its span, if one is next. -/
def accept? (kind : Kind) : ParseM (Option Span) := do
  let s ← get
  if s.sees kind then
    advance
    return some s.view.span
  else
    return none

/-- Passes over a token of class `kind`, which has to be next, and yields its span. -/
def expect (kind : Kind) : ParseM Span := do
  match ← accept? kind with
  | some span => return span
  | none => unexpected (.kind kind)

/-- Passes over an identifier, which has to be next, and yields its name and span. -/
def expectIdentifier : ParseM (String × Span) := do
  let s ← get
  if s.sees .identifier then
    advance
    return (s.view.text, s.view.span)
  else
    unexpected .identifier

/-- Passes over the name of a type, which has to be in view. -/
def expectType : ParseM Ty := do
  match (← get).view.kind with
  | .typeName ty =>
    advance
    return ty
  | _ => unexpected .type

/-- Passes over one of the marks in a table and yields what the table holds for
it, along with its span. -/
def acceptOperator? {α : Type} : List (Mark × α) → ParseM (Option (α × Span))
  | [] => return none
  | (mark, op) :: table => do
    match ← accept? (.mark mark) with
    | some span => return some (op, span)
    | none => acceptOperator? table

/-- Reads the integer literal in view. Its source text begins at `start`, which
is the minus sign if there is one. -/
def integerLiteral (negative : Bool) (start : Span) : ParseM Expr := do
  let token := (← get).view
  let span := start.merge token.span
  match Literal.integer? negative token.text with
  | some n =>
    advance
    return .literal (.int n) span
  | none => failAt .integerOutOfRange span

/-- Reads the string literal in view. -/
def stringLiteral : ParseM Expr := do
  let token := (← get).view
  match Literal.string token.text with
  | .ok value =>
    advance
    return .literal (.string value) token.span
  | .error fault => failAt fault token.span

/-! ## Expressions -/

/-- The operators between two operands, by how tightly they bind, loosest first.
All associate to the left. -/
def precedence : List (List (Mark × BinaryOp)) :=
  [[(.pipePipe, .or)],
   [(.ampAmp, .and)],
   [(.equalEqual, .equal), (.bangEqual, .notEqual)],
   [(.less, .less), (.lessEqual, .lessEqual), (.greater, .greater),
    (.greaterEqual, .greaterEqual)],
   [(.plus, .add), (.minus, .subtract)],
   [(.star, .multiply), (.slash, .divide), (.percent, .modulo)]]

/-- The operators before one operand. -/
def unaryOperators : List (Mark × UnaryOp) := [(.minus, .negate), (.bang, .not)]

mutual

/-- Reads an expression. -/
def expression : Nat → ParseM Expr
  | 0 => throw .exhausted
  | budget + 1 => binary budget precedence

/-- Reads operands joined by the operators of the given levels. -/
def binary : Nat → List (List (Mark × BinaryOp)) → ParseM Expr
  | 0, _ => throw .exhausted
  | budget + 1, [] => unary budget
  | budget + 1, table :: tighter => do
    let left ← binary budget tighter
    operators budget table tighter left

/-- Reads on behind a left operand, as long as operators of its level follow. -/
def operators : Nat → List (Mark × BinaryOp) → List (List (Mark × BinaryOp)) → Expr → ParseM Expr
  | 0, _, _, _ => throw .exhausted
  | budget + 1, table, tighter, left => do
    match ← acceptOperator? table with
    | some (op, _) =>
      let right ← binary budget tighter
      operators budget table tighter (left.join op right)
    | none => return left

/-- Reads an operand with the operators before it. A minus directly before an
integer literal belongs to the literal. -/
def unary : Nat → ParseM Expr
  | 0 => throw .exhausted
  | budget + 1 => do
    let s ← get
    if s.sees (.mark .minus) && s.seesSecond .integer then
      advance
      integerLiteral true s.view.span
    else
      match ← acceptOperator? unaryOperators with
      | some (op, span) =>
        let operand ← unary budget
        return .unary op operand (span.merge operand.span)
      | none => primary budget

/-- Reads a literal, a name, a call or an expression in parentheses. -/
def primary : Nat → ParseM Expr
  | 0 => throw .exhausted
  | budget + 1 => do
    let token := (← get).view
    match token.kind with
    | .integer => integerLiteral false token.span
    | .string => stringLiteral
    | .keyword .trueKw =>
      advance
      return .literal (.bool true) token.span
    | .keyword .falseKw =>
      advance
      return .literal (.bool false) token.span
    | .identifier =>
      let (name, span) ← expectIdentifier
      if (← get).sees (.mark .leftParen) then
        call budget name span
      else
        return .ident name span
    | .mark .leftParen =>
      advance
      let inner ← expression budget
      let _ ← expect (.mark .rightParen)
      return inner
    | _ => unexpected .expression

/-- Reads the argument list of a call. -/
def call : Nat → String → Span → ParseM Expr
  | 0, _, _ => throw .exhausted
  | budget + 1, callee, start => do
    let _ ← expect (.mark .leftParen)
    let list ← if (← get).sees (.mark .rightParen) then pure [] else arguments budget
    let stop ← expect (.mark .rightParen)
    return .call callee list (start.merge stop)

/-- Reads one argument or more, with commas between them. -/
def arguments : Nat → ParseM (List Expr)
  | 0 => throw .exhausted
  | budget + 1 => do
    let first ← expression budget
    match ← accept? (.mark .comma) with
    | some _ => return first :: (← arguments budget)
    | none => return [first]

end

/-! ## Simple statements -/

def semicolon : ParseM Unit := do
  let _ ← expect (.mark .semicolon)

/-- Reads `= value;`. -/
def initializer (budget : Nat) : ParseM Expr := do
  let _ ← expect (.mark .equal)
  let value ← expression budget
  semicolon
  return value

/-- Reads one of `let x: T;`, `let x: T = e;` and `let x = e;`. -/
def declaration (budget : Nat) : ParseM Stmt := do
  let _ ← expect (.keyword .letKw)
  let (name, span) ← expectIdentifier
  match ← accept? (.mark .colon) with
  | some _ =>
    let ty ← expectType
    match ← accept? (.mark .semicolon) with
    | some _ => return .declare name ty span
    | none => return .define name (some ty) (← initializer budget) span
  | none => return .define name none (← initializer budget) span

/-- Reads `needs module;`. -/
def needs : ParseM Stmt := do
  let start ← expect (.keyword .needsKw)
  let (module, span) ← expectIdentifier
  semicolon
  return .needs module (start.merge span)

/-- Reads a return with or without a value. -/
def ret (budget : Nat) : ParseM Stmt := do
  let span ← expect (.keyword .returnKw)
  let value ← if (← get).sees (.mark .semicolon) then pure none else some <$> expression budget
  semicolon
  return .ret value span

/-- Reads an assignment or an expression; an assignment is known by its second token. -/
def assignmentOrExpression (budget : Nat) : ParseM Stmt := do
  let s ← get
  if s.sees .identifier && s.seesSecond (.mark .equal) then
    let (name, span) ← expectIdentifier
    return .assign name (← initializer budget) span
  else
    let value ← expression budget
    semicolon
    return .expression value value.span

/-- Reads parameters up to the closing parenthesis, with commas between them. -/
def params : Nat → ParseM (List Param)
  | 0 => throw .exhausted
  | budget + 1 => do
    let (name, span) ← expectIdentifier
    let _ ← expect (.mark .colon)
    let ty ← expectType
    match ← accept? (.mark .comma) with
    | some _ => return ⟨name, ty, span⟩ :: (← params budget)
    | none => return [⟨name, ty, span⟩]

/-! ## Recovery -/

/-- The tokens behind the next semicolon, or from the next closing brace on. -/
def resume : List Token → List Token
  | [] => []
  | t :: ts =>
    if t.kind = .mark .semicolon then ts
    else if t.kind = .mark .rightBrace then t :: ts
    else resume ts

/-- Reads a statement, and makes an error node of it if it cannot be read. The
node quotes the token where reading stopped. At least one token is passed over,
and the block depth is again what it was before. A statement that the end of the
input cuts short stays a failure. -/
def recovering (statement : ParseM Stmt) : ParseM Stmt := fun before =>
  match statement before with
  | .ok stmt after => .ok stmt after
  | .error (.fault fault span) after =>
    if after.atEnd then .error (.fault fault span) after
    else
      let rest := resume after.rest
      let rest := if rest.length = before.rest.length then rest.tail else rest
      .ok (.error after.view.text fault.reason span) { after with rest, depth := before.depth }
  | .error .exhausted after => .error .exhausted after

/-! ## Statements and blocks -/

mutual

/-- Reads a statement, recovering if it cannot be read. -/
def statement : Nat → ParseM Stmt
  | 0 => throw .exhausted
  | budget + 1 => recovering (strictStatement budget)

/-- Reads a statement. The token in view tells which. -/
def strictStatement : Nat → ParseM Stmt
  | 0 => throw .exhausted
  | budget + 1 => do
    let s ← get
    match s.view.kind with
    | .keyword .letKw => declaration budget
    | .keyword .needsKw => needs
    | .keyword .fnKw =>
      if s.depth > 0 then failAt .nestedFunction s.view.span else function budget
    | .keyword .ifKw => ifChain budget
    | .keyword .whileKw =>
      let span ← expect (.keyword .whileKw)
      let (condition, body) ← guarded budget
      return .whileLoop condition body span
    | .mark .leftBrace => return .block (← block budget)
    | .keyword .returnKw => ret budget
    | .keyword .breakKw =>
      let span ← expect (.keyword .breakKw)
      semicolon
      return .breakLoop span
    | .keyword .continueKw =>
      let span ← expect (.keyword .continueKw)
      semicolon
      return .continueLoop span
    | _ => assignmentOrExpression budget

/-- Reads `fn name(params) -> type` and the body; the type may be left out. -/
def function : Nat → ParseM Stmt
  | 0 => throw .exhausted
  | budget + 1 => do
    let _ ← expect (.keyword .fnKw)
    let (name, span) ← expectIdentifier
    let _ ← expect (.mark .leftParen)
    let list ← if (← get).sees (.mark .rightParen) then pure [] else params budget
    let _ ← expect (.mark .rightParen)
    let returns ← match ← accept? (.mark .arrow) with
      | some _ => some <$> expectType
      | none => pure none
    return .function name list returns (← block budget) span

/-- Reads an `if` with its `else if` branches and its `else`. -/
def ifChain : Nat → ParseM Stmt
  | 0 => throw .exhausted
  | budget + 1 => do
    let span ← expect (.keyword .ifKw)
    let (condition, body) ← guarded budget
    let (branches, otherwise) ← elseBranches budget
    return .ifChain (.mk condition body span :: branches) otherwise span

/-- Reads the `else if` branches that follow, and the `else` if there is one. A
branch points at its two keywords together. -/
def elseBranches : Nat → ParseM (List Branch × Option Block)
  | 0 => throw .exhausted
  | budget + 1 => do
    match ← accept? (.keyword .elseKw) with
    | some elseSpan =>
      match ← accept? (.keyword .ifKw) with
      | some ifSpan =>
        let (condition, body) ← guarded budget
        let (branches, otherwise) ← elseBranches budget
        return (.mk condition body (elseSpan.merge ifSpan) :: branches, otherwise)
      | none => return ([], some (← block budget))
    | none => return ([], none)

/-- Reads a condition in parentheses and the block behind it. -/
def guarded : Nat → ParseM (Expr × Block)
  | 0 => throw .exhausted
  | budget + 1 => do
    let _ ← expect (.mark .leftParen)
    let condition ← expression budget
    let _ ← expect (.mark .rightParen)
    return (condition, ← block budget)

/-- Reads a block. -/
def block : Nat → ParseM Block
  | 0 => throw .exhausted
  | budget + 1 => do
    let start ← expect (.mark .leftBrace)
    modify fun s => { s with depth := s.depth + 1 }
    let list ← blockStatements budget
    modify fun s => { s with depth := s.depth - 1 }
    let stop ← expect (.mark .rightBrace)
    return .mk list (start.merge stop)

/-- Reads statements up to a closing brace or the end of the input. -/
def blockStatements : Nat → ParseM (List Stmt)
  | 0 => throw .exhausted
  | budget + 1 => do
    let s ← get
    if s.sees (.mark .rightBrace) || s.atEnd then
      return []
    else
      let first ← statement budget
      return first :: (← blockStatements budget)

end

/-- Reads statements up to the end of the input. -/
def programStatements : Nat → ParseM (List Stmt)
  | 0 => throw .exhausted
  | budget + 1 => do
    if (← get).atEnd then
      return []
    else
      let first ← statement budget
      return first :: (← programStatements budget)

/-- The budget for a stream of so many tokens. -/
def budgetFor (tokens : Nat) : Nat := 16 * (tokens + 2)

end Parser

/-- The diagnostic that a failure of the whole program amounts to. -/
def Parser.Failure.diagnostic : Parser.Failure → Diagnostic
  | .fault cause span => .spanned (.syntaxFault cause) span
  | .exhausted => .ofDefect .endlessNesting

/-- The program that a stream of tokens spells. It is refused only if the input
ends inside a statement. -/
def parse (tokens : List Token) : Except Diagnostic Program :=
  match tokens.getLast? with
  | none => .ok ⟨[]⟩
  | some last =>
    let start := { rest := tokens, last, depth := 0 }
    match Parser.programStatements (Parser.budgetFor tokens.length) start with
    | .ok statements _ => .ok ⟨statements⟩
    | .error failure _ => .error failure.diagnostic

end Slate
