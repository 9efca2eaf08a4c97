-- SUMMARY: The parser as a cursor in a row of tokens, with a trap for every operation that is used where it has no value.
import Slate.Source
import Slate.Syntax.Parser

/-!
# A cursor in the stream

The parser reads from the tokens that are left, so there is nothing that it could ask for in
vain. A parser that keeps all tokens and a number instead looks them up, cuts strings by bytes,
turns double words round and counts blocks down, and each of these is an operation without a
value in some places. Here the readers are written out once more over such a cursor, for streams
of tokens that no lexer has made. An operation without a value springs a trap; a trap is no fault
of the source, and recovery does not hold it back.
-/

namespace Slate

open Slate.Parser (Failure precedence unaryOperators)

/-! ## Traps -/

/-- What is wrong with an operation that has no value. -/
inductive Trap where
  /-- The last token of a stream without tokens is asked for. -/
  | noTokens
  /-- The token with a number past the end is asked for. -/
  | index
  /-- A string is cut behind its end, from back to front, or inside of a character. -/
  | slice
  /-- The least double word is turned round. -/
  | negation
  /-- A block is left while none is open. -/
  | depth
deriving DecidableEq, Repr

/-- Why a cursor stops. -/
inductive Stop where
  | failure (failure : Failure)
  | trap (trap : Trap)
deriving DecidableEq, Repr

/-- All tokens, the number of the next one, and the number of blocks that are open there. -/
structure Cursor where
  tokens : List Token
  current : Nat
  depth : Nat

/-- Reading with a cursor. -/
abbrev CursorM := EStateM Stop Cursor

/-! ## Cutting strings -/

/-- What is left behind so many bytes, if a character ends there. -/
def dropBytes? : Nat → List Char → Option (List Char)
  | 0, cs => some cs
  | _ + 1, [] => none
  | n + 1, c :: cs => if c.utf8Size ≤ n + 1 then dropBytes? (n + 1 - c.utf8Size) cs else none

/-- The characters of so many bytes, if a character ends there. -/
def takeBytes? : Nat → List Char → Option (List Char)
  | 0, _ => some []
  | _ + 1, [] => none
  | n + 1, c :: cs =>
    if c.utf8Size ≤ n + 1 then (takeBytes? (n + 1 - c.utf8Size) cs).map (c :: ·) else none

/-- The characters between two bytes. -/
def slice? (start stop : Nat) (cs : List Char) : Option (List Char) :=
  if start ≤ stop then dropBytes? start cs >>= takeBytes? (stop - start) else none

namespace Cursor

/-! ## Operations -/

def trap {α : Type} (trap : Trap) : CursorM α := throw (.trap trap)

/-- Stops reading at a span. -/
def failAt {α : Type} (fault : Fault) (span : Span) : CursorM α :=
  throw (.failure (.fault fault span))

def atEnd (c : Cursor) : Bool := c.tokens.length ≤ c.current

/-- The token with this number, which has to be in the stream. -/
def tokenAt (i : Nat) : CursorM Token := do
  match (← get).tokens[i]? with
  | some t => return t
  | none => trap .index

/-- The token in view: the next one, and past the end the last one. -/
def peek : CursorM Token := do
  let c ← get
  if c.atEnd then
    match c.tokens.length with
    | 0 => trap .noTokens
    | n + 1 => tokenAt n
  else
    tokenAt c.current

def currentSpan : CursorM Span := return (← peek).span

/-- Whether a token of class `kind` is next. -/
def check (kind : Kind) : CursorM Bool := do
  if (← get).atEnd then
    return false
  else
    return (← peek).kind == kind

/-- Whether a token of class `kind` is so many places ahead. This may be past the end. -/
def checkAhead (offset : Nat) (kind : Kind) : CursorM Bool := do
  let c ← get
  return c.tokens[c.current + offset]?.any fun t => t.kind == kind

/-- Passes over the token in view; at the end there is none to pass. -/
def advance : CursorM Unit :=
  modify fun c => if c.atEnd then c else { c with current := c.current + 1 }

/-- Passes over a token of class `kind`, if one is next. -/
def matchToken (kind : Kind) : CursorM Bool := do
  if ← check kind then
    advance
    return true
  else
    return false

/-- Passes over one of the marks in a table and yields what the table holds for it. -/
def matchOperator? {α : Type} : List (Mark × α) → CursorM (Option α)
  | [] => return none
  | (mark, op) :: table => do
    if ← matchToken (.mark mark) then
      return some op
    else
      matchOperator? table

/-- The span of the token before the next one. -/
def previousSpan : CursorM Span := do
  let c ← get
  if c.current > 0 then
    return (← tokenAt (c.current - 1)).span
  else
    currentSpan

/-- Stops reading at the token in view, where `what` was to stand. -/
def unexpected {α : Type} (what : Expectation) : CursorM α := do
  if (← get).atEnd then
    failAt (.expected what none) (← currentSpan)
  else
    let found ← peek
    failAt (.expected what (some found.text)) (← currentSpan)

/-- Passes over a token of class `kind`, which has to be next, and yields its span. -/
def expect (kind : Kind) : CursorM Span := do
  if ← check kind then
    let span ← currentSpan
    advance
    return span
  else
    unexpected (.kind kind)

/-- Passes over an identifier, which has to be next, and yields its name and span. -/
def expectIdentifier : CursorM (String × Span) := do
  if ← check .identifier then
    let token ← peek
    advance
    return (token.text, token.span)
  else
    unexpected .identifier

/-- Passes over the name of a type, which has to be in view. -/
def expectType : CursorM Ty := do
  match (← peek).kind with
  | .typeName ty =>
    advance
    return ty
  | _ => unexpected .type

/-! ## Literals -/

/-- Turns a double word round, if a minus belongs to it. -/
def signed (negative : Bool) (m : Int64) : CursorM Int64 :=
  if negative then
    if m = Int64.minValue then trap .negation else pure (-m)
  else
    pure m

/-- Reads the integer literal in view. Its source text begins at `start`, which is the minus sign
if there is one. -/
def integerLiteral (negative : Bool) (start : Span) : CursorM Expr := do
  let token ← peek
  let span := start.merge token.span
  match Literal.magnitude? token.text with
  | some magnitude =>
    match Literal.word? (← signed negative magnitude).toInt with
    | some n =>
      advance
      return .literal (.int n) span
    | none => failAt .integerOutOfRange span
  | none => failAt .integerOutOfRange span

/-- The text without its first and its last byte. -/
def content (text : String) : CursorM (List Char) :=
  match byteLength text.toList with
  | 0 => trap .slice
  | n + 1 =>
    match slice? 1 n text.toList with
    | some cs => return cs
    | none => trap .slice

/-- Reads the string literal in view. -/
def stringLiteral : CursorM Expr := do
  let token ← peek
  match Literal.unescape (← content token.text) with
  | .ok value =>
    advance
    return .literal (.string (String.ofList value)) token.span
  | .error fault => failAt fault token.span

/-! ## Expressions -/

mutual

/-- Reads an expression. -/
def expression : Nat → CursorM Expr
  | 0 => throw (.failure .exhausted)
  | budget + 1 => binary budget precedence

/-- Reads operands joined by the operators of the given levels. -/
def binary : Nat → List (List (Mark × BinaryOp)) → CursorM Expr
  | 0, _ => throw (.failure .exhausted)
  | budget + 1, [] => unary budget
  | budget + 1, table :: tighter => do
    let left ← binary budget tighter
    operators budget table tighter left

/-- Reads on behind a left operand, as long as operators of its level follow. -/
def operators : Nat → List (Mark × BinaryOp) → List (List (Mark × BinaryOp)) → Expr → CursorM Expr
  | 0, _, _, _ => throw (.failure .exhausted)
  | budget + 1, table, tighter, left => do
    match ← matchOperator? table with
    | some op =>
      let right ← binary budget tighter
      operators budget table tighter (left.join op right)
    | none => return left

/-- Reads an operand with the operators before it. -/
def unary : Nat → CursorM Expr
  | 0 => throw (.failure .exhausted)
  | budget + 1 => do
    let minus ← check (.mark .minus)
    let digits ← checkAhead 1 .integer
    if minus && digits then
      let start ← currentSpan
      advance
      integerLiteral true start
    else
      match ← matchOperator? unaryOperators with
      | some op =>
        let start ← previousSpan
        let operand ← unary budget
        return .unary op operand (start.merge operand.span)
      | none => primary budget

/-- Reads a literal, a name, a call or an expression in parentheses. -/
def primary : Nat → CursorM Expr
  | 0 => throw (.failure .exhausted)
  | budget + 1 => do
    let token ← peek
    match token.kind with
    | .integer => integerLiteral false token.span
    | .string => stringLiteral
    | .keyword .trueKw =>
      advance
      return .literal (.bool true) token.span
    | .keyword .falseKw =>
      advance
      return .literal (.bool false) token.span
    | .identifier =>
      let (name, span) ← expectIdentifier
      if ← check (.mark .leftParen) then
        call budget name span
      else
        return .ident name span
    | .mark .leftParen =>
      advance
      let inner ← expression budget
      let _ ← expect (.mark .rightParen)
      return inner
    | _ => unexpected .expression

/-- Reads the argument list of a call. -/
def call : Nat → String → Span → CursorM Expr
  | 0, _, _ => throw (.failure .exhausted)
  | budget + 1, callee, start => do
    let _ ← expect (.mark .leftParen)
    let list ← if ← check (.mark .rightParen) then pure [] else arguments budget
    let stop ← expect (.mark .rightParen)
    return .call callee list (start.merge stop)

/-- Reads one argument or more, with commas between them. -/
def arguments : Nat → CursorM (List Expr)
  | 0 => throw (.failure .exhausted)
  | budget + 1 => do
    let first ← expression budget
    if ← matchToken (.mark .comma) then
      return first :: (← arguments budget)
    else
      return [first]

end

/-! ## Simple statements -/

def semicolon : CursorM Unit := do
  let _ ← expect (.mark .semicolon)

/-- Reads `= value;`. -/
def initializer (budget : Nat) : CursorM Expr := do
  let _ ← expect (.mark .equal)
  let value ← expression budget
  semicolon
  return value

/-- Reads one of `let x: T;`, `let x: T = e;` and `let x = e;`. -/
def declaration (budget : Nat) : CursorM Stmt := do
  let _ ← expect (.keyword .letKw)
  let (name, span) ← expectIdentifier
  if ← matchToken (.mark .colon) then
    let ty ← expectType
    if ← matchToken (.mark .semicolon) then
      return .declare name ty span
    else
      return .define name (some ty) (← initializer budget) span
  else
    return .define name none (← initializer budget) span

/-- Reads `needs module;`. -/
def needs : CursorM Stmt := do
  let start ← expect (.keyword .needsKw)
  let (module, span) ← expectIdentifier
  semicolon
  return .needs module (start.merge span)

/-- Reads a return with or without a value. -/
def ret (budget : Nat) : CursorM Stmt := do
  let span ← expect (.keyword .returnKw)
  let value ← if ← check (.mark .semicolon) then pure none else some <$> expression budget
  semicolon
  return .ret value span

/-- Reads an assignment or an expression; an assignment is known by its second token. -/
def assignmentOrExpression (budget : Nat) : CursorM Stmt := do
  let named ← check .identifier
  let assigned ← checkAhead 1 (.mark .equal)
  if named && assigned then
    let (name, span) ← expectIdentifier
    return .assign name (← initializer budget) span
  else
    let value ← expression budget
    semicolon
    return .expression value value.span

/-- Reads parameters up to the closing parenthesis, with commas between them. -/
def params : Nat → CursorM (List Param)
  | 0 => throw (.failure .exhausted)
  | budget + 1 => do
    let (name, span) ← expectIdentifier
    let _ ← expect (.mark .colon)
    let ty ← expectType
    if ← matchToken (.mark .comma) then
      return ⟨name, ty, span⟩ :: (← params budget)
    else
      return [⟨name, ty, span⟩]

/-! ## Recovery -/

/-- Passes over so many tokens, unless a semicolon or a closing brace comes first. The semicolon
is passed over as well, and only then the result is true. -/
def skip : Nat → CursorM Bool
  | 0 => return false
  | n + 1 => do
    if (← get).atEnd then
      return false
    else if ← matchToken (.mark .semicolon) then
      return true
    else if ← check (.mark .rightBrace) then
      return false
    else
      advance
      skip n

/-- Passes over what is left of a statement that began at the token with number `start`. -/
def synchronize (start : Nat) : CursorM Unit := do
  let c ← get
  if ← skip (c.tokens.length - c.current) then
    return
  else if (← get).current = start then
    advance

/-- Makes an error node of a statement that cannot be read, unless the input ends there. -/
def recovering (statement : CursorM Stmt) : CursorM Stmt := fun before =>
  match statement before with
  | .ok stmt after => .ok stmt after
  | .error (.failure (.fault fault span)) after =>
    if after.atEnd then .error (.failure (.fault fault span)) after
    else
      let node : CursorM Stmt := do
        let token ← peek
        synchronize before.current
        return .error token.text fault.reason span
      node { after with depth := before.depth }
  | .error stop after => .error stop after

/-! ## Statements and blocks -/

/-- Leaves a block, which has to be open. -/
def leaveBlock : CursorM Unit := do
  match (← get).depth with
  | 0 => trap .depth
  | depth + 1 => modify fun c => { c with depth }

/-- Reads with one more block open. -/
def nested {α : Type} (m : CursorM α) : CursorM α := do
  modify fun c => { c with depth := c.depth + 1 }
  let a ← m
  leaveBlock
  return a

mutual

/-- Reads a statement, recovering if it cannot be read. -/
def statement : Nat → CursorM Stmt
  | 0 => throw (.failure .exhausted)
  | budget + 1 => recovering (strictStatement budget)

/-- Reads a statement. The token in view tells which. -/
def strictStatement : Nat → CursorM Stmt
  | 0 => throw (.failure .exhausted)
  | budget + 1 => do
    let token ← peek
    match token.kind with
    | .keyword .letKw => declaration budget
    | .keyword .needsKw => needs
    | .keyword .fnKw =>
      if (← get).depth > 0 then failAt .nestedFunction (← currentSpan) else function budget
    | .keyword .ifKw => ifChain budget
    | .keyword .whileKw =>
      let span ← expect (.keyword .whileKw)
      let (condition, body) ← guarded budget
      return .whileLoop condition body span
    | .mark .leftBrace => return .block (← block budget)
    | .keyword .returnKw => ret budget
    | .keyword .breakKw =>
      let span ← expect (.keyword .breakKw)
      semicolon
      return .breakLoop span
    | .keyword .continueKw =>
      let span ← expect (.keyword .continueKw)
      semicolon
      return .continueLoop span
    | _ => assignmentOrExpression budget

/-- Reads `fn name(params) -> type` and the body; the type may be left out. -/
def function : Nat → CursorM Stmt
  | 0 => throw (.failure .exhausted)
  | budget + 1 => do
    let _ ← expect (.keyword .fnKw)
    let (name, span) ← expectIdentifier
    let _ ← expect (.mark .leftParen)
    let list ← if ← check (.mark .rightParen) then pure [] else params budget
    let _ ← expect (.mark .rightParen)
    let returns ← if ← matchToken (.mark .arrow) then some <$> expectType else pure none
    return .function name list returns (← block budget) span

/-- Reads an `if` with its `else if` branches and its `else`. -/
def ifChain : Nat → CursorM Stmt
  | 0 => throw (.failure .exhausted)
  | budget + 1 => do
    let span ← expect (.keyword .ifKw)
    let (condition, body) ← guarded budget
    let (branches, otherwise) ← elseBranches budget
    return .ifChain (.mk condition body span :: branches) otherwise span

/-- Reads the `else if` branches that follow, and the `else` if there is one. -/
def elseBranches : Nat → CursorM (List Branch × Option Block)
  | 0 => throw (.failure .exhausted)
  | budget + 1 => do
    if ← matchToken (.keyword .elseKw) then
      if ← check (.keyword .ifKw) then
        let elseSpan ← previousSpan
        let ifSpan ← expect (.keyword .ifKw)
        let (condition, body) ← guarded budget
        let (branches, otherwise) ← elseBranches budget
        return (.mk condition body (elseSpan.merge ifSpan) :: branches, otherwise)
      else
        return ([], some (← block budget))
    else
      return ([], none)

/-- Reads a condition in parentheses and the block behind it. -/
def guarded : Nat → CursorM (Expr × Block)
  | 0 => throw (.failure .exhausted)
  | budget + 1 => do
    let _ ← expect (.mark .leftParen)
    let condition ← expression budget
    let _ ← expect (.mark .rightParen)
    return (condition, ← block budget)

/-- Reads a block. -/
def block : Nat → CursorM Block
  | 0 => throw (.failure .exhausted)
  | budget + 1 => do
    let start ← expect (.mark .leftBrace)
    let list ← nested (blockStatements budget)
    let stop ← expect (.mark .rightBrace)
    return .mk list (start.merge stop)

/-- Reads statements up to a closing brace or the end of the input. -/
def blockStatements : Nat → CursorM (List Stmt)
  | 0 => throw (.failure .exhausted)
  | budget + 1 => do
    let closed ← check (.mark .rightBrace)
    if closed || (← get).atEnd then
      return []
    else
      let first ← statement budget
      return first :: (← blockStatements budget)

end

/-- Reads statements up to the end of the input. -/
def programStatements : Nat → CursorM (List Stmt)
  | 0 => throw (.failure .exhausted)
  | budget + 1 => do
    if (← get).atEnd then
      return []
    else
      let first ← statement budget
      return first :: (← programStatements budget)

/-- The program that a stream of tokens spells, read with a cursor. -/
def parse (tokens : List Token) : Except Stop Program :=
  match programStatements (Parser.budgetFor tokens.length) ⟨tokens, 0, 0⟩ with
  | .ok statements _ => .ok ⟨statements⟩
  | .error stop _ => .error stop

end Cursor

end Slate
