-- SUMMARY: Checking programs: one walk that binds names, types every statement, and stops at the first error.
import Slate.Event
import Slate.Folding
import Slate.Paths
import Slate.Returns
import Slate.Typing.Resolution

/-!
# Checking programs

A program is checked in one walk from its first statement to its last. The walk
keeps the symbol table, the function and the loops around the place reached, and
the events reported so far; the first error ends it. What the walk had done by
then stays done, so that the table can be looked at after an error too.
-/

namespace Slate

/-! ## State -/

/-- The function whose body is being checked. -/
structure FunctionContext where
  name : String
  returns : Returns
deriving Repr

/-- A loop whose body is being checked, and whether a `break` has been met in it. -/
structure LoopContext where
  span : Span
  hasBreak : Bool
deriving DecidableEq, Repr

/-- The state of the walk. The innermost loop comes first, the latest event last. -/
structure CheckState where
  table : Table
  function : Option FunctionContext
  loops : List LoopContext
  events : Array Event
deriving Repr

/-- A part of the walk. The state survives an error. -/
abbrev CheckM := EStateM Diagnostic CheckState

/-- The state before the first statement. -/
def CheckState.start (table : Table) : CheckState :=
  { table, function := none, loops := [], events := #[] }

namespace Check

/-- Reports an event. -/
def emit (event : Event) : CheckM Unit := modify fun s => { s with events := s.events.push event }

/-- Stops the walk at a span. -/
def refuse {α : Type} (cause : Cause) (span : Span) : CheckM α := throw (.spanned cause span)

/-- Stops the walk if a test fails. -/
def require {α : Type} : Except Diagnostic α → CheckM α
  | .ok a => pure a
  | .error d => throw d

/-! ## Scopes -/

/-- Enters the scope of a block. -/
def enterBlock (start : Location) : CheckM Unit := do
  let table := (← get).table
  emit (.enterScope table.scopes.length table.current)
  modify fun s => { s with table := table.enter (some start) }

/-- Leaves the current scope. -/
def exitBlock : CheckM Unit := do
  let table := (← get).table
  let outer ← require table.exit
  emit (.exitScope table.current outer.current)
  modify fun s => { s with table := outer }

/-- Binds a symbol in the current scope. -/
def define (symbol : Symbol) : CheckM Unit := do
  let table ← require ((← get).table.define symbol)
  modify fun s => { s with table }

/-- Binds symbols in the current scope, in their order. -/
def defineAll (symbols : List Symbol) : CheckM Unit := symbols.forM define

/-- Refuses a name that can be seen from the current scope. -/
def requireFresh (name : String) (span : Span) : CheckM Unit := do
  match (← get).table.lookup? name with
  | some existing => throw (Table.redeclaration name existing span)
  | none => pure ()

/-! ## Expressions in their place -/

/-- Resolves an expression. -/
def resolve (e : Expr) : CheckM Unit := do require (e.resolve (← get).table)

/-- Resolves the right-hand side of a declaration or assignment, and refuses it if
it cannot stand where a value of type `ty` is due. -/
def requireValue (ty : Ty) (e : Expr) (span : Span) : CheckM Unit := do
  resolve e
  let table := (← get).table
  unless e.fits table ty do refuse (.wrongValue ty (e.type? table)) span

/-- Checks the condition of a branch or loop. -/
def condition (construct : Construct) (e : Expr) (span : Span) : CheckM Unit := do
  resolve e
  unless e.fits (← get).table .bool do refuse (.conditionNotBool construct) span

/-- Checks the conditions of the branches behind the first. -/
def elseConditions : List Branch → CheckM Unit
  | [] => pure ()
  | .mk test _ span :: branches => do
    condition .elseIfBranch test span
    elseConditions branches

/-- Checks all conditions of an `if` chain. -/
def conditions : List Branch → CheckM Unit
  | [] => pure ()
  | .mk test _ span :: branches => do
    condition .ifBranch test span
    elseConditions branches

/-! ## Declarations and assignments -/

/-- Checks `let name: ty;`. -/
def declaration (name : String) (ty : Ty) (span : Span) : CheckM Unit := do
  requireFresh name span
  match Symbol.declared? ty name span with
  | none => refuse .voidVariable span
  | some symbol =>
    emit (.declare name ty)
    define symbol

/-- Binds a variable to what its initializer is worth. -/
def bindValue (name : String) (ty : Ty) (e : Expr) (span : Span) : CheckM Unit := do
  match e.fold? (← get).table ty with
  | none => refuse .voidVariable span
  | some folded =>
    let symbol := Symbol.initialized name span folded.value folded.known
    emit (.define name ty symbol.knownValue?)
    define symbol

/-- Checks `let name: ty = e;`. -/
def typedDefinition (name : String) (ty : Ty) (e : Expr) (span : Span) : CheckM Unit := do
  requireFresh name span
  if ty = .void then refuse .voidVariable span
  requireValue ty e span
  bindValue name ty e span

/-- Checks `let name = e;`, which takes its type from the initializer. -/
def inferredDefinition (name : String) (e : Expr) (span : Span) : CheckM Unit := do
  requireFresh name span
  resolve e
  let table := (← get).table
  match e.type? table with
  | none => refuse .untypedInitializer span
  | some ty =>
    if ty = .void then refuse (.voidInitializer name) span
    unless e.fits table ty do refuse (.wrongValue ty (e.type? table)) span
    bindValue name ty e span

/-- Checks `name = e;`. -/
def assignment (name : String) (e : Expr) (span : Span) : CheckM Unit := do
  match (← get).table.lookup? name with
  | none => refuse (.assignmentToUndeclared name) span
  | some (.function ..) => refuse (.assignmentToFunction name) span
  | some symbol =>
    match symbol.valueType? with
    | none => throw (.ofDefect (.untypedVariable name))
    | some ty => requireValue ty e span

/-- Checks an expression that stands as a statement. Any type will do, `void`
included. -/
def expressionStatement (e : Expr) (span : Span) : CheckM Unit := do
  resolve e
  if (e.type? (← get).table).isNone then refuse .untypedExpression span

/-! ## Jumps -/

/-- Checks a return and enters it into the account of its function. -/
def ret (value : Option Expr) (span : Span) : CheckM Unit := do
  match (← get).function with
  | none => refuse .returnOutsideFunction span
  | some context =>
    match value with
    | some e => resolve e
    | none => pure ()
    modify fun s =>
      { s with function := some { context with returns := context.returns.inspect s.table value span } }

/-- Checks a `break` and marks its loop. -/
def breakLoop (span : Span) : CheckM Unit := do
  match (← get).loops with
  | [] => refuse .breakOutsideLoop span
  | loop :: outer => modify fun s => { s with loops := { loop with hasBreak := true } :: outer }

/-- Checks a `continue`. -/
def continueLoop (span : Span) : CheckM Unit := do
  if (← get).loops.isEmpty then refuse .continueOutsideLoop span

/-! ## Loops and functions around a body -/

/-- Runs a body inside one more loop and yields what became of the loop. The loops
around it are the same afterwards, also after an error. -/
def insideLoop (span : Span) (body : CheckM Unit) : CheckM (Option LoopContext) := fun s =>
  match body { s with loops := { span, hasBreak := false } :: s.loops } with
  | .ok _ s => .ok s.loops.head? { s with loops := s.loops.tail }
  | .error d s => .error d { s with loops := s.loops.tail }

/-- Runs a body inside a function and yields what became of the function. The
function around it is the same afterwards, also after an error. -/
def insideFunction (context : FunctionContext) (body : CheckM Unit) :
    CheckM (Option FunctionContext) := fun s =>
  let outer := s.function
  match body { s with function := some context } with
  | .ok _ s => .ok s.function { s with function := outer }
  | .error d s => .error d { s with function := outer }

/-- Reports a loop whose body is checked. -/
def reportLoop : Option LoopContext → CheckM Unit
  | some loop => emit (.loopChecked loop.span.line loop.hasBreak)
  | none => pure ()

/-- The symbols of the parameters of a function, none of which may be `void`. -/
def paramSymbols (function : String) : List Param → Except Diagnostic (List Symbol)
  | [] => .ok []
  | p :: ps =>
    match Symbol.parameter? p.ty p.name p.span with
    | none => .error (.spanned (.voidParameter p.name function) p.span)
    | some symbol => (paramSymbols function ps).map (symbol :: ·)

/-- Checks the head of a function. A function with a written return type is bound
already, so that its body may call it. Its symbol is yielded. -/
def functionHead (name : String) (params : List Param) (returns : Option Ty) (span : Span) :
    CheckM (List Symbol × Symbol) := do
  if Builtin.isName name then refuse (.builtinRedefined name) span
  requireFresh name span
  let symbols ← require (paramSymbols name params)
  let ty := returns.getD .void
  let symbol := Symbol.function name span symbols ty
  emit (.defineFunction name { params := symbols.filterMap Symbol.valueType?, returns := ty })
  if returns.isSome then define symbol
  return (symbols, symbol)

/-- Checks what only the whole body of a function can show, and binds a function
without a written return type. -/
def functionTail (name : String) (returns : Option Ty) (body : Block) (span : Span)
    (symbol : Symbol) (context : Option FunctionContext) : CheckM Unit := do
  match context with
  | none => throw (.ofDefect (.lostFunction name))
  | some context =>
    emit (.functionChecked context.name context.returns.inspected)
    require context.returns.finish
    let ty := returns.getD .void
    if ty ≠ .void ∧ !body.returnsOnAllPaths then refuse (.missingReturn name ty) span
    if returns.isNone then define symbol

end Check

/-! ## Statements -/

mutual

/-- Checks a statement. -/
def Stmt.check : Stmt → CheckM Unit
  | .needs module span => Check.emit (.needsSkipped module span.line)
  | .declare name ty span => Check.declaration name ty span
  | .define name (some ty) value span => Check.typedDefinition name ty value span
  | .define name none value span => Check.inferredDefinition name value span
  | .assign name value span => Check.assignment name value span
  | .function name params returns (.mk statements bodySpan) span => do
    let (symbols, symbol) ← Check.functionHead name params returns span
    -- parameters and body share one scope
    Check.enterBlock bodySpan.start
    Check.defineAll symbols
    let context := { name, returns := .start (returns.getD .void) }
    let context ← Check.insideFunction context (checkAll statements)
    Check.exitBlock
    Check.functionTail name returns (.mk statements bodySpan) span symbol context
  | .ifChain branches otherwise _ => do
    Check.conditions branches
    checkBranches branches
    match otherwise with
    | some body => body.check
    | none => pure ()
  | .whileLoop test body span => do
    Check.condition .whileLoop test span
    let loop ← Check.insideLoop span body.check
    Check.reportLoop loop
  | .block body => body.check
  | .ret value span => Check.ret value span
  | .breakLoop span => Check.breakLoop span
  | .continueLoop span => Check.continueLoop span
  | .expression value span => Check.expressionStatement value span
  | .error text reason span => Check.refuse (.unreadable text reason) span

/-- Checks a block in a scope of its own. -/
def Block.check : Block → CheckM Unit
  | .mk statements span => do
    Check.enterBlock span.start
    checkAll statements
    Check.exitBlock

/-- Checks statements in the current scope, in their order. -/
def checkAll : List Stmt → CheckM Unit
  | [] => pure ()
  | s :: ss => do
    s.check
    checkAll ss

/-- Checks the blocks of the branches of an `if` chain. -/
def checkBranches : List Branch → CheckM Unit
  | [] => pure ()
  | .mk _ body _ :: branches => do
    body.check
    checkBranches branches

end

/-! ## Programs -/

/-- Checks a program in the current scope. -/
def Program.check (p : Program) : CheckM Unit := do
  checkAll p.statements
  let table := (← get).table
  Check.emit (.programChecked table.scopes.length table.globals)

/-- What checking a program comes to: the table as it then stands, the events
reported, and the error if there is one. -/
structure Outcome where
  table : Table
  events : Array Event
  error : Option Diagnostic
deriving Repr

namespace Program

/-- Checks a program on top of a table. -/
def checkFrom (p : Program) (table : Table) : Outcome :=
  match p.check (.start table) with
  | .ok _ s => { table := s.table, events := s.events, error := none }
  | .error d s => { table := s.table, events := s.events, error := some d }

/-- Checks a program on its own. -/
def outcome (p : Program) : Outcome := p.checkFrom .empty

/-- The symbol table of a program, or the first error in it. -/
def analyze (p : Program) : Except Diagnostic Table :=
  let outcome := p.outcome
  match outcome.error with
  | none => .ok outcome.table
  | some d => .error d

/-- The events of a whole analysis. -/
def trace (p : Program) : List Event :=
  .analyze p.statements.length :: p.outcome.events.toList

end Program

end Slate
