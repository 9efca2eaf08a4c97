-- SUMMARY: The walk of the checker with a record of every binding that it makes, and that the record changes nothing else.
import Slate.Proofs.Check.Looks

/-!
# A record of bindings

What the checker binds, and what could be seen from there at that moment, is gone once
the walk goes on. Here the walk is written out once more with a record: just before a
symbol is bound, the table as it then is, the symbol and what it is bound as are put
down. Without its record the recorded walk is the walk itself, step by step.
-/

namespace Slate

/-! ## Records -/

/-- What a symbol is bound as. A parameter is bound behind those that stand before it in
the head of its function. -/
inductive Role where
  | var
  | function
  | parameter (function : String) (before : List Symbol)

/-- A binding that is about to be made: the table by then, what the symbol is bound as,
and the symbol. -/
structure Binding where
  table : Table
  role : Role
  symbol : Symbol

/-- The state of the walk with the bindings so far, the latest last. -/
structure Recorded where
  state : CheckState
  bindings : List Binding

/-- A part of the recorded walk. -/
abbrev RecordM := EStateM Diagnostic Recorded

/-! ## The recorded walk -/

namespace Record

variable {α β : Type}

/-- A part of the walk that binds nothing. -/
def plain (m : CheckM α) : RecordM α := fun r =>
  match m r.state with
  | .ok a state => .ok a { r with state }
  | .error d state => .error d { r with state }

/-- Records a binding and makes it. -/
def bind (role : Role) (symbol : Symbol) : RecordM Unit := do
  modify fun r => { r with bindings := r.bindings ++ [⟨r.state.table, role, symbol⟩] }
  plain (Check.define symbol)

/-- Binds the parameters of a function behind those before them. -/
def parameters (function : String) (before : List Symbol) : List Symbol → RecordM Unit
  | [] => pure ()
  | symbol :: symbols => do
    bind (.parameter function before) symbol
    parameters function (before ++ [symbol]) symbols

def functionHead (name : String) (params : List Param) (returns : Option Ty) (span : Span) :
    RecordM (List Symbol × Symbol) := do
  let head ← plain (Check.functionSymbols name params returns span)
  if returns.isSome then bind .function head.2
  return head

def functionTail (name : String) (returns : Option Ty) (body : Block) (span : Span)
    (symbol : Symbol) (context : Option FunctionContext) : RecordM Unit := do
  plain (Check.functionVerdict name returns body span context)
  if returns.isNone then bind .function symbol

def insideLoop (span : Span) (body : RecordM Unit) : RecordM (Option LoopContext) := fun r =>
  let loops := { span, hasBreak := false } :: r.state.loops
  match body { r with state := { r.state with loops } } with
  | .ok _ r =>
    .ok r.state.loops.head? { r with state := { r.state with loops := r.state.loops.tail } }
  | .error d r => .error d { r with state := { r.state with loops := r.state.loops.tail } }

def insideFunction (context : FunctionContext) (body : RecordM Unit) :
    RecordM (Option FunctionContext) := fun r =>
  let outer := r.state.function
  match body { r with state := { r.state with function := some context } } with
  | .ok _ r => .ok r.state.function { r with state := { r.state with function := outer } }
  | .error d r => .error d { r with state := { r.state with function := outer } }

/-- A statement without statements inside. -/
def simple (stmt : Stmt) : RecordM Unit :=
  match stmt.introduction? with
  | some m => do
    let symbol ← plain m
    bind .var symbol
  | none => plain stmt.check

end Record

mutual

/-- Checks a statement. -/
def Stmt.record : Stmt → RecordM Unit
  | .function name params returns (.mk statements bodySpan) span => do
    let (symbols, symbol) ← Record.functionHead name params returns span
    Record.plain (Check.enterBlock bodySpan.start)
    let context ← (do
      Record.parameters name [] symbols
      Record.insideFunction (Check.functionStart name returns) (recordAll statements))
    Record.plain Check.exitBlock
    Record.functionTail name returns (.mk statements bodySpan) span symbol context
  | .ifChain branches otherwise _ => do
    Record.plain (Check.conditions branches)
    recordBranches branches
    match otherwise with
    | some body => body.record
    | none => pure ()
  | .whileLoop test body span => do
    Record.plain (Check.condition .whileLoop test span)
    let loop ← Record.insideLoop span body.record
    Record.plain (Check.reportLoop loop)
  | .block body => body.record
  | stmt => Record.simple stmt

/-- Checks a block in a scope of its own. -/
def Block.record : Block → RecordM Unit
  | .mk statements span => do
    Record.plain (Check.enterBlock span.start)
    recordAll statements
    Record.plain Check.exitBlock

/-- Checks statements in the current scope, in their order. -/
def recordAll : List Stmt → RecordM Unit
  | [] => pure ()
  | s :: ss => do
    s.record
    recordAll ss

/-- Checks the blocks of the branches of an `if` chain. -/
def recordBranches : List Branch → RecordM Unit
  | [] => pure ()
  | .mk _ body _ :: branches => do
    body.record
    recordBranches branches

end

namespace Program

/-- Checks a program in the current scope. -/
def record (p : Program) : RecordM Unit := do
  recordAll p.statements
  Record.plain (do
    let table := (← get).table
    Check.emit (.programChecked table.scopes.length table.globals))

/-- Checks a program on top of a table, and yields its bindings too. -/
def recordFrom (p : Program) (table : Table) : Outcome × List Binding :=
  match p.record { state := .start table, bindings := [] } with
  | .ok _ r => ({ table := r.state.table, events := r.state.events, error := none }, r.bindings)
  | .error d r =>
    ({ table := r.state.table, events := r.state.events, error := some d }, r.bindings)

/-- The bindings that checking a program on top of a table makes. -/
def bindingsFrom (p : Program) (table : Table) : List Binding := (p.recordFrom table).2

end Program

theorem Stmt.record_simple {stmt : Stmt} (h : stmt.isSimple = true) :
    stmt.record = Record.simple stmt := by
  cases stmt with
  | function | ifChain | whileLoop | block => cases h
  | _ => rfl

/-! ## Forgetting the record -/

namespace Record

variable {α β : Type}

/-- A result without its record. -/
def forget : EStateM.Result Diagnostic Recorded α → EStateM.Result Diagnostic CheckState α
  | .ok a r => .ok a r.state
  | .error d r => .error d r.state

/-- Without its record, the recorded part of a walk is `m'`. -/
def Forgets (m : RecordM α) (m' : CheckM α) : Prop := ∀ r, forget (m r) = m' r.state

variable {m : RecordM α} {m' : CheckM α} {f : α → RecordM β} {f' : α → CheckM β}

theorem forgets_pure (a : α) : Forgets (pure a) (pure a) := fun _ => rfl

theorem Forgets.bind (hm : Forgets m m') (hf : ∀ a, Forgets (f a) (f' a)) :
    Forgets (m >>= f) (m' >>= f') := by
  intro r
  have hrun := hm r
  simp only [Bind.bind, EStateM.bind, ← hrun]
  cases m r with
  | ok a r₁ => exact hf a r₁
  | error d r₁ => rfl

theorem forgets_plain (m : CheckM α) : Forgets (plain m) m := by
  intro r
  unfold plain
  cases m r.state <;> rfl

theorem forgets_bind (role : Role) (symbol : Symbol) :
    Forgets (bind role symbol) (Check.define symbol) :=
  fun r => forgets_plain (Check.define symbol)
    { r with bindings := r.bindings ++ [⟨r.state.table, role, symbol⟩] }

theorem forgets_parameters (function : String) (before symbols : List Symbol) :
    Forgets (parameters function before symbols) (Check.defineAll symbols) := by
  induction symbols generalizing before with
  | nil => exact forgets_pure ()
  | cons symbol symbols ih => exact (forgets_bind _ symbol).bind fun _ => ih _

theorem forgets_functionHead (name : String) (params : List Param) (returns : Option Ty)
    (span : Span) :
    Forgets (functionHead name params returns span)
      (Check.functionHead name params returns span) := by
  rw [Check.functionHead_eq]
  refine (forgets_plain _).bind fun head => ?_
  cases returns with
  | none => exact forgets_pure head
  | some ty => exact (forgets_bind .function head.2).bind fun _ => forgets_pure head

theorem forgets_functionTail (name : String) (returns : Option Ty) (body : Block) (span : Span)
    (symbol : Symbol) (context : Option FunctionContext) :
    Forgets (functionTail name returns body span symbol context)
      (Check.functionTail name returns body span symbol context) := by
  rw [Check.functionTail_eq]
  refine (forgets_plain _).bind fun _ => ?_
  cases returns with
  | none => exact forgets_bind .function symbol
  | some ty => exact forgets_pure ()

theorem forgets_insideLoop {m : RecordM Unit} {m' : CheckM Unit} (hm : Forgets m m')
    (span : Span) : Forgets (insideLoop span m) (Check.insideLoop span m') := by
  intro r
  have hrun := hm { r with
    state := { r.state with loops := { span, hasBreak := false } :: r.state.loops } }
  simp only [insideLoop, Check.insideLoop, ← hrun]
  cases m { r with
    state := { r.state with loops := { span, hasBreak := false } :: r.state.loops } } <;> rfl

theorem forgets_insideFunction {m : RecordM Unit} {m' : CheckM Unit} (hm : Forgets m m')
    (context : FunctionContext) :
    Forgets (insideFunction context m) (Check.insideFunction context m') := by
  intro r
  have hrun := hm { r with state := { r.state with function := some context } }
  simp only [insideFunction, Check.insideFunction, ← hrun]
  cases m { r with state := { r.state with function := some context } } <;> rfl

theorem forgets_simple {stmt : Stmt} (h : stmt.isSimple = true) :
    Forgets stmt.record stmt.check := by
  rw [Stmt.record_simple h]
  unfold simple
  split
  · next m hintroduction =>
    rw [Stmt.check_introduction hintroduction]
    exact (forgets_plain m).bind fun symbol => forgets_bind .var symbol
  · exact forgets_plain stmt.check

end Record

open Record in
mutual

/-- The recorded walk over a statement is the walk over it. -/
theorem Stmt.record_forgets : (stmt : Stmt) → Forgets stmt.record stmt.check
  | .function name params returns (.mk statements bodySpan) span => by
    rw [Stmt.record, Stmt.check]
    refine (forgets_functionHead name params returns span).bind fun ⟨symbols, symbol⟩ => ?_
    simp only [bind_assoc]
    refine (forgets_plain _).bind fun _ => (forgets_parameters name [] symbols).bind fun _ => ?_
    exact (forgets_insideFunction (recordAll_forgets statements) _).bind fun context =>
      (forgets_plain _).bind fun _ => forgets_functionTail _ _ _ _ _ _
  | .ifChain branches none _ => by
    rw [Stmt.record, Stmt.check]
    exact (forgets_plain _).bind fun _ => (recordBranches_forgets branches).bind forgets_pure
  | .ifChain branches (some body) _ => by
    rw [Stmt.record, Stmt.check]
    exact (forgets_plain _).bind fun _ =>
      (recordBranches_forgets branches).bind fun _ => body.record_forgets
  | .whileLoop test body span => by
    rw [Stmt.record, Stmt.check]
    exact (forgets_plain _).bind fun _ =>
      (forgets_insideLoop body.record_forgets span).bind fun _ => forgets_plain _
  | .block body => by
    rw [Stmt.record, Stmt.check]
    exact body.record_forgets
  | .needs .. | .declare .. | .define .. | .assign .. | .ret .. | .breakLoop _
  | .continueLoop _ | .expression .. | .error .. => forgets_simple rfl

theorem Block.record_forgets : (body : Block) → Forgets body.record body.check
  | .mk statements span => by
    rw [Block.record, Block.check]
    exact (forgets_plain _).bind fun _ =>
      (recordAll_forgets statements).bind fun _ => forgets_plain _

theorem recordAll_forgets :
    (statements : List Stmt) → Forgets (recordAll statements) (checkAll statements)
  | [] => forgets_pure ()
  | stmt :: statements => by
    rw [recordAll, checkAll]
    exact stmt.record_forgets.bind fun _ => recordAll_forgets statements

theorem recordBranches_forgets :
    (branches : List Branch) → Forgets (recordBranches branches) (checkBranches branches)
  | [] => forgets_pure ()
  | .mk _ body _ :: branches => by
    rw [recordBranches, checkBranches]
    exact body.record_forgets.bind fun _ => recordBranches_forgets branches

end

/-- Recorded or not, checking a program comes to the same. -/
theorem Program.recordFrom_outcome (p : Program) (t : Table) :
    (p.recordFrom t).1 = p.checkFrom t := by
  have hforgets : Record.Forgets p.record p.check :=
    (recordAll_forgets p.statements).bind fun _ => Record.forgets_plain _
  have hrun := hforgets { state := .start t, bindings := [] }
  unfold recordFrom checkFrom
  rw [← hrun]
  cases p.record { state := .start t, bindings := [] } <;> rfl

end Slate
