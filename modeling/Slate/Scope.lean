-- SUMMARY: Lexical scopes and the table that holds them, with binding, look-up and the printed form of a table.
import Slate.Diagnostic
import Slate.Symbol

/-!
# Scopes

A symbol table holds every scope that was ever entered, numbered in the order of
entry, so that the whole of it can be read when a program has been checked.
Leaving a scope only makes the one around it current again. A name is looked up
in the current scope first and then in the scopes around it, so an inner binding
hides an outer one.
-/

namespace Slate

/-! ## One scope -/

/-- A lexical scope: its number, the scope around it, the place where its block
begins, and its symbols in the order of declaration. The index leads from each
name to the position of its symbol. -/
structure Scope where
  id : Nat
  parent : Option Nat
  block : Option Location
  symbols : List Symbol
  index : List (String × Nat)
deriving Repr

namespace Scope

/-- A scope without symbols. -/
def empty (id : Nat) (parent : Option Nat) (block : Option Location) : Scope :=
  { id, parent, block, symbols := [], index := [] }

/-- The symbol that a scope itself binds to a name. -/
def get? (s : Scope) (name : String) : Option Symbol :=
  (s.index.lookup name).bind (s.symbols[·]?)

/-- A scope with one more symbol, behind the others. -/
def push (s : Scope) (symbol : Symbol) : Scope :=
  { s with
    symbols := s.symbols ++ [symbol]
    index := (symbol.name, s.symbols.length) :: s.index }

/-- The first line of a scope in the printed table. -/
def heading (s : Scope) : String :=
  match s.parent, s.block with
  | none, _ => s!"scope {s.id} (global)"
  | some parent, some start => s!"scope {s.id} (parent {parent}, block at {start.text})"
  | some parent, none => s!"scope {s.id} (parent {parent})"

/-- The line of a symbol in the printed table. -/
def symbolLine (symbol : Symbol) : String := s!"  {symbol.text} (line {symbol.line})"

/-- The lines of a scope in the printed table. -/
def lines (s : Scope) : List String := s.heading :: s.symbols.map symbolLine

end Scope

/-! ## Tables -/

/-- A symbol table: every scope that was entered, each at the position that is
its number, and the number of the current one. -/
structure Table where
  scopes : List Scope
  current : Nat
deriving Repr

namespace Table

/-- The table with nothing but an empty global scope. -/
def empty : Table := { scopes := [Scope.empty 0 none none], current := 0 }

def currentScope? (t : Table) : Option Scope := t.scopes[t.current]?

/-- Enters a new scope inside the current one. -/
def enter (t : Table) (block : Option Location) : Table where
  scopes := t.scopes ++ [Scope.empty t.scopes.length (some t.current) block]
  current := t.scopes.length

/-- The scope around the current one, if there is one. -/
def parent? (t : Table) : Option Nat := t.currentScope?.bind Scope.parent

/-- Leaves the current scope for the one around it; the global scope cannot be left. -/
def exit (t : Table) : Except Diagnostic Table :=
  match t.parent? with
  | some parent => .ok { t with current := parent }
  | none => .error (.ofDefect .exitOfGlobalScope)

/-- The diagnostic for binding a name again that `existing` has. -/
def redeclaration (name : String) (existing : Symbol) (span : Span) : Diagnostic :=
  .spanned (.redeclared name existing.line) span

/-- Binds a symbol in the current scope, which must not bind its name yet. -/
def define (t : Table) (symbol : Symbol) : Except Diagnostic Table :=
  match t.currentScope?.bind (·.get? symbol.name) with
  | some existing => .error (redeclaration symbol.name existing symbol.span)
  | none => .ok { t with scopes := t.scopes.modify t.current (·.push symbol) }

/-- The scope of number `id` and the scopes around it, innermost first. Around a
scope there are only scopes of smaller number. -/
def enclosing (scopes : List Scope) (id : Nat) : List Scope :=
  match scopes[id]? with
  | none => []
  | some scope =>
    match scope.parent with
    | none => [scope]
    | some parent =>
      if parent < id then scope :: enclosing scopes parent else [scope]

/-- The current scope and the scopes around it, innermost first. -/
def visible (t : Table) : List Scope := enclosing t.scopes t.current

/-- The symbol that a name stands for, and the number of the scope that binds it. -/
def lookupWithScope? (t : Table) (name : String) : Option (Symbol × Nat) :=
  t.visible.findSome? fun scope => (scope.get? name).map (·, scope.id)

/-- The symbol that a name stands for. -/
def lookup? (t : Table) (name : String) : Option Symbol :=
  (t.lookupWithScope? name).map Prod.fst

/-- The number of scopes around the current one. -/
def depth (t : Table) : Nat := t.visible.length - 1

/-- The number of symbols in the global scope. -/
def globals (t : Table) : Nat := (t.scopes.head?.map (·.symbols.length)).getD 0

/-- The printed form of a table, a line for each scope and each symbol. -/
def dump (t : Table) : String :=
  String.join (t.scopes.flatMap fun scope => scope.lines.map (· ++ "\n"))

end Table

end Slate
