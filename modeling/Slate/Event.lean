-- SUMMARY: The events that checking a program reports, with their level, wording and fields.
import Slate.Symbol

/-!
# Events

While a program is checked, each step that changes the symbol table or finishes a
part of the program is reported as an event. A log shows an event as its level,
a fixed message, and named fields.
-/

namespace Slate

/-- What is reported while a program is checked. -/
inductive Event where
  /-- The analysis of a program of so many statements begins. -/
  | analyze (statements : Nat)
  | enterScope (scope : Nat) (parent : Nat)
  | exitScope (scope : Nat) (parent : Nat)
  | declare (name : String) (ty : Ty)
  /-- A variable is declared with a value, which may be known. -/
  | define (name : String) (ty : Ty) (value : Option Value)
  | defineFunction (name : String) (signature : Signature)
  | functionChecked (name : String) (returns : Nat)
  | loopChecked (line : Nat) (hasBreak : Bool)
  | needsSkipped (module : String) (line : Nat)
  | programChecked (scopes : Nat) (globals : Nat)
deriving DecidableEq, Repr

/-- How much an event matters. The whole analysis is a span of its own. -/
inductive Event.Level where
  | warning
  | debug
  | trace
  | span
deriving DecidableEq, Repr

/-- A level as logs show it. -/
def Event.Level.text : Event.Level → String
  | .warning => "WARN"
  | .debug => "DEBUG"
  | .trace => "TRACE"
  | .span => "SPAN"

/-- A value in the notation of logs. -/
def loggedValue : Option Value → String
  | none => "None"
  | some (.int n) => s!"Some(Int({wordText n}))"
  | some (.string s) => s!"Some(String({Text.quote s}))"
  | some (.bool b) => s!"Some(Bool({boolText b}))"

namespace Event

def level : Event → Level
  | analyze .. => .span
  | needsSkipped .. => .warning
  | enterScope .. | exitScope .. | loopChecked .. => .trace
  | declare .. | define .. | defineFunction .. | functionChecked .. | programChecked .. => .debug

def message : Event → String
  | analyze .. => "analyze"
  | enterScope .. => "enter scope"
  | exitScope .. => "exit scope"
  | declare .. => "declare"
  | define .. => "declare with initializer"
  | defineFunction .. => "define function"
  | functionChecked .. => "function body checked"
  | loopChecked .. => "loop checked"
  | needsSkipped .. => "needs statements are not supported, skipping"
  | programChecked .. => "program checked"

/-- The fields of an event, in their order. -/
def fields : Event → List (String × String)
  | analyze statements => [("statements", Nat.repr statements)]
  | enterScope scope parent | exitScope scope parent =>
    [("scope", Nat.repr scope), ("parent", Nat.repr parent)]
  | declare name ty => [("name", name), ("ty", ty.text)]
  | define name ty value => [("name", name), ("ty", ty.text), ("value", loggedValue value)]
  | defineFunction name signature => [("name", name), ("signature", signature.text)]
  | functionChecked name returns => [("function", name), ("returns", Nat.repr returns)]
  | loopChecked line hasBreak => [("line", Nat.repr line), ("has_break", boolText hasBreak)]
  | needsSkipped module line => [("module", module), ("line", Nat.repr line)]
  | programChecked scopes globals =>
    [("scopes", Nat.repr scopes), ("globals", Nat.repr globals)]

end Event

end Slate
