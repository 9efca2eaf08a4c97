-- SUMMARY: Everything that can be wrong with a program: the causes, their wording, codes and labels.
import Slate.Token

/-!
# Diagnostics

A diagnostic is a cause and the stretch of source text it points at. Causes are
told apart by constructor; their wording stands in `Cause.message` alone. Each
cause belongs to one of a few kinds, and the kind decides the code of the
diagnostic and the label under the source text.
-/

namespace Slate

/-! ## Faults of syntax -/

/-- What the grammar asks for at a place. -/
inductive Expectation where
  | kind (k : Kind)
  | identifier
  | expression
  | type
deriving DecidableEq, Repr

/-- An expectation as messages name it, a spelling in quotes. -/
def Expectation.text : Expectation → String
  | .kind k => s!"'{k.text}'"
  | .identifier => "identifier"
  | .expression => "expression"
  | .type => "type"

/-- Why a statement cannot be read. -/
inductive Fault where
  /-- Something else stands where the grammar asks for `what`; at the end of the
  input, nothing does. -/
  | expected (what : Expectation) (found : Option String)
  | integerOutOfRange
  | unknownEscape (c : Char)
  | unterminatedEscape
  | nestedFunction
deriving DecidableEq, Repr

/-- The wording of a fault. -/
def Fault.reason : Fault → String
  | .expected what (some found) => s!"Expected {what.text}, found '{found}'"
  | .expected what none => s!"Expected {what.text}, found end of input"
  | .integerOutOfRange => "Integer literal out of range"
  | .unknownEscape c => "Unknown escape sequence '\\" ++ String.singleton c ++ "'"
  | .unterminatedEscape => "Unterminated escape sequence"
  | .nestedFunction => "Function definitions are only allowed at the top level"

/-! ## Causes -/

/-- The statement whose condition is at fault. -/
inductive Construct where
  | ifBranch
  | elseIfBranch
  | whileLoop
deriving DecidableEq, Repr

def Construct.text : Construct → String
  | .ifBranch => "if"
  | .elseIfBranch => "else if"
  | .whileLoop => "while"

/-- A state that no program can bring about. -/
inductive Defect where
  | exitOfGlobalScope
  | lostFunction (name : String)
  | untypedVariable (name : String)
  /-- An opening parenthesis ends the input, so its expression never begins. -/
  | endlessNesting
deriving DecidableEq, Repr

def Defect.text : Defect → String
  | .exitOfGlobalScope => "attempted to exit the global scope"
  | .lostFunction name => s!"lost the context of function {name}"
  | .untypedVariable name => s!"variable {name} has no value type"
  | .endlessNesting => "the input ends in an opening parenthesis"

/-- Everything that can be wrong with a program. -/
inductive Cause where
  /-- No token fits the text. -/
  | invalidToken (slice : String)
  /-- The input ends inside a statement. -/
  | syntaxFault (fault : Fault)
  /-- A statement that could not be read, met again by the checker. -/
  | unreadable (text : String) (reason : String)
  | redeclared (name : String) (line : Nat)
  | builtinRedefined (name : String)
  | unknownIdentifier (name : String)
  | unknownFunction (name : String)
  | functionAsValue (name : String)
  | notAFunction (name : String)
  | wrongArity (name : String) (expected : Nat) (found : Nat)
  /-- The argument at `position`, counted from one, is not of the expected type. -/
  | wrongArgument (position : Nat) (name : String) (expected : Ty) (found : Option Ty)
  /-- The right-hand side of a declaration or assignment is not of the expected type. -/
  | wrongValue (expected : Ty) (found : Option Ty)
  | untypedInitializer
  | untypedExpression
  | conditionNotBool (construct : Construct)
  | voidVariable
  | voidInitializer (name : String)
  | voidParameter (name : String) (function : String)
  | assignmentToUndeclared (name : String)
  | assignmentToFunction (name : String)
  | returnOutsideFunction
  | breakOutsideLoop
  | continueOutsideLoop
  | missingReturn (function : String) (ty : Ty)
  /-- A return carries a value of another type than declared; `void` stands for
  a return without a value. -/
  | wrongReturn (expected : Ty) (found : Option Ty)
  | internal (defect : Defect)
deriving DecidableEq, Repr

/-- A type, or the words for an expression that has none. -/
def typeOrMismatch : Option Ty → String
  | some ty => ty.text
  | none => "mismatched types"

/-- The wording of a return that disagrees with the declared type. -/
def wrongReturnText : Ty → Option Ty → String
  | .void, _ => "A void function cannot return a value."
  | expected, some .void =>
    s!"Missing return value: expected an expression of type {expected.text}."
  | expected, found =>
    s!"Expected a return value of type {expected.text}, found {typeOrMismatch found}."

/-- The wording of a cause. -/
def Cause.message : Cause → String
  | .invalidToken slice => s!"Lexer error: Invalid token '{slice}'"
  | .syntaxFault fault => s!"Parser error: {fault.reason}"
  | .unreadable text reason => s!"Syntax error at '{text}': {reason}"
  | .redeclared name line => s!"Identifier {name} was declared before on line {line}."
  | .builtinRedefined name => s!"{name} is a built-in function and cannot be redefined."
  | .unknownIdentifier name => s!"Unknown identifier {name}."
  | .unknownFunction name => s!"Unknown function {name}."
  | .functionAsValue name => s!"Function {name} cannot be used as a value."
  | .notAFunction name => s!"Cannot call {name}: it is not a function."
  | .wrongArity name expected found =>
    s!"Function {name} expects {expected} argument(s), found {found}."
  | .wrongArgument position name expected found =>
    s!"Argument {position} of {name} must be of type {expected.text}, found {typeOrMismatch found}."
  | .wrongValue expected found =>
    s!"Expected {expected.text} expression on RHS, found {typeOrMismatch found}."
  | .untypedInitializer =>
    "Incompatible types in expression on RHS. All terms should be of the same type."
  | .untypedExpression => "Mismatched types in expression."
  | .conditionNotBool construct =>
    s!"Invalid boolean expression in condition for {construct.text} statement."
  | .voidVariable => "Void types for variable declarations are not allowed."
  | .voidInitializer name =>
    s!"Cannot infer a type for {name} from an expression of type void."
  | .voidParameter name function => s!"Parameter {name} of {function} cannot be of type void."
  | .assignmentToUndeclared name => s!"Assignment to previously undeclared symbol {name}."
  | .assignmentToFunction name => s!"Cannot assign to {name}: it is a function."
  | .returnOutsideFunction => "Return statement must be within a function."
  | .breakOutsideLoop => "Break statement must be within a loop."
  | .continueOutsideLoop => "Continue statement must be within a loop."
  | .missingReturn function ty =>
    s!"Not all possible execution paths in function {function} return a value of type {ty.text}."
  | .wrongReturn expected found => wrongReturnText expected found
  | .internal defect => s!"Internal compiler error: {defect.text}"

/-! ## Kinds -/

/-- The kinds into which causes fall. -/
inductive Cause.Kind where
  | lexing
  | parsing
  | unreadable
  | redeclaration
  | unresolved
  | typeMismatch
  | illegal
  | missingReturn
  | wrongReturn
  | internal
deriving DecidableEq, Repr

/-- The kind of a cause. -/
def Cause.kind : Cause → Cause.Kind
  | .invalidToken _ => .lexing
  | .syntaxFault _ => .parsing
  | .unreadable .. => .unreadable
  | .redeclared .. | .builtinRedefined _ => .redeclaration
  | .unknownIdentifier _ | .unknownFunction _ => .unresolved
  | .functionAsValue _ | .notAFunction _ | .wrongArity .. | .wrongArgument .. | .wrongValue ..
  | .untypedInitializer | .untypedExpression | .conditionNotBool _ => .typeMismatch
  | .voidVariable | .voidInitializer _ | .voidParameter .. | .assignmentToUndeclared _
  | .assignmentToFunction _ | .returnOutsideFunction | .breakOutsideLoop
  | .continueOutsideLoop => .illegal
  | .missingReturn .. => .missingReturn
  | .wrongReturn .. => .wrongReturn
  | .internal _ => .internal

/-- The code that tools show for a kind of cause; defects have none. -/
def Cause.Kind.code? : Cause.Kind → Option String
  | .lexing => some "slate::lexer"
  | .parsing => some "slate::parser"
  | .unreadable => some "slate::syntax"
  | .redeclaration => some "slate::redeclaration"
  | .unresolved => some "slate::unresolved"
  | .typeMismatch => some "slate::type_mismatch"
  | .illegal => some "slate::illegal"
  | .missingReturn => some "slate::missing_return"
  | .wrongReturn => some "slate::return_type"
  | .internal => none

/-- The words that tools put under the source text. -/
def Cause.Kind.label : Cause.Kind → String
  | .unreadable => "unexpected token"
  | .redeclaration => "declared again here"
  | .unresolved => "not found in this scope"
  | .missingReturn => "in this function"
  | _ => "here"

/-! ## Diagnostics -/

/-- A cause and the stretch of source text it points at; a defect points nowhere. -/
structure Diagnostic where
  cause : Cause
  span : Option Span
deriving DecidableEq, Repr

namespace Diagnostic

/-- A cause that points at a stretch of source text. -/
def spanned (cause : Cause) (span : Span) : Diagnostic := ⟨cause, some span⟩

/-- A defect, which points nowhere. -/
def ofDefect (defect : Defect) : Diagnostic := ⟨.internal defect, none⟩

/-- The wording of a diagnostic. -/
def message (d : Diagnostic) : String := d.cause.message

/-- The line on which a diagnostic starts. -/
def line? (d : Diagnostic) : Option Nat := d.span.map Span.line

/-- The code that tools show. -/
def code? (d : Diagnostic) : Option String := d.cause.kind.code?

end Diagnostic

/-- The mark that tools draw into the source text: words, a first byte, and a
number of bytes. -/
structure Label where
  text : String
  offset : Nat
  length : Nat
deriving DecidableEq, Repr

/-- The mark of a diagnostic, if it points anywhere. -/
def Diagnostic.label? (d : Diagnostic) : Option Label :=
  d.span.map fun span =>
    { text := d.cause.kind.label
      offset := span.start.offset
      length := span.stop.offset - span.start.offset }

end Slate
