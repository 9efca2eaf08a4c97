-- SUMMARY: What names stand for: variables with what is known of their value, functions with their signature, and the built-in functions.
import Slate.Source
import Slate.Value

/-!
# Symbols

A symbol is what a declaration binds its name to. A variable has the type of the
value it stores; the value is the one held after the declaration if that is known
at compile time, and says nothing otherwise. A function has parameters, which are
symbols themselves, and a return type.
-/

namespace Slate

/-! ## Signatures -/

/-- The types that a function takes and the type that it yields. -/
structure Signature where
  params : List Ty
  returns : Ty
deriving DecidableEq, Repr

/-- A signature as it is shown to people. -/
def Signature.text (s : Signature) : String :=
  "(" ++ ", ".intercalate (s.params.map Ty.text) ++ ") -> " ++ s.returns.text

/-! ## Built-in functions -/

namespace Builtin

/-- The functions that every program can call, by name. -/
def all : List (String × Signature) :=
  [("put", ⟨[.string], .void⟩),
   ("putInt", ⟨[.int], .void⟩),
   ("putBool", ⟨[.bool], .void⟩),
   ("getString", ⟨[], .string⟩),
   ("getInt", ⟨[], .int⟩),
   ("getBool", ⟨[], .bool⟩),
   ("intToString", ⟨[.int], .string⟩),
   ("stringToInt", ⟨[.string], .int⟩),
   ("stringLength", ⟨[.string], .int⟩),
   ("exit", ⟨[.int], .void⟩)]

/-- The signature of the built-in function of that name, if there is one. -/
def signature? (name : String) : Option Signature := all.lookup name

/-- Whether a built-in function has that name. -/
def isName (name : String) : Bool := (signature? name).isSome

end Builtin

/-! ## Variables -/

/-- A variable or parameter. The stored value fixes the type; it is the value of
the variable right after its declaration if `known` is set. -/
structure Variable where
  name : String
  span : Span
  value : Value
  known : Bool
  initialized : Bool
deriving DecidableEq, Repr

namespace Variable

/-- The value right after the declaration, if it is known. -/
def knownValue? (v : Variable) : Option Value := if v.known then some v.value else none

/-- What is known of a variable, in the words of a symbol table. -/
def flags (v : Variable) : String :=
  match v.known, v.initialized with
  | true, true => "static, initialized"
  | true, false => "static, default"
  | false, true => "dynamic, initialized"
  | false, false => "dynamic"

/-- A variable as it is shown in a symbol table. -/
def text (v : Variable) : String :=
  s!"{v.value.ty.text} {v.name} = {v.value.text} [{v.flags}]"

end Variable

/-! ## Symbols -/

/-- What a name is bound to. -/
inductive Symbol where
  | var (v : Variable)
  | function (name : String) (span : Span) (params : List Symbol) (returns : Ty)
deriving Repr

namespace Symbol

/-- A variable declared without a value; it holds the default of its type. No
variable is of type `void`. -/
def declared? (ty : Ty) (name : String) (span : Span) : Option Symbol :=
  ty.default?.map fun value => var { name, span, value, known := true, initialized := false }

/-- A parameter; its value is not known. No parameter is of type `void`. -/
def parameter? (ty : Ty) (name : String) (span : Span) : Option Symbol :=
  ty.default?.map fun value => var { name, span, value, known := false, initialized := false }

/-- A variable declared with a value. -/
def initialized (name : String) (span : Span) (value : Value) (known : Bool) : Symbol :=
  var { name, span, value, known, initialized := true }

def name : Symbol → String
  | var v => v.name
  | function name _ _ _ => name

def span : Symbol → Span
  | var v => v.span
  | function _ span _ _ => span

/-- The line of the declaration. -/
def line (s : Symbol) : Nat := s.span.line

/-- The type of a variable; a function is no value and has none. -/
def valueType? : Symbol → Option Ty
  | var v => some v.value.ty
  | function .. => none

/-- The value right after the declaration, if it is known. -/
def knownValue? : Symbol → Option Value
  | var v => v.knownValue?
  | function .. => none

def isFunction : Symbol → Bool
  | var _ => false
  | function .. => true

/-- The signature of a function. A parameter that is itself a function has no
type and is left out. -/
def signature? : Symbol → Option Signature
  | var _ => none
  | function _ _ params returns => some { params := params.filterMap valueType?, returns }

/-- A parameter as it is shown in the symbol of its function. -/
def paramText (s : Symbol) : String :=
  s.name ++ ": " ++ (s.valueType?.map Ty.text).getD "?"

/-- A symbol as it is shown in a symbol table. -/
def text : Symbol → String
  | var v => v.text
  | function name _ params returns =>
    "fn " ++ name ++ "(" ++ ", ".intercalate (params.map paramText) ++ ") -> " ++ returns.text

end Symbol

end Slate
