-- SUMMARY: The grammar of the language, as relations between tokens, the tree they spell, and the tokens behind them.
import Slate.Syntax
import Slate.Syntax.Literal
import Slate.Token

/-!
# Grammar

Each nonterminal is a relation between a list of tokens, the tree that its front
spells, and the tokens left behind. The rules are those of the surface language
with nothing of a parser in them: alternatives are not tried in an order, nothing
is looked at ahead of time, and there is no recovery.

    program    := statement*
    statement  := needs | decl | function | if | while | block | return
                | 'break' ';' | 'continue' ';' | assign | expr ';'
    or         := and ('||' and)*
    and        := equality ('&&' equality)*
    equality   := comparison (('==' | '!=') comparison)*
    comparison := term (('<' | '<=' | '>' | '>=') term)*
    term       := factor (('+' | '-') factor)*
    factor     := unary (('*' | '/' | '%') unary)*
    unary      := ('-' | '!') unary | primary

The six levels of operators are one relation over the list of levels. What a tree
is beyond the tokens is part of the relation as well: operators of one level join
to the left, parentheses leave no node, a minus directly before an integer belongs
to the literal, and every node has its span.
-/

namespace Slate.Grammar

/-! ## Literals -/

/-- The text is a row of decimal digits that denotes `n`. -/
structure Decimal (text : String) (n : Nat) : Prop where
  nonempty : text.toList ≠ []
  digits : ∀ c ∈ text.toList, c.isDigit = true
  value : Literal.digitsValue text.toList = n

/-- The characters between the quotes of a string literal and those that they denote. -/
inductive Unescapes : List Char → List Char → Prop where
  | nil : Unescapes [] []
  | plain {c : Char} {cs vs : List Char} :
      c ≠ '\\' → Unescapes cs vs → Unescapes (c :: cs) (c :: vs)
  | newline {cs vs : List Char} : Unescapes cs vs → Unescapes ('\\' :: 'n' :: cs) ('\n' :: vs)
  | tab {cs vs : List Char} : Unescapes cs vs → Unescapes ('\\' :: 't' :: cs) ('\t' :: vs)
  | quote {cs vs : List Char} : Unescapes cs vs → Unescapes ('\\' :: '"' :: cs) ('"' :: vs)
  | backslash {cs vs : List Char} :
      Unescapes cs vs → Unescapes ('\\' :: '\\' :: cs) ('\\' :: vs)

/-- The text stands in quotes, and what is between them denotes `value`. -/
def Quoted (text value : String) : Prop :=
  ∃ inside, text.toList = '"' :: (inside ++ ['"']) ∧ Unescapes inside value.toList

/-! ## Operators -/

/-- A level of operators between two operands. -/
abbrev Operators := List (Mark × BinaryOp)

def orLevel : Operators := [(.pipePipe, .or)]

def andLevel : Operators := [(.ampAmp, .and)]

def equalityLevel : Operators := [(.equalEqual, .equal), (.bangEqual, .notEqual)]

def comparisonLevel : Operators :=
  [(.less, .less), (.lessEqual, .lessEqual), (.greater, .greater), (.greaterEqual, .greaterEqual)]

def termLevel : Operators := [(.plus, .add), (.minus, .subtract)]

def factorLevel : Operators := [(.star, .multiply), (.slash, .divide), (.percent, .modulo)]

/-- The levels, from the one that binds loosest. -/
def levels : List Operators :=
  [orLevel, andLevel, equalityLevel, comparisonLevel, termLevel, factorLevel]

/-- Operands joined to the left. -/
def joinAll (first : Expr) (more : List (BinaryOp × Expr)) : Expr :=
  more.foldl (fun left (op, right) => left.join op right) first

/-! ## Expressions -/

/-- The first token, if there is one, is not of this class. -/
def NotNext (kind : Kind) (ts : List Token) : Prop := ∀ t more, ts = t :: more → t.kind ≠ kind

theorem NotNext.cons {t : Token} {ts : List Token} {kind : Kind} (h : t.kind ≠ kind) :
    NotNext kind (t :: ts) := by
  rintro _ _ ⟨⟩
  exact h

theorem NotNext.nil {kind : Kind} : NotNext kind [] := nofun

theorem NotNext.append {kind : Kind} {ts more : List Token} (h : NotNext kind ts)
    (hmore : ts = [] → NotNext kind more) : NotNext kind (ts ++ more) := by
  cases ts with
  | nil => exact hmore rfl
  | cons t ts => exact .cons (h t ts rfl)

mutual

/-- `level := tighter (op tighter)*`, and behind the tightest level `unary`. -/
inductive Level : List Operators → List Token → Expr → List Token → Prop where
  | unary {ts rest : List Token} {e : Expr} : Unary ts e rest → Level [] ts e rest
  | joined {level : Operators} {tighter : List Operators} {ts mid rest : List Token}
      {first : Expr} {more : List (BinaryOp × Expr)} :
      Level tighter ts first mid → Operands level tighter mid more rest →
      Level (level :: tighter) ts (joinAll first more) rest

/-- `(op tighter)*` -/
inductive Operands : Operators → List Operators → List Token → List (BinaryOp × Expr) →
    List Token → Prop where
  | none {level : Operators} {tighter : List Operators} {ts : List Token} :
      Operands level tighter ts [] ts
  | more {level : Operators} {tighter : List Operators} {operator : Token}
      {ts mid rest : List Token} {mark : Mark} {op : BinaryOp} {right : Expr}
      {more : List (BinaryOp × Expr)} :
      operator.kind = .mark mark → (mark, op) ∈ level → Level tighter ts right mid →
      Operands level tighter mid more rest →
      Operands level tighter (operator :: ts) ((op, right) :: more) rest

/-- `unary := ('-' | '!') unary | primary`; a minus before an integer is part of it. -/
inductive Unary : List Token → Expr → List Token → Prop where
  | negative {minus digits : Token} {rest : List Token} {n : Nat} :
      minus.kind = .mark .minus → digits.kind = .integer → Decimal digits.text n →
      n ≤ 2147483648 →
      Unary (minus :: digits :: rest)
        (.literal (.int (Int32.ofInt (-n))) (minus.span.merge digits.span)) rest
  | negate {minus : Token} {ts rest : List Token} {operand : Expr} :
      minus.kind = .mark .minus → NotNext .integer ts → Unary ts operand rest →
      Unary (minus :: ts) (.unary .negate operand (minus.span.merge operand.span)) rest
  | not {bang : Token} {ts rest : List Token} {operand : Expr} :
      bang.kind = .mark .bang → Unary ts operand rest →
      Unary (bang :: ts) (.unary .not operand (bang.span.merge operand.span)) rest
  | primary {ts rest : List Token} {e : Expr} : Primary ts e rest → Unary ts e rest

/-- `primary := INT | STRING | 'true' | 'false' | IDENT | IDENT '(' args? ')' | '(' expr ')'` -/
inductive Primary : List Token → Expr → List Token → Prop where
  | integer {digits : Token} {rest : List Token} {n : Nat} :
      digits.kind = .integer → Decimal digits.text n → n ≤ 2147483647 →
      Primary (digits :: rest) (.literal (.int (Int32.ofInt n)) digits.span) rest
  | string {quoted : Token} {rest : List Token} {value : String} :
      quoted.kind = .string → Quoted quoted.text value →
      Primary (quoted :: rest) (.literal (.string value) quoted.span) rest
  | true {word : Token} {rest : List Token} :
      word.kind = .keyword .trueKw →
      Primary (word :: rest) (.literal (.bool true) word.span) rest
  | false {word : Token} {rest : List Token} :
      word.kind = .keyword .falseKw →
      Primary (word :: rest) (.literal (.bool false) word.span) rest
  | ident {name : Token} {rest : List Token} :
      name.kind = .identifier → Primary (name :: rest) (.ident name.text name.span) rest
  | call {name left right : Token} {rest : List Token} :
      name.kind = .identifier → left.kind = .mark .leftParen → right.kind = .mark .rightParen →
      Primary (name :: left :: right :: rest)
        (.call name.text [] (name.span.merge right.span)) rest
  | callWith {name left right : Token} {ts rest : List Token} {list : List Expr} :
      name.kind = .identifier → left.kind = .mark .leftParen →
      Arguments ts list (right :: rest) → right.kind = .mark .rightParen →
      Primary (name :: left :: ts) (.call name.text list (name.span.merge right.span)) rest
  | parens {left right : Token} {ts rest : List Token} {e : Expr} :
      left.kind = .mark .leftParen → Level levels ts e (right :: rest) →
      right.kind = .mark .rightParen → Primary (left :: ts) e rest

/-- `args := expr (',' expr)*` -/
inductive Arguments : List Token → List Expr → List Token → Prop where
  | last {ts rest : List Token} {e : Expr} : Level levels ts e rest → Arguments ts [e] rest
  | more {comma : Token} {ts mid rest : List Token} {e : Expr} {list : List Expr} :
      Level levels ts e (comma :: mid) → comma.kind = .mark .comma → Arguments mid list rest →
      Arguments ts (e :: list) rest

end

/-- `expr := or` -/
abbrev Expression : List Token → Expr → List Token → Prop := Level levels

/-! ## Statements -/

/-- `params := IDENT ':' type (',' IDENT ':' type)*` -/
inductive Params : List Token → List Param → List Token → Prop where
  | last {name colon type : Token} {rest : List Token} {ty : Ty} :
      name.kind = .identifier → colon.kind = .mark .colon → type.kind = .typeName ty →
      Params (name :: colon :: type :: rest) [⟨name.text, ty, name.span⟩] rest
  | more {name colon type comma : Token} {ts rest : List Token} {ty : Ty} {list : List Param} :
      name.kind = .identifier → colon.kind = .mark .colon → type.kind = .typeName ty →
      comma.kind = .mark .comma → Params ts list rest →
      Params (name :: colon :: type :: comma :: ts) (⟨name.text, ty, name.span⟩ :: list) rest

/-- `'(' params? ')'` -/
inductive ParamList : List Token → List Param → List Token → Prop where
  | none {left right : Token} {rest : List Token} :
      left.kind = .mark .leftParen → right.kind = .mark .rightParen →
      ParamList (left :: right :: rest) [] rest
  | some {left right : Token} {ts rest : List Token} {list : List Param} :
      left.kind = .mark .leftParen → Params ts list (right :: rest) →
      right.kind = .mark .rightParen → ParamList (left :: ts) list rest

/-- `('->' type)?` -/
inductive ReturnType : List Token → Option Ty → List Token → Prop where
  | none {rest : List Token} : ReturnType rest none rest
  | some {arrow type : Token} {rest : List Token} {ty : Ty} :
      arrow.kind = .mark .arrow → type.kind = .typeName ty →
      ReturnType (arrow :: type :: rest) (some ty) rest

/-- `'=' expr ';'` -/
inductive Initializer : List Token → Expr → List Token → Prop where
  | mk {equal semicolon : Token} {ts rest : List Token} {e : Expr} :
      equal.kind = .mark .equal → Expression ts e (semicolon :: rest) →
      semicolon.kind = .mark .semicolon → Initializer (equal :: ts) e rest

mutual

/-- Statements. Functions can stand only at the top, outside of every block. -/
inductive Statement : Bool → List Token → Stmt → List Token → Prop where
  | needs {top : Bool} {word name semicolon : Token} {rest : List Token} :
      word.kind = .keyword .needsKw → name.kind = .identifier →
      semicolon.kind = .mark .semicolon →
      Statement top (word :: name :: semicolon :: rest)
        (.needs name.text (word.span.merge name.span)) rest
  | declare {top : Bool} {word name colon type semicolon : Token} {rest : List Token} {ty : Ty} :
      word.kind = .keyword .letKw → name.kind = .identifier → colon.kind = .mark .colon →
      type.kind = .typeName ty → semicolon.kind = .mark .semicolon →
      Statement top (word :: name :: colon :: type :: semicolon :: rest)
        (.declare name.text ty name.span) rest
  | define {top : Bool} {word name colon type : Token} {ts rest : List Token} {ty : Ty}
      {value : Expr} :
      word.kind = .keyword .letKw → name.kind = .identifier → colon.kind = .mark .colon →
      type.kind = .typeName ty → Initializer ts value rest →
      Statement top (word :: name :: colon :: type :: ts)
        (.define name.text (some ty) value name.span) rest
  | infer {top : Bool} {word name : Token} {ts rest : List Token} {value : Expr} :
      word.kind = .keyword .letKw → name.kind = .identifier → Initializer ts value rest →
      Statement top (word :: name :: ts) (.define name.text none value name.span) rest
  | function {word name : Token} {ts ts' ts'' rest : List Token} {list : List Param}
      {returns : Option Ty} {body : Block} :
      word.kind = .keyword .fnKw → name.kind = .identifier → ParamList ts list ts' →
      ReturnType ts' returns ts'' → Braces ts'' body rest →
      Statement true (word :: name :: ts) (.function name.text list returns body name.span) rest
  | ifChain {top : Bool} {word : Token} {ts mid rest : List Token} {test : Expr} {body : Block}
      {branches : List Branch} {otherwise : Option Block} :
      word.kind = .keyword .ifKw → Guarded ts test body mid →
      Alternatives mid branches otherwise rest →
      Statement top (word :: ts)
        (.ifChain (.mk test body word.span :: branches) otherwise word.span) rest
  | whileLoop {top : Bool} {word : Token} {ts rest : List Token} {test : Expr} {body : Block} :
      word.kind = .keyword .whileKw → Guarded ts test body rest →
      Statement top (word :: ts) (.whileLoop test body word.span) rest
  | block {top : Bool} {ts rest : List Token} {body : Block} :
      Braces ts body rest → Statement top ts (.block body) rest
  | ret {top : Bool} {word semicolon : Token} {rest : List Token} :
      word.kind = .keyword .returnKw → semicolon.kind = .mark .semicolon →
      Statement top (word :: semicolon :: rest) (.ret none word.span) rest
  | retValue {top : Bool} {word semicolon : Token} {ts rest : List Token} {value : Expr} :
      word.kind = .keyword .returnKw → Expression ts value (semicolon :: rest) →
      semicolon.kind = .mark .semicolon →
      Statement top (word :: ts) (.ret (some value) word.span) rest
  | breakLoop {top : Bool} {word semicolon : Token} {rest : List Token} :
      word.kind = .keyword .breakKw → semicolon.kind = .mark .semicolon →
      Statement top (word :: semicolon :: rest) (.breakLoop word.span) rest
  | continueLoop {top : Bool} {word semicolon : Token} {rest : List Token} :
      word.kind = .keyword .continueKw → semicolon.kind = .mark .semicolon →
      Statement top (word :: semicolon :: rest) (.continueLoop word.span) rest
  | assign {top : Bool} {name : Token} {ts rest : List Token} {value : Expr} :
      name.kind = .identifier → Initializer ts value rest →
      Statement top (name :: ts) (.assign name.text value name.span) rest
  | expression {top : Bool} {semicolon : Token} {ts rest : List Token} {value : Expr} :
      Expression ts value (semicolon :: rest) → semicolon.kind = .mark .semicolon →
      Statement top ts (.expression value value.span) rest

/-- `block := '{' statement* '}'` -/
inductive Braces : List Token → Block → List Token → Prop where
  | mk {left right : Token} {ts rest : List Token} {list : List Stmt} :
      left.kind = .mark .leftBrace → Statements false ts list (right :: rest) →
      right.kind = .mark .rightBrace →
      Braces (left :: ts) (.mk list (left.span.merge right.span)) rest

/-- `'(' expr ')' block` -/
inductive Guarded : List Token → Expr → Block → List Token → Prop where
  | mk {left right : Token} {ts mid rest : List Token} {test : Expr} {body : Block} :
      left.kind = .mark .leftParen → Expression ts test (right :: mid) →
      right.kind = .mark .rightParen → Braces mid body rest →
      Guarded (left :: ts) test body rest

/-- `('else' 'if' '(' expr ')' block)* ('else' block)?` -/
inductive Alternatives : List Token → List Branch → Option Block → List Token → Prop where
  | none {rest : List Token} : Alternatives rest [] none rest
  | last {word : Token} {ts rest : List Token} {body : Block} :
      word.kind = .keyword .elseKw → Braces ts body rest →
      Alternatives (word :: ts) [] (some body) rest
  | more {word word' : Token} {ts mid rest : List Token} {test : Expr} {body : Block}
      {branches : List Branch} {otherwise : Option Block} :
      word.kind = .keyword .elseKw → word'.kind = .keyword .ifKw → Guarded ts test body mid →
      Alternatives mid branches otherwise rest →
      Alternatives (word :: word' :: ts)
        (.mk test body (word.span.merge word'.span) :: branches) otherwise rest

/-- `statement*` -/
inductive Statements : Bool → List Token → List Stmt → List Token → Prop where
  | none {top : Bool} {rest : List Token} : Statements top rest [] rest
  | more {top : Bool} {ts mid rest : List Token} {stmt : Stmt} {list : List Stmt} :
      Statement top ts stmt mid → Statements top mid list rest →
      Statements top ts (stmt :: list) rest

end

/-- The tokens, all of them, spell the program. -/
def Derives (ts : List Token) (p : Program) : Prop := Statements true ts p.statements []

end Slate.Grammar
