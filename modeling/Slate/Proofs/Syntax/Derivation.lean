-- SUMMARY: What all derivations have in common: they use tokens up, and what they begin with tells what they are.
import Slate.Proofs.Syntax.Grammar

/-!
# Derivations

Three facts about the grammar for the reading in the other direction, where the
tokens are given and the derivation is not. Every derivation uses tokens up.
Expressions and statements begin with tokens that end nothing and continue
nothing. An identifier before an equal sign is an expression of its own, so that
one token of lookahead tells an assignment from an expression.
-/

namespace Slate

/-! ## Error nodes -/

mutual

/-- Whether a statement, and every statement in it, could be read. -/
def Stmt.errorFree : Stmt → Bool
  | .error .. => false
  | .function _ _ _ body _ => body.errorFree
  | .block body => body.errorFree
  | .ifChain branches otherwise _ =>
    branchesErrorFree branches && otherwiseErrorFree otherwise
  | .whileLoop _ body _ => body.errorFree
  | _ => true

def Block.errorFree : Block → Bool
  | .mk statements _ => allErrorFree statements

def allErrorFree : List Stmt → Bool
  | [] => true
  | stmt :: statements => stmt.errorFree && allErrorFree statements

def branchesErrorFree : List Branch → Bool
  | [] => true
  | .mk _ body _ :: branches => body.errorFree && branchesErrorFree branches

def otherwiseErrorFree : Option Block → Bool
  | none => true
  | some otherwise => otherwise.errorFree

end

/-- Whether every statement of a program could be read. -/
def Program.errorFree (program : Program) : Bool := allErrorFree program.statements

namespace Grammar

/-! ## First tokens -/

/-- The tokens that an operand without an operator before it can begin with. -/
def opensPrimary : Kind → Bool
  | .integer | .string | .identifier => true
  | .keyword .trueKw | .keyword .falseKw | .mark .leftParen => true
  | _ => false

/-- The tokens that an expression can begin with. -/
def opensExpression : Kind → Bool
  | .mark .minus | .mark .bang => true
  | kind => opensPrimary kind

/-- The token that a block begins with. -/
def opensBlock (kind : Kind) : Bool := kind == .mark .leftBrace

/-- The tokens that a statement can begin with. -/
def opensStatement : Kind → Bool
  | .keyword .elseKw => false
  | .keyword _ | .mark .leftBrace => true
  | kind => opensExpression kind

theorem opensExpression_of_opensPrimary {kind : Kind} (h : opensPrimary kind = true) :
    opensExpression kind = true := by
  cases kind with
  | mark m => cases m <;> first | rfl | cases h
  | _ => exact h

theorem opensStatement_of_opensExpression {kind : Kind} (h : opensExpression kind = true) :
    opensStatement kind = true := by
  cases kind with
  | keyword k => cases k <;> first | rfl | cases h
  | mark m => cases m <;> first | rfl | cases h
  | _ => exact h

theorem opensStatement_of_opensBlock {kind : Kind} (h : opensBlock kind = true) :
    opensStatement kind = true := by
  rw [beq_iff_eq.1 h]
  rfl

/-- The first token, which there is, belongs to this set. -/
def Opens (set : Kind → Bool) (ts : List Token) : Prop :=
  ∃ t more, ts = t :: more ∧ set t.kind = true

namespace Opens

variable {set set' : Kind → Bool} {t : Token} {ts : List Token} {kind : Kind}

theorem cons (hk : t.kind = kind) (h : set kind = true) : Opens set (t :: ts) :=
  ⟨t, ts, rfl, hk ▸ h⟩

theorem ne_nil (h : Opens set ts) : ts ≠ [] := by
  obtain ⟨t, more, rfl, -⟩ := h
  exact List.cons_ne_nil t more

theorem mono (h : Opens set ts) (hset : ∀ {kind}, set kind = true → set' kind = true) :
    Opens set' ts := by
  obtain ⟨t, more, rfl, ht⟩ := h
  exact ⟨t, more, rfl, hset ht⟩

/-- The tokens outside of the set are not next. -/
theorem notNext (h : Opens set ts) (hk : set kind = false) : NotNext kind ts := by
  obtain ⟨t, more, rfl, ht⟩ := h
  rintro _ _ ⟨⟩ rfl
  exact Bool.eq_false_iff.1 hk ht

end Opens

theorem Primary.opens {ts rest : List Token} {e : Expr} (h : Primary ts e rest) :
    Opens opensPrimary ts := by
  cases h with
  | integer hk | string hk | true hk | false hk | ident hk | call hk | callWith hk | parens hk =>
    exact .cons hk rfl

theorem Unary.opens {ts rest : List Token} {e : Expr} (h : Unary ts e rest) :
    Opens opensExpression ts := by
  cases h with
  | negative hk | negate hk | not hk => exact .cons hk rfl
  | primary h => exact h.opens.mono opensExpression_of_opensPrimary

theorem Level.opens : ∀ {tables : List Operators} {ts rest : List Token} {e : Expr},
    Level tables ts e rest → Opens opensExpression ts
  | _, _, _, _, .unary h => h.opens
  | _, _, _, _, .joined h _ => h.opens

theorem Arguments.opens {ts rest : List Token} {list : List Expr} (h : Arguments ts list rest) :
    Opens opensExpression ts := by
  cases h with
  | last h | more h => exact h.opens

theorem Params.opens {ts rest : List Token} {list : List Param} (h : Params ts list rest) :
    Opens opensPrimary ts := by
  cases h with
  | last hk | more hk => exact .cons hk rfl

theorem Initializer.notNext {ts rest : List Token} {e : Expr} (h : Initializer ts e rest)
    {kind : Kind} (hk : kind ≠ .mark .equal) : NotNext kind ts := by
  cases h with
  | mk hequal => exact .cons fun h => hk (h.symm.trans hequal)

theorem Braces.opens {ts rest : List Token} {body : Block} (h : Braces ts body rest) :
    Opens opensBlock ts := by
  cases h with
  | mk hk => exact .cons hk rfl

theorem Statement.opens {top : Bool} {ts rest : List Token} {stmt : Stmt}
    (h : Statement top ts stmt rest) : Opens opensStatement ts := by
  cases h with
  | needs hk | declare hk | define hk | infer hk | function hk | ifChain hk | whileLoop hk
  | ret hk | retValue hk | breakLoop hk | continueLoop hk | assign hk => exact .cons hk rfl
  | block h => exact h.opens.mono opensStatement_of_opensBlock
  | expression h => exact h.opens.mono opensStatement_of_opensExpression

/-- No statement goes on with an alternative of the one before it. -/
theorem Statements.notNext_else {top : Bool} {ts rest : List Token} {list : List Stmt}
    (h : Statements top ts list rest) (hrest : NotNext (.keyword .elseKw) rest) :
    NotNext (.keyword .elseKw) ts := by
  cases h with
  | none => exact hrest
  | more h => exact h.opens.notNext rfl

/-- An identifier before an equal sign is an expression of its own, as long as the
equal sign is no operator. -/
theorem Level.before_equal : ∀ {tables : List Operators} {name equal : Token}
    {ts rest : List Token} {e : Expr}, (∀ entry ∈ tables.flatten, entry.1 ≠ .equal) →
    name.kind = .identifier → equal.kind = .mark .equal →
    Level tables (name :: equal :: ts) e rest → rest = equal :: ts
  | _, name, equal, ts, _, _, _, hname, hequal, .unary h => by
    cases h with
    | negative hk | negate hk | not hk => simp [hk] at hname
    | primary h =>
      cases h with
      | ident => rfl
      | call _ hk | callWith _ hk => simp [hk] at hequal
      | integer hk | string hk | true hk | false hk | parens hk => simp [hk] at hname
  | table :: tighter, name, equal, ts, _, _, hno, hname, hequal, .joined h more => by
    obtain rfl := before_equal (fun entry hmem => hno entry (by simp_all)) hname hequal h
    cases more with
    | none => rfl
    | @more _ _ _ _ _ _ mark op _ _ hk hop =>
      obtain rfl : mark = .equal := by simpa [hk] using hequal
      exact absurd rfl (hno (.equal, op) (by simp [hop]))

/-! ## Tokens used up -/

mutual

theorem Level.shrinks : ∀ {tables : List Operators} {ts rest : List Token} {e : Expr},
    Level tables ts e rest → rest.length < ts.length
  | _, _, _, _, .unary h => h.shrinks
  | _, _, _, _, .joined h more => Nat.lt_of_le_of_lt more.shrinks h.shrinks

theorem Operands.shrinks : ∀ {table : Operators} {tighter : List Operators}
    {ts rest : List Token} {more : List (BinaryOp × Expr)},
    Operands table tighter ts more rest → rest.length ≤ ts.length
  | _, _, _, _, _, .none => Nat.le_refl _
  | _, _, _, _, _, .more _ _ right more =>
    Nat.le_succ_of_le (Nat.le_trans more.shrinks (Nat.le_of_lt right.shrinks))

theorem Unary.shrinks : ∀ {ts rest : List Token} {e : Expr},
    Unary ts e rest → rest.length < ts.length
  | _, _, _, .negative .. => by
    simp only [List.length_cons]
    omega
  | _, _, _, .negate _ _ h | _, _, _, .not _ h => Nat.lt_succ_of_lt h.shrinks
  | _, _, _, .primary h => h.shrinks

theorem Primary.shrinks : ∀ {ts rest : List Token} {e : Expr},
    Primary ts e rest → rest.length < ts.length
  | _, _, _, .integer .. | _, _, _, .string .. | _, _, _, .true .. | _, _, _, .false ..
  | _, _, _, .ident .. | _, _, _, .call .. => by
    simp only [List.length_cons]
    omega
  | _, _, _, .callWith _ _ list _ => by
    have := list.shrinks
    simp only [List.length_cons] at *
    omega
  | _, _, _, .parens _ h _ => by
    have := h.shrinks
    simp only [List.length_cons] at *
    omega

theorem Arguments.shrinks : ∀ {ts rest : List Token} {list : List Expr},
    Arguments ts list rest → rest.length < ts.length
  | _, _, _, .last h => h.shrinks
  | _, _, _, .more h _ list => by
    have := h.shrinks
    have := list.shrinks
    simp only [List.length_cons] at *
    omega

end

theorem Params.shrinks {ts rest : List Token} {list : List Param} (h : Params ts list rest) :
    rest.length < ts.length := by
  induction h with
  | last | more => simp only [List.length_cons]; omega

theorem ParamList.shrinks {ts rest : List Token} {list : List Param}
    (h : ParamList ts list rest) : rest.length < ts.length := by
  cases h with
  | none => simp only [List.length_cons]; omega
  | some _ h =>
    have := h.shrinks
    simp only [List.length_cons] at *
    omega

theorem ReturnType.shrinks {ts rest : List Token} {returns : Option Ty}
    (h : ReturnType ts returns rest) : rest.length ≤ ts.length := by
  cases h with
  | none => exact Nat.le_refl _
  | some => simp only [List.length_cons]; omega

theorem Initializer.shrinks {ts rest : List Token} {e : Expr} (h : Initializer ts e rest) :
    rest.length < ts.length := by
  cases h with
  | mk _ h =>
    have := h.shrinks
    simp only [List.length_cons] at *
    omega

mutual

theorem Statement.shrinks : ∀ {top : Bool} {ts rest : List Token} {stmt : Stmt},
    Statement top ts stmt rest → rest.length < ts.length
  | _, _, _, _, .needs .. | _, _, _, _, .declare .. | _, _, _, _, .ret ..
  | _, _, _, _, .breakLoop .. | _, _, _, _, .continueLoop .. => by
    simp only [List.length_cons]
    omega
  | _, _, _, _, .define _ _ _ _ h | _, _, _, _, .infer _ _ h | _, _, _, _, .assign _ h => by
    have := h.shrinks
    simp only [List.length_cons] at *
    omega
  | _, _, _, _, .function _ _ list returns body => by
    have := list.shrinks
    have := returns.shrinks
    have := body.shrinks
    simp only [List.length_cons] at *
    omega
  | _, _, _, _, .ifChain _ guarded alternatives => by
    have := guarded.shrinks
    have := alternatives.shrinks
    simp only [List.length_cons] at *
    omega
  | _, _, _, _, .whileLoop _ guarded => Nat.lt_succ_of_lt guarded.shrinks
  | _, _, _, _, .block body => body.shrinks
  | _, _, _, _, .retValue _ h _ | _, _, _, _, .expression h _ => by
    have := h.shrinks
    simp only [List.length_cons] at *
    omega

theorem Braces.shrinks : ∀ {ts rest : List Token} {body : Block},
    Braces ts body rest → rest.length < ts.length
  | _, _, _, .mk _ list _ => by
    have := list.shrinks
    simp only [List.length_cons] at *
    omega

theorem Guarded.shrinks : ∀ {ts rest : List Token} {test : Expr} {body : Block},
    Guarded ts test body rest → rest.length < ts.length
  | _, _, _, _, .mk _ test _ body => by
    have := test.shrinks
    have := body.shrinks
    simp only [List.length_cons] at *
    omega

theorem Alternatives.shrinks : ∀ {ts rest : List Token} {branches : List Branch}
    {otherwise : Option Block}, Alternatives ts branches otherwise rest →
    rest.length ≤ ts.length
  | _, _, _, _, .none => Nat.le_refl _
  | _, _, _, _, .last _ body => Nat.le_of_lt (Nat.lt_succ_of_lt body.shrinks)
  | _, _, _, _, .more _ _ guarded alternatives => by
    have := guarded.shrinks
    have := alternatives.shrinks
    simp only [List.length_cons] at *
    omega

theorem Statements.shrinks : ∀ {top : Bool} {ts rest : List Token} {list : List Stmt},
    Statements top ts list rest → rest.length ≤ ts.length
  | _, _, _, _, .none => Nat.le_refl _
  | _, _, _, _, .more stmt list => Nat.le_trans list.shrinks (Nat.le_of_lt stmt.shrinks)

end

/-! ## No error nodes -/

mutual

/-- The grammar has no error nodes. -/
theorem Statement.errorFree : ∀ {top : Bool} {ts rest : List Token} {stmt : Stmt},
    Statement top ts stmt rest → stmt.errorFree = true
  | _, _, _, _, .needs .. | _, _, _, _, .declare .. | _, _, _, _, .define ..
  | _, _, _, _, .infer .. | _, _, _, _, .ret .. | _, _, _, _, .retValue ..
  | _, _, _, _, .breakLoop .. | _, _, _, _, .continueLoop .. | _, _, _, _, .assign ..
  | _, _, _, _, .expression .. => by simp [Stmt.errorFree]
  | _, _, _, _, .function _ _ _ _ body => by simp [Stmt.errorFree, body.errorFree]
  | _, _, _, _, .ifChain _ guarded alternatives => by
    obtain ⟨hbranches, hotherwise⟩ := alternatives.errorFree
    simp [Stmt.errorFree, branchesErrorFree, guarded.errorFree, hbranches, hotherwise]
  | _, _, _, _, .whileLoop _ guarded => by simp [Stmt.errorFree, guarded.errorFree]
  | _, _, _, _, .block body => by simp [Stmt.errorFree, body.errorFree]

theorem Braces.errorFree : ∀ {ts rest : List Token} {body : Block},
    Braces ts body rest → body.errorFree = true
  | _, _, _, .mk _ statements _ => by simp [Block.errorFree, statements.errorFree]

theorem Guarded.errorFree : ∀ {ts rest : List Token} {test : Expr} {body : Block},
    Guarded ts test body rest → body.errorFree = true
  | _, _, _, _, .mk _ _ _ body => body.errorFree

theorem Alternatives.errorFree : ∀ {ts rest : List Token} {branches : List Branch}
    {otherwise : Option Block}, Alternatives ts branches otherwise rest →
    branchesErrorFree branches = true ∧ otherwiseErrorFree otherwise = true
  | _, _, _, _, .none => by simp [branchesErrorFree, otherwiseErrorFree]
  | _, _, _, _, .last _ body => by simp [branchesErrorFree, otherwiseErrorFree, body.errorFree]
  | _, _, _, _, .more _ _ guarded alternatives => by
    simp [branchesErrorFree, guarded.errorFree, alternatives.errorFree]

theorem Statements.errorFree : ∀ {top : Bool} {ts rest : List Token} {list : List Stmt},
    Statements top ts list rest → allErrorFree list = true
  | _, _, _, _, .none => by simp [allErrorFree]
  | _, _, _, _, .more stmt list => by simp [allErrorFree, stmt.errorFree, list.errorFree]

end

end Grammar

end Slate
