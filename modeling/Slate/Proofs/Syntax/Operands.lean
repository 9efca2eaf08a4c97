-- SUMMARY: The places where an operand is due, as parts of derivations; an operand that is refused there stops the whole statement.
import Slate.Proofs.Syntax.Completeness.Statement

/-!
# Places of operands

Behind which tokens an operand is due is a matter of the grammar: the derivation of a statement
has come so far, every part before the place is complete, and an operand comes next. It can be
the first of an expression or stand behind an operator, a sign, a parenthesis or the comma after
an argument, and the expression can belong to any statement and to any branch of an `if`. Readers
follow the derivation up to there, so that an operand that is refused is what stops them, at
every level of the expression and of the statement around it.
-/

namespace Slate

namespace Grammar

/-! ## Operands of expressions -/

mutual

/-- In an expression of these levels, an operand is due at `here`. -/
inductive LevelAsks : List Operators → List Token → List Token → Prop where
  | unary {ts here : List Token} : UnaryAsks ts here → LevelAsks [] ts here
  | first {level : Operators} {tighter : List Operators} {ts here : List Token} :
      LevelAsks tighter ts here → LevelAsks (level :: tighter) ts here
  | joined {level : Operators} {tighter : List Operators} {ts mid here : List Token} {e : Expr} :
      Level tighter ts e mid → OperandsAsk level tighter mid here →
      LevelAsks (level :: tighter) ts here

/-- Behind a left operand, an operand is due at `here`. -/
inductive OperandsAsk : Operators → List Operators → List Token → List Token → Prop where
  | right {level : Operators} {tighter : List Operators} {operator : Token}
      {ts here : List Token} {mark : Mark} {op : BinaryOp} :
      operator.kind = .mark mark → (mark, op) ∈ level → LevelAsks tighter ts here →
      OperandsAsk level tighter (operator :: ts) here
  | more {level : Operators} {tighter : List Operators} {operator : Token}
      {ts mid here : List Token} {mark : Mark} {op : BinaryOp} {right : Expr} :
      operator.kind = .mark mark → (mark, op) ∈ level → Level tighter ts right mid →
      OperandsAsk level tighter mid here → OperandsAsk level tighter (operator :: ts) here

/-- In an operand with the signs before it, an operand is due at `here`. A minus before an
integer is no sign but part of the literal. -/
inductive UnaryAsks : List Token → List Token → Prop where
  | here {here : List Token} : UnaryAsks here here
  | negate {minus : Token} {ts here : List Token} : minus.kind = .mark .minus →
      NotNext .integer ts → UnaryAsks ts here → UnaryAsks (minus :: ts) here
  | not {bang : Token} {ts here : List Token} : bang.kind = .mark .bang → UnaryAsks ts here →
      UnaryAsks (bang :: ts) here
  | parens {left : Token} {ts here : List Token} : left.kind = .mark .leftParen →
      LevelAsks levels ts here → UnaryAsks (left :: ts) here
  | argument {name left : Token} {ts here : List Token} : name.kind = .identifier →
      left.kind = .mark .leftParen → ArgumentsAsk ts here → UnaryAsks (name :: left :: ts) here

/-- In the arguments of a call, an operand is due at `here`. -/
inductive ArgumentsAsk : List Token → List Token → Prop where
  | first {ts here : List Token} : LevelAsks levels ts here → ArgumentsAsk ts here
  | more {comma : Token} {ts mid here : List Token} {e : Expr} :
      Expression ts e (comma :: mid) → comma.kind = .mark .comma → ArgumentsAsk mid here →
      ArgumentsAsk ts here

end

/-! ## Operands of statements -/

/-- In the alternatives of an `if`, an operand is due at `here`. -/
inductive AlternativesAsk : List Token → List Token → Prop where
  | guard {word word' left : Token} {ts here : List Token} : word.kind = .keyword .elseKw →
      word'.kind = .keyword .ifKw → left.kind = .mark .leftParen → LevelAsks levels ts here →
      AlternativesAsk (word :: word' :: left :: ts) here
  | more {word word' : Token} {ts mid here : List Token} {test : Expr} {body : Block} :
      word.kind = .keyword .elseKw → word'.kind = .keyword .ifKw → Guarded ts test body mid →
      AlternativesAsk mid here → AlternativesAsk (word :: word' :: ts) here

/-- In a statement, and in none of those inside of it, an operand is due at `here`. -/
inductive StatementAsks : List Token → List Token → Prop where
  | define {word name colon type equal : Token} {ts here : List Token} {ty : Ty} :
      word.kind = .keyword .letKw → name.kind = .identifier → colon.kind = .mark .colon →
      type.kind = .typeName ty → equal.kind = .mark .equal → LevelAsks levels ts here →
      StatementAsks (word :: name :: colon :: type :: equal :: ts) here
  | infer {word name equal : Token} {ts here : List Token} : word.kind = .keyword .letKw →
      name.kind = .identifier → equal.kind = .mark .equal → LevelAsks levels ts here →
      StatementAsks (word :: name :: equal :: ts) here
  | ifChain {word left : Token} {ts here : List Token} : word.kind = .keyword .ifKw →
      left.kind = .mark .leftParen → LevelAsks levels ts here →
      StatementAsks (word :: left :: ts) here
  | elseIf {word : Token} {ts mid here : List Token} {test : Expr} {body : Block} :
      word.kind = .keyword .ifKw → Guarded ts test body mid → AlternativesAsk mid here →
      StatementAsks (word :: ts) here
  | whileLoop {word left : Token} {ts here : List Token} : word.kind = .keyword .whileKw →
      left.kind = .mark .leftParen → LevelAsks levels ts here →
      StatementAsks (word :: left :: ts) here
  | ret {word : Token} {ts here : List Token} : word.kind = .keyword .returnKw →
      LevelAsks levels ts here → StatementAsks (word :: ts) here
  | assign {name equal : Token} {ts here : List Token} : name.kind = .identifier →
      equal.kind = .mark .equal → LevelAsks levels ts here →
      StatementAsks (name :: equal :: ts) here
  | expression {ts here : List Token} : LevelAsks levels ts here → StatementAsks ts here

/-- The tokens begin with an integer literal, with or without the minus that belongs to it. -/
inductive BeginsInteger : List Token → Prop where
  | alone {d : Token} {ts : List Token} : d.kind = .integer → BeginsInteger (d :: ts)
  | behindMinus {minus d : Token} {ts : List Token} : minus.kind = .mark .minus →
      d.kind = .integer → BeginsInteger (minus :: d :: ts)

theorem BeginsInteger.opens {ts : List Token} (h : BeginsInteger ts) :
    Opens opensExpression ts := by
  cases h with
  | alone hk | behindMinus hk => exact .cons hk rfl

/-! ## What asks for an operand -/

variable {tables tighter : List Operators} {table : Operators} {ts mid here : List Token}

mutual

theorem LevelAsks.length_le : ∀ {tables : List Operators} {ts here : List Token},
    LevelAsks tables ts here → here.length ≤ ts.length
  | _, _, _, .unary h => h.length_le
  | _, _, _, .first h => h.length_le
  | _, _, _, .joined h more => more.length_le.trans h.shrinks.le

theorem OperandsAsk.length_le : ∀ {table : Operators} {tighter : List Operators}
    {ts here : List Token}, OperandsAsk table tighter ts here → here.length ≤ ts.length
  | _, _, _, _, .right _ _ h => Nat.le_succ_of_le h.length_le
  | _, _, _, _, .more _ _ h more => Nat.le_succ_of_le (more.length_le.trans h.shrinks.le)

theorem UnaryAsks.length_le : ∀ {ts here : List Token}, UnaryAsks ts here →
    here.length ≤ ts.length
  | _, _, .here => le_rfl
  | _, _, .negate _ _ h | _, _, .not _ h | _, _, .parens _ h => Nat.le_succ_of_le h.length_le
  | _, _, .argument _ _ h => Nat.le_succ_of_le (Nat.le_succ_of_le h.length_le)

theorem ArgumentsAsk.length_le : ∀ {ts here : List Token}, ArgumentsAsk ts here →
    here.length ≤ ts.length
  | _, _, .first h => h.length_le
  | _, _, .more h _ more =>
    more.length_le.trans ((Nat.le_succ _).trans h.shrinks.le)

end

theorem AlternativesAsk.length_le (h : AlternativesAsk ts here) : here.length ≤ ts.length := by
  induction h with
  | guard _ _ _ h =>
    have := h.length_le
    simp only [List.length_cons]
    omega
  | more _ _ h _ ih =>
    have := h.shrinks
    simp only [List.length_cons]
    omega

theorem StatementAsks.length_le (h : StatementAsks ts here) : here.length ≤ ts.length := by
  cases h with
  | expression h => exact h.length_le
  | define _ _ _ _ _ h | infer _ _ _ h | ifChain _ _ h | whileLoop _ _ h | ret _ h
  | assign _ _ h =>
    have := h.length_le
    simp only [List.length_cons]
    omega
  | elseIf _ h more =>
    have := h.shrinks
    have := more.length_le
    simp only [List.length_cons]
    omega

/-- What begins with an operator of its level does not go on with the operand before it. -/
theorem OperandsAsk.stops (h : OperandsAsk table tighter ts here)
    (hsep : Separate (table :: tighter)) : Stops tighter ts := by
  cases h with
  | right hk hop | more hk hop => exact hsep.stops hk hop

theorem UnaryAsks.opens (h : UnaryAsks ts here) (hhere : BeginsInteger here) :
    Opens opensExpression ts := by
  cases h with
  | here => exact hhere.opens
  | negate hk | not hk | parens hk | argument hk => exact .cons hk rfl

theorem LevelAsks.opens : ∀ {tables : List Operators} {ts here : List Token},
    LevelAsks tables ts here → BeginsInteger here → Opens opensExpression ts
  | _, _, _, .unary h, hhere => h.opens hhere
  | _, _, _, .first h, hhere => h.opens hhere
  | _, _, _, .joined h _, _ => h.opens

theorem ArgumentsAsk.opens (h : ArgumentsAsk ts here) (hhere : BeginsInteger here) :
    Opens opensExpression ts := by
  cases h with
  | first h => exact h.opens hhere
  | more h => exact h.opens

theorem StatementAsks.opens (h : StatementAsks ts here) (hhere : BeginsInteger here) :
    Opens opensStatement ts := by
  cases h with
  | define hk | infer hk | ifChain hk | elseIf hk | whileLoop hk | ret hk | assign hk =>
    exact .cons hk rfl
  | expression h => exact (h.opens hhere).mono opensStatement_of_opensExpression

/-- No expression that asks for an operand begins as an assignment does. -/
theorem LevelAsks.not_equal : ∀ {tables : List Operators} {name equal : Token}
    {ts here : List Token}, (∀ entry ∈ tables.flatten, entry.1 ≠ .equal) →
    LevelAsks tables (name :: equal :: ts) here → BeginsInteger here →
    name.kind = .identifier → equal.kind ≠ .mark .equal
  | _, name, equal, _, _, _, .unary h, hhere, hname => by
    cases h with
    | here =>
      cases hhere with
      | alone hk | behindMinus hk => simp [hk] at hname
    | negate hk | not hk | parens hk => simp [hk] at hname
    | argument _ hk => simp [hk]
  | _, _, _, _, _, hno, .first h, hhere, hname =>
    h.not_equal (fun entry hmem => hno entry (by simp_all)) hhere hname
  | _, name, equal, ts, _, hno, .joined h more, _, hname => by
    intro hequal
    obtain rfl := h.before_equal (fun entry hmem => hno entry (by simp_all)) hname hequal
    cases more with
    | @right _ _ _ _ _ mark op hk hop | @more _ _ _ _ _ _ mark op _ hk hop =>
      obtain rfl : mark = .equal := by simpa [hk] using hequal
      exact hno (.equal, op) (by simp [hop]) rfl

end Grammar

namespace Parser

open Grammar

variable {budget depth : Nat} {ts mid here : List Token} {last : Token} {failure : Failure}
variable {s₁ : State}

/-! ## Operands that are refused -/

/-- At an integer literal, the reader of operands fails. -/
structure RefusedAt (here : List Token) (last : Token) (depth : Nat) (failure : Failure)
    (s₁ : State) : Prop where
  begins : BeginsInteger here
  operand : ∀ budget, 2 ≤ budget → unary budget ⟨here, last, depth⟩ = .error failure s₁

/-- What is no minus in front of an integer is read by its first token. -/
theorem unary_of_not_minus (h : NotNext (.mark .minus) ts) (hbang : NotNext (.mark .bang) ts) :
    unary (budget + 1) ⟨ts, last, depth⟩ = primary budget ⟨ts, last, depth⟩ := by
  rw [unary, get_bind_apply, not_sees_iff.2 h, Bool.false_and, if_neg Bool.false_ne_true]
  refine bind_of_ok (acceptOperator?_none.2 ⟨?_, rfl⟩)
  simp [unaryOperators, h, hbang]

theorem unary_of_sign {sign : Token} {mark : Mark} {op : UnaryOp} (hk : sign.kind = .mark mark)
    (hop : (mark, op) ∈ unaryOperators) (h : mark = .minus → NotNext .integer ts) :
    unary (budget + 1) ⟨sign :: ts, last, depth⟩ =
      (unary budget >>= fun operand => pure (.unary op operand (sign.span.merge operand.span)))
      ⟨ts, last, depth⟩ := by
  have hcond : ¬ (State.sees ⟨sign :: ts, last, depth⟩ (.mark .minus) &&
      State.seesSecond ⟨sign :: ts, last, depth⟩ .integer) = true := by
    rw [Bool.and_eq_true_iff, sees_cons, seesSecond_iff, hk]
    rintro ⟨hminus, _, digits, more, ⟨⟩, hdigits⟩
    exact h (by simpa using hminus) digits more rfl hdigits
  rw [unary, get_bind_apply, if_neg hcond]
  exact bind_of_ok (acceptOperator?_of_mem (by decide) hop hk)

namespace RefusedAt

mutual

/-- The failure of an operand is that of the expressions around it. -/
theorem binary {budget : Nat} (hrefused : RefusedAt here last depth failure s₁) :
    ∀ {tables : List Operators} {ts : List Token}, LevelAsks tables ts here → Separate tables →
      16 * ts.length + tables.length + 3 ≤ 16 * here.length + budget →
      Parser.binary budget tables ⟨ts, last, depth⟩ = .error failure s₁
  | _, _, .unary h, _, hb => by
    have := h.length_le
    obtain ⟨budget, rfl⟩ : ∃ b, budget = b + 1 := ⟨budget - 1, by omega⟩
    exact hrefused.unary h (by simp only [List.length_nil] at hb; omega)
  | _, _, .first h, hsep, hb => by
    have := h.length_le
    obtain ⟨budget, rfl⟩ : ∃ b, budget = b + 1 := ⟨budget - 1, by omega⟩
    rw [List.length_cons] at hb
    rw [Parser.binary, bind_of_error (hrefused.binary h hsep.tail (by omega))]
  | _, _, .joined h more, hsep, hb => by
    have := h.shrinks
    have := more.length_le
    obtain ⟨budget, rfl⟩ : ∃ b, budget = b + 1 := ⟨budget - 1, by omega⟩
    rw [List.length_cons] at hb
    rw [Parser.binary, bind_of_ok ((completeExpressions budget).binary h hsep.tail
      (more.stops hsep) (by omega)), hrefused.operators more hsep (by omega)]

theorem operators {budget : Nat} (hrefused : RefusedAt here last depth failure s₁) :
    ∀ {table : Operators} {tighter : List Operators} {ts : List Token} {left : Expr},
      OperandsAsk table tighter ts here → Separate (table :: tighter) →
      16 * ts.length + 1 ≤ 16 * here.length + budget →
      Parser.operators budget table tighter left ⟨ts, last, depth⟩ = .error failure s₁
  | _, _, _, _, .right hk hop h, hsep, hb => by
    have := h.length_le
    have := hsep.few
    simp only [List.length_cons] at *
    obtain ⟨budget, rfl⟩ : ∃ b, budget = b + 1 := ⟨budget - 1, by omega⟩
    rw [Parser.operators, bind_of_ok (acceptOperator?_of_mem hsep.head hop hk)]
    exact bind_of_error (hrefused.binary h hsep.tail (by omega))
  | _, _, _, _, .more hk hop h more, hsep, hb => by
    have := h.shrinks
    have := more.length_le
    have := hsep.few
    simp only [List.length_cons] at *
    obtain ⟨budget, rfl⟩ : ∃ b, budget = b + 1 := ⟨budget - 1, by omega⟩
    rw [Parser.operators, bind_of_ok (acceptOperator?_of_mem hsep.head hop hk)]
    dsimp only
    rw [bind_of_ok ((completeExpressions budget).binary h hsep.tail (more.stops hsep) (by omega)),
      hrefused.operators more hsep (by omega)]

theorem unary {budget : Nat} (hrefused : RefusedAt here last depth failure s₁) :
    ∀ {ts : List Token}, UnaryAsks ts here → 16 * ts.length + 2 ≤ 16 * here.length + budget →
      Parser.unary budget ⟨ts, last, depth⟩ = .error failure s₁
  | _, .here, hb => hrefused.operand budget (by omega)
  | _, .negate hk hnot h, hb => by
    have := h.length_le
    rw [List.length_cons] at hb
    obtain ⟨budget, rfl⟩ : ∃ b, budget = b + 1 := ⟨budget - 1, by omega⟩
    have hop : (Mark.minus, UnaryOp.negate) ∈ unaryOperators := by decide
    rw [unary_of_sign hk hop fun _ => hnot, bind_of_error (hrefused.unary h (by omega))]
  | _, .not hk h, hb => by
    have := h.length_le
    rw [List.length_cons] at hb
    obtain ⟨budget, rfl⟩ : ∃ b, budget = b + 1 := ⟨budget - 1, by omega⟩
    have hop : (Mark.bang, UnaryOp.not) ∈ unaryOperators := by decide
    rw [unary_of_sign hk hop nofun, bind_of_error (hrefused.unary h (by omega))]
  | _, .parens hk h, hb => by
    have := h.length_le
    rw [List.length_cons] at hb
    obtain ⟨budget, rfl⟩ : ∃ b, budget = b + 3 := ⟨budget - 3, by omega⟩
    rw [unary_of_not_minus (.cons (by simp [hk])) (.cons (by simp [hk])), primary,
      get_bind_apply]
    simp only [State.view, List.headD_cons, hk]
    rw [bind_of_ok advance_cons, Parser.expression]
    exact bind_of_error (hrefused.binary h separate_levels
      (by rw [show precedence.length = 6 from rfl]; omega))
  | _, .argument hname hleft h, hb => by
    have := h.length_le
    have hright : NotNext (.mark .rightParen) _ := (h.opens hrefused.begins).notNext rfl
    simp only [List.length_cons] at hb
    obtain ⟨budget, rfl⟩ : ∃ b, budget = b + 3 := ⟨budget - 3, by omega⟩
    rw [unary_of_not_minus (.cons (by simp [hname])) (.cons (by simp [hname])), primary,
      get_bind_apply]
    simp only [State.view, List.headD_cons, hname]
    rw [bind_of_ok (expectIdentifier_cons hname), get_bind_apply, if_pos (sees_cons.2 hleft), call,
      bind_of_ok (expect_cons hleft), get_bind_apply, not_sees_iff.2 hright,
      if_neg Bool.false_ne_true]
    exact bind_of_error (hrefused.arguments h (by omega))

theorem arguments {budget : Nat} (hrefused : RefusedAt here last depth failure s₁) :
    ∀ {ts : List Token}, ArgumentsAsk ts here →
      16 * ts.length + 11 ≤ 16 * here.length + budget →
      Parser.arguments budget ⟨ts, last, depth⟩ = .error failure s₁
  | _, .first h, hb => by
    have := h.length_le
    obtain ⟨budget, rfl⟩ : ∃ b, budget = b + 2 := ⟨budget - 2, by omega⟩
    rw [Parser.arguments, Parser.expression]
    exact bind_of_error (hrefused.binary h separate_levels
      (by rw [show precedence.length = 6 from rfl]; omega))
  | _, .more h hk more, hb => by
    have := h.shrinks
    have := more.length_le
    rw [List.length_cons] at *
    obtain ⟨budget, rfl⟩ : ∃ b, budget = b + 1 := ⟨budget - 1, by omega⟩
    rw [Parser.arguments, bind_of_ok ((completeExpressions budget).expression_before h hk (by simp)
      (by omega)), bind_of_ok (accept?_cons hk)]
    exact bind_of_error (hrefused.arguments more (by omega))

end

variable (hrefused : RefusedAt here last depth failure s₁)
include hrefused

theorem expression (h : LevelAsks levels ts here)
    (hb : 16 * ts.length + 10 ≤ 16 * here.length + budget) :
    Parser.expression budget ⟨ts, last, depth⟩ = .error failure s₁ := by
  have := h.length_le
  obtain ⟨budget, rfl⟩ : ∃ b, budget = b + 1 := ⟨budget - 1, by omega⟩
  exact hrefused.binary h separate_levels
    (by rw [show precedence.length = 6 from rfl]; omega)

/-! ## Statements with such an operand -/

theorem initializer {equal : Token} (hk : equal.kind = .mark .equal) (h : LevelAsks levels ts here)
    (hb : 16 * ts.length + 10 ≤ 16 * here.length + budget) :
    Parser.initializer budget ⟨equal :: ts, last, depth⟩ = .error failure s₁ := by
  rw [Parser.initializer, bind_of_ok (expect_cons hk),
    bind_of_error (hrefused.expression h hb)]

theorem guarded {left : Token} (hk : left.kind = .mark .leftParen) (h : LevelAsks levels ts here)
    (hb : 16 * ts.length + 11 ≤ 16 * here.length + budget) :
    Parser.guarded budget ⟨left :: ts, last, depth⟩ = .error failure s₁ := by
  have := h.length_le
  obtain ⟨budget, rfl⟩ : ∃ b, budget = b + 1 := ⟨budget - 1, by omega⟩
  rw [Parser.guarded, bind_of_ok (expect_cons hk),
    bind_of_error (hrefused.expression h (by omega))]

theorem elseBranches (h : AlternativesAsk ts here)
    (hb : 16 * ts.length + 1 ≤ 16 * here.length + budget) :
    Parser.elseBranches budget ⟨ts, last, depth⟩ = .error failure s₁ := by
  induction h generalizing budget with
  | guard hword hword' hleft h =>
    have := h.length_le
    simp only [List.length_cons] at hb
    obtain ⟨budget, rfl⟩ : ∃ b, budget = b + 1 := ⟨budget - 1, by omega⟩
    rw [Parser.elseBranches, bind_of_ok (accept?_cons hword)]
    dsimp only
    rw [bind_of_ok (accept?_cons hword')]
    exact bind_of_error (hrefused.guarded hleft h (by omega))
  | more hword hword' h more ih =>
    have := h.shrinks
    have := more.length_le
    simp only [List.length_cons] at hb
    obtain ⟨budget, rfl⟩ : ∃ b, budget = b + 1 := ⟨budget - 1, by omega⟩
    rw [Parser.elseBranches, bind_of_ok (accept?_cons hword)]
    dsimp only
    rw [bind_of_ok (accept?_cons hword')]
    dsimp only
    rw [bind_of_ok ((completeStatements budget).guarded h (by omega))]
    exact bind_of_error (ih hrefused (by omega))

theorem assignmentOrExpression (h : LevelAsks levels ts here)
    (hb : 16 * ts.length + 10 ≤ 16 * here.length + budget) :
    Parser.assignmentOrExpression budget ⟨ts, last, depth⟩ = .error failure s₁ := by
  have hcond : ¬ (State.sees ⟨ts, last, depth⟩ .identifier &&
      State.seesSecond ⟨ts, last, depth⟩ (.mark .equal)) = true := by
    rw [Bool.and_eq_true_iff, seesSecond_iff]
    rintro ⟨hname, name, equal, more, rfl, hequal⟩
    exact h.not_equal (by decide) hrefused.begins (sees_cons.1 hname) hequal
  rw [Parser.assignmentOrExpression, get_bind_apply, if_neg hcond,
    bind_of_error (hrefused.expression h hb)]

/-- The failure of an operand is that of the statement around it. -/
theorem strictStatement (h : StatementAsks ts here)
    (hb : 16 * ts.length + 12 ≤ 16 * here.length + budget) :
    Parser.strictStatement budget ⟨ts, last, depth⟩ = .error failure s₁ := by
  have := h.length_le
  obtain ⟨budget, rfl⟩ : ∃ b, budget = b + 1 := ⟨budget - 1, by omega⟩
  cases h with
  | @define word name colon type equal ts _ ty hword hname hcolon htype hequal h =>
    have hsemicolon : NotNext (.mark .semicolon) (equal :: ts) := .cons (by simp [hequal])
    simp only [List.length_cons] at hb
    rw [Parser.strictStatement, get_bind_apply, State.view, List.headD_cons, hword]
    dsimp only
    rw [declaration, bind_of_ok (expect_cons hword), bind_of_ok (expectIdentifier_cons hname)]
    dsimp only
    rw [bind_of_ok (accept?_cons hcolon)]
    dsimp only
    rw [bind_of_ok (expectType_cons htype), bind_of_ok (accept?_none hsemicolon)]
    exact bind_of_error (hrefused.initializer hequal h (by omega))
  | @infer word name equal ts _ hword hname hequal h =>
    have hcolon : NotNext (.mark .colon) (equal :: ts) := .cons (by simp [hequal])
    simp only [List.length_cons] at hb
    rw [Parser.strictStatement, get_bind_apply, State.view, List.headD_cons, hword]
    dsimp only
    rw [declaration, bind_of_ok (expect_cons hword), bind_of_ok (expectIdentifier_cons hname)]
    dsimp only
    rw [bind_of_ok (accept?_none hcolon)]
    exact bind_of_error (hrefused.initializer hequal h (by omega))
  | ifChain hword hleft h =>
    have := h.length_le
    simp only [List.length_cons] at hb
    obtain ⟨budget, rfl⟩ : ∃ b, budget = b + 1 := ⟨budget - 1, by omega⟩
    rw [Parser.strictStatement, get_bind_apply, State.view, List.headD_cons, hword]
    dsimp only
    rw [ifChain, bind_of_ok (expect_cons hword),
      bind_of_error (hrefused.guarded hleft h (by omega))]
  | elseIf hword h more =>
    have := h.shrinks
    have := more.length_le
    simp only [List.length_cons] at hb
    obtain ⟨budget, rfl⟩ : ∃ b, budget = b + 1 := ⟨budget - 1, by omega⟩
    rw [Parser.strictStatement, get_bind_apply, State.view, List.headD_cons, hword]
    dsimp only
    rw [ifChain, bind_of_ok (expect_cons hword),
      bind_of_ok ((completeStatements budget).guarded h (by omega))]
    exact bind_of_error (hrefused.elseBranches more (by omega))
  | whileLoop hword hleft h =>
    simp only [List.length_cons] at hb
    rw [Parser.strictStatement, get_bind_apply, State.view, List.headD_cons, hword]
    dsimp only
    rw [bind_of_ok (expect_cons hword), bind_of_error (hrefused.guarded hleft h (by omega))]
  | ret hword h =>
    have hsemicolon : NotNext (.mark .semicolon) _ := (h.opens hrefused.begins).notNext rfl
    simp only [List.length_cons] at hb
    rw [Parser.strictStatement, get_bind_apply, State.view, List.headD_cons, hword]
    dsimp only
    rw [Parser.ret, bind_of_ok (expect_cons hword), get_bind_apply, not_sees_iff.2 hsemicolon,
      if_neg Bool.false_ne_true, map_eq_pure_bind, bind_assoc,
      bind_of_error (hrefused.expression h (by omega))]
  | @assign name equal ts _ hname hequal h =>
    have hcond : (State.sees ⟨name :: equal :: ts, last, depth⟩ .identifier &&
        State.seesSecond ⟨name :: equal :: ts, last, depth⟩ (.mark .equal)) = true :=
      Bool.and_eq_true_iff.2 ⟨sees_cons.2 hname, seesSecond_iff.2 ⟨_, _, _, rfl, hequal⟩⟩
    simp only [List.length_cons] at hb
    rw [strictStatement_of_opens (.cons hname rfl), Parser.assignmentOrExpression, get_bind_apply,
      if_pos hcond, bind_of_ok (expectIdentifier_cons hname)]
    exact bind_of_error (hrefused.initializer hequal h (by omega))
  | expression h =>
    rw [strictStatement_of_opens (h.opens hrefused.begins)]
    exact hrefused.assignmentOrExpression h (by omega)

end RefusedAt

end Parser

end Slate
