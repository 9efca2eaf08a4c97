-- SUMMARY: An expression that derives from the grammar is read as the tree of its derivation.
import Slate.Proofs.Syntax.Derivation
import Slate.Proofs.Syntax.Tokens

/-!
# Completeness of reading expressions

The grammar says which tokens an expression may end before, the reader takes as
many as it can. The two agree where the next token would not go on with the
expression: it is no operator of the levels in question and does not open an
argument list. Then the reader, given sixteen units of budget for each token and
a few for the way down to an operand, arrives at the tree of the derivation.
-/

namespace Slate

namespace Grammar

/-! ## Levels of operators -/

/-- No mark stands for two operators or for anything else behind an operand, and
there are few levels. -/
structure Separate (tables : List Operators) : Prop where
  few : tables.length ≤ 6
  nodup : (tables.flatten.map Prod.fst).Nodup
  paren : ∀ entry ∈ tables.flatten, entry.1 ≠ .leftParen

theorem separate_levels : Separate levels where
  few := by decide
  nodup := by decide
  paren := by decide

/-- The next token does not go on with an expression of these levels. -/
structure Stops (tables : List Operators) (ts : List Token) : Prop where
  operator : ∀ entry ∈ tables.flatten, NotNext (.mark entry.1) ts
  paren : NotNext (.mark .leftParen) ts

namespace Separate

variable {table : Operators} {tighter : List Operators}

theorem tail (h : Separate (table :: tighter)) : Separate tighter where
  few := Nat.le_of_succ_le h.few
  nodup := by
    have hnodup := h.nodup
    rw [List.flatten_cons, List.map_append] at hnodup
    exact (List.nodup_append.1 hnodup).2.1
  paren := fun entry hmem => h.paren entry (by simp_all)

theorem head (h : Separate (table :: tighter)) : (table.map Prod.fst).Nodup := by
  have hnodup := h.nodup
  rw [List.flatten_cons, List.map_append] at hnodup
  exact (List.nodup_append.1 hnodup).1

/-- An operator does not go on with an operand of its level. -/
theorem stops (h : Separate (table :: tighter)) {operator : Token} {ts : List Token} {mark : Mark}
    {op : BinaryOp} (hk : operator.kind = .mark mark) (hop : (mark, op) ∈ table) :
    Stops tighter (operator :: ts) where
  operator := by
    rintro entry hmem
    refine .cons ?_
    rw [hk]
    rintro ⟨⟩
    have hnodup := h.nodup
    rw [List.flatten_cons, List.map_append] at hnodup
    exact (List.nodup_append.1 hnodup).2.2 _ (List.mem_map_of_mem hop) _
      (List.mem_map_of_mem hmem) rfl
  paren := by
    refine .cons ?_
    rw [hk]
    rintro ⟨⟩
    exact h.paren _ (List.mem_append_left _ hop) rfl

end Separate

theorem Stops.tail {table : Operators} {tighter : List Operators} {ts : List Token}
    (h : Stops (table :: tighter) ts) : Stops tighter ts where
  operator := fun entry hmem => h.operator entry (by simp_all)
  paren := h.paren

theorem Stops.head {table : Operators} {tighter : List Operators} {ts : List Token}
    (h : Stops (table :: tighter) ts) : ∀ entry ∈ table, NotNext (.mark entry.1) ts :=
  fun entry hmem => h.operator entry (List.mem_append_left _ hmem)

/-- What follows an operand, be it an operator of its level or what follows them
all, does not go on with it. -/
theorem Operands.stops {table : Operators} {tighter : List Operators} {ts rest : List Token}
    {more : List (BinaryOp × Expr)} (h : Operands table tighter ts more rest)
    (hsep : Separate (table :: tighter)) (hstop : Stops (table :: tighter) rest) :
    Stops tighter ts := by
  cases h with
  | none => exact hstop.tail
  | more hk hop => exact hsep.stops hk hop

/-- A mark that closes an expression does not go on with it. -/
theorem stops_of_mark {t : Token} {ts : List Token} {mark : Mark} (hk : t.kind = .mark mark)
    (h : mark = .semicolon ∨ mark = .rightParen ∨ mark = .comma) : Stops levels (t :: ts) where
  operator := by
    have hno : ∀ entry ∈ levels.flatten, entry.1 ≠ mark := by
      rcases h with rfl | rfl | rfl <;> decide
    intro entry hmem
    refine .cons fun hk' => hno entry hmem ?_
    simpa [hk] using hk'.symm
  paren := by
    refine .cons fun hk' => ?_
    rcases h with rfl | rfl | rfl <;> simp [hk] at hk'

end Grammar

namespace Parser

open Grammar

variable {budget depth : Nat} {ts rest : List Token} {t last : Token} {e : Expr}

/-! ## One step of the descent -/

/-- The readers of expressions are complete with this budget: sixteen units for each
token that is used up, and as many as there are calls down to the first of them. -/
structure CompleteExpressions (budget : Nat) : Prop where
  expression : ∀ {ts rest e last depth}, Expression ts e rest → Stops levels rest →
    16 * ts.length + 10 ≤ 16 * rest.length + budget →
    expression budget ⟨ts, last, depth⟩ = .ok e ⟨rest, last, depth⟩
  binary : ∀ {tables ts rest e last depth}, Level tables ts e rest → Separate tables →
    Stops tables rest → 16 * ts.length + tables.length + 3 ≤ 16 * rest.length + budget →
    binary budget tables ⟨ts, last, depth⟩ = .ok e ⟨rest, last, depth⟩
  operators : ∀ {table tighter ts rest left more last depth},
    Operands table tighter ts more rest → Separate (table :: tighter) →
    Stops (table :: tighter) rest → 16 * ts.length + 1 ≤ 16 * rest.length + budget →
    operators budget table tighter left ⟨ts, last, depth⟩ =
      .ok (joinAll left more) ⟨rest, last, depth⟩
  unary : ∀ {ts rest e last depth}, Unary ts e rest → NotNext (.mark .leftParen) rest →
    16 * ts.length + 2 ≤ 16 * rest.length + budget →
    unary budget ⟨ts, last, depth⟩ = .ok e ⟨rest, last, depth⟩
  primary : ∀ {ts rest e last depth}, Primary ts e rest → NotNext (.mark .leftParen) rest →
    16 * ts.length + 1 ≤ 16 * rest.length + budget →
    primary budget ⟨ts, last, depth⟩ = .ok e ⟨rest, last, depth⟩
  call : ∀ {name start left right ts rest list last depth}, left.kind = .mark .leftParen →
    list = [] ∧ ts = right :: rest ∨ Arguments ts list (right :: rest) →
    right.kind = .mark .rightParen → 16 * ts.length + 1 ≤ 16 * rest.length + budget →
    call budget name start ⟨left :: ts, last, depth⟩ =
      .ok (.call name list (start.merge right.span)) ⟨rest, last, depth⟩
  arguments : ∀ {ts right rest list last depth}, Arguments ts list (right :: rest) →
    right.kind = .mark .rightParen → 16 * ts.length ≤ 16 * rest.length + 5 + budget →
    arguments budget ⟨ts, last, depth⟩ = .ok list ⟨right :: rest, last, depth⟩

namespace CompleteExpressions

theorem zero : CompleteExpressions 0 where
  expression h _ hb := by have := h.shrinks; omega
  binary h _ _ hb := by have := h.shrinks; omega
  operators h _ _ hb := by have := h.shrinks; omega
  unary h _ hb := by have := h.shrinks; omega
  primary h _ hb := by have := h.shrinks; omega
  call _ h _ hb := by
    obtain ⟨-, rfl⟩ | h := h
    · simp only [List.length_cons] at hb
      omega
    · have := h.shrinks
      simp only [List.length_cons] at this
      omega
  arguments h _ hb := by
    have := h.shrinks
    simp only [List.length_cons] at this
    omega

variable (ih : CompleteExpressions budget)
include ih

/-- An expression is read up to the mark that closes it. -/
theorem expression_before {mark : Mark} (h : Expression ts e (t :: rest))
    (hk : t.kind = .mark mark) (hm : mark = .semicolon ∨ mark = .rightParen ∨ mark = .comma)
    (hb : 16 * ts.length ≤ 16 * rest.length + 6 + budget) :
    Parser.expression budget ⟨ts, last, depth⟩ = .ok e ⟨t :: rest, last, depth⟩ := by
  refine ih.expression h (stops_of_mark hk hm) ?_
  simp only [List.length_cons]
  omega

theorem expression_succ (h : Expression ts e rest) (hstop : Stops levels rest)
    (hb : 16 * ts.length + 10 ≤ 16 * rest.length + (budget + 1)) :
    Parser.expression (budget + 1) ⟨ts, last, depth⟩ = .ok e ⟨rest, last, depth⟩ := by
  rw [Parser.expression]
  refine ih.binary h separate_levels hstop ?_
  change 16 * ts.length + 6 + 3 ≤ _
  omega

theorem binary_succ {tables : List Operators} (h : Level tables ts e rest)
    (hsep : Separate tables) (hstop : Stops tables rest)
    (hb : 16 * ts.length + tables.length + 3 ≤ 16 * rest.length + (budget + 1)) :
    Parser.binary (budget + 1) tables ⟨ts, last, depth⟩ = .ok e ⟨rest, last, depth⟩ := by
  cases h with
  | unary h =>
    rw [Parser.binary]
    exact ih.unary h hstop.paren (by simp only [List.length] at hb; omega)
  | joined hleft hmore =>
    -- the operand ends where its own level does, before an operator of this one or behind all
    have := hleft.shrinks
    have := hmore.shrinks
    simp only [List.length_cons] at hb
    rw [Parser.binary, bind_ok]
    exact ⟨_, _, ih.binary hleft hsep.tail (hmore.stops hsep hstop) (by omega),
      ih.operators hmore hsep hstop (by omega)⟩

theorem operators_succ {table : Operators} {tighter : List Operators} {left : Expr}
    {more : List (BinaryOp × Expr)} (h : Operands table tighter ts more rest)
    (hsep : Separate (table :: tighter)) (hstop : Stops (table :: tighter) rest)
    (hb : 16 * ts.length + 1 ≤ 16 * rest.length + (budget + 1)) :
    Parser.operators (budget + 1) table tighter left ⟨ts, last, depth⟩ =
      .ok (joinAll left more) ⟨rest, last, depth⟩ := by
  rw [Parser.operators, bind_ok]
  cases h with
  | none => exact ⟨none, _, acceptOperator?_none.2 ⟨hstop.head, rfl⟩, rfl⟩
  | @more _ _ operator ts mid _ mark op right more hk hop hright hmore =>
    have := hsep.few
    have := hright.shrinks
    have := hmore.shrinks
    simp only [List.length_cons] at *
    refine ⟨some (op, operator.span), _, acceptOperator?_of_mem hsep.head hop hk, ?_⟩
    exact bind_ok.2 ⟨right, _, ih.binary hright hsep.tail (hmore.stops hsep hstop) (by omega),
      ih.operators hmore hsep hstop (by omega)⟩

theorem unary_succ (h : Unary ts e rest) (hstop : NotNext (.mark .leftParen) rest)
    (hb : 16 * ts.length + 2 ≤ 16 * rest.length + (budget + 1)) :
    Parser.unary (budget + 1) ⟨ts, last, depth⟩ = .ok e ⟨rest, last, depth⟩ := by
  have hnodup : (unaryOperators.map Prod.fst).Nodup := by decide
  rw [Parser.unary, get_bind_ok]
  cases h with
  | @negative minus digits rest n hminus hdigits hn hbound =>
    have hcond : (State.sees ⟨minus :: digits :: rest, last, depth⟩ (.mark .minus) &&
        State.seesSecond ⟨minus :: digits :: rest, last, depth⟩ .integer) = true :=
      Bool.and_eq_true_iff.2 ⟨sees_cons.2 hminus, seesSecond_iff.2 ⟨_, _, _, rfl, hdigits⟩⟩
    rw [if_pos hcond, bind_ok]
    exact ⟨_, _, advance_cons,
      (integerLiteral_ok hn.nonempty hn.digits).2 ⟨n, hn, hbound, rfl, rfl⟩⟩
  | @negate minus ts _ operand hminus hnot hoperand =>
    have hcond : ¬ (State.sees ⟨minus :: ts, last, depth⟩ (.mark .minus) &&
        State.seesSecond ⟨minus :: ts, last, depth⟩ .integer) = true := by
      rw [Bool.and_eq_true_iff, seesSecond_iff]
      rintro ⟨-, _, digits, more, ⟨⟩, hdigits⟩
      exact hnot digits more rfl hdigits
    rw [if_neg hcond, bind_ok]
    refine ⟨some (.negate, minus.span), _, acceptOperator?_of_mem hnodup (by decide) hminus, ?_⟩
    simp only [List.length_cons] at hb
    exact bind_ok.2 ⟨operand, _, ih.unary hoperand hstop (by omega), rfl⟩
  | @not bang ts _ operand hbang hoperand =>
    have hcond : ¬ (State.sees ⟨bang :: ts, last, depth⟩ (.mark .minus) &&
        State.seesSecond ⟨bang :: ts, last, depth⟩ .integer) = true := by
      rw [Bool.and_eq_true_iff, sees_cons, hbang]
      simp
    rw [if_neg hcond, bind_ok]
    refine ⟨some (.not, bang.span), _, acceptOperator?_of_mem hnodup (by decide) hbang, ?_⟩
    simp only [List.length_cons] at hb
    exact bind_ok.2 ⟨operand, _, ih.unary hoperand hstop (by omega), rfl⟩
  | primary h =>
    have hminus : NotNext (.mark .minus) ts := h.opens.notNext rfl
    have hbang : NotNext (.mark .bang) ts := h.opens.notNext rfl
    have hcond : ¬ (State.sees ⟨ts, last, depth⟩ (.mark .minus) &&
        State.seesSecond ⟨ts, last, depth⟩ .integer) = true := by
      rw [Bool.and_eq_true_iff, not_sees_iff.2 hminus]
      simp
    rw [if_neg hcond, bind_ok]
    refine ⟨none, _, acceptOperator?_none.2 ⟨?_, rfl⟩, ih.primary h hstop (by omega)⟩
    simp [unaryOperators, hminus, hbang]

/-- Reading a literal or a name goes by the token in view. -/
theorem primary_succ (h : Primary ts e rest) (hstop : NotNext (.mark .leftParen) rest)
    (hb : 16 * ts.length + 1 ≤ 16 * rest.length + (budget + 1)) :
    Parser.primary (budget + 1) ⟨ts, last, depth⟩ = .ok e ⟨rest, last, depth⟩ := by
  rw [Parser.primary, get_bind_ok]
  simp only [State.view]
  cases h with
  | @integer digits _ n hk hn hbound =>
    rw [List.headD_cons, hk]
    refine (integerLiteral_ok hn.nonempty hn.digits).2 ⟨n, hn, hbound, ?_, rfl⟩
    rw [Span.merge_self]
    rfl
  | @string quoted _ value hk hv =>
    rw [List.headD_cons, hk]
    exact (stringLiteral_ok (hv.imp fun _ h => h.1)).2 ⟨value, hv, rfl, rfl⟩
  | «true» hk => rw [List.headD_cons, hk]; rfl
  | «false» hk => rw [List.headD_cons, hk]; rfl
  | @ident name _ hk =>
    rw [List.headD_cons, hk]
    refine bind_ok.2 ⟨(name.text, name.span), _, expectIdentifier_cons hk, ?_⟩
    rw [get_bind_ok, not_sees_iff.2 hstop]
    rfl
  | @call name left right _ hk hleft hright =>
    rw [List.headD_cons, hk]
    refine bind_ok.2 ⟨(name.text, name.span), _, expectIdentifier_cons hk, ?_⟩
    rw [get_bind_ok, if_pos (sees_cons.2 hleft)]
    simp only [List.length_cons] at hb
    exact ih.call hleft (.inl ⟨rfl, rfl⟩) hright (by simp only [List.length_cons]; omega)
  | @callWith name left right ts _ list hk hleft hlist hright =>
    rw [List.headD_cons, hk]
    refine bind_ok.2 ⟨(name.text, name.span), _, expectIdentifier_cons hk, ?_⟩
    rw [get_bind_ok, if_pos (sees_cons.2 hleft)]
    simp only [List.length_cons] at hb
    exact ih.call hleft (.inr hlist) hright (by omega)
  | @parens left right ts _ e hk he hright =>
    rw [List.headD_cons, hk]
    simp only [List.length_cons] at hb
    refine bind_ok.2 ⟨_, _, advance_cons, ?_⟩
    refine bind_ok.2 ⟨e, _, ih.expression_before he hright (by simp) (by omega), ?_⟩
    exact bind_ok.2 ⟨_, _, expect_cons hright, rfl⟩

theorem call_succ {name : String} {start : Span} {left right : Token} {list : List Expr}
    (hleft : left.kind = .mark .leftParen)
    (h : list = [] ∧ ts = right :: rest ∨ Arguments ts list (right :: rest))
    (hright : right.kind = .mark .rightParen)
    (hb : 16 * ts.length + 1 ≤ 16 * rest.length + (budget + 1)) :
    Parser.call (budget + 1) name start ⟨left :: ts, last, depth⟩ =
      .ok (.call name list (start.merge right.span)) ⟨rest, last, depth⟩ := by
  rw [Parser.call, bind_ok]
  refine ⟨_, _, expect_cons hleft, ?_⟩
  rw [get_bind_ok, ite_bind_ok]
  refine ⟨list, ⟨right :: rest, last, depth⟩, ?_, bind_ok.2 ⟨_, _, expect_cons hright, rfl⟩⟩
  obtain ⟨rfl, rfl⟩ | h := h
  · rw [if_pos (sees_cons.2 hright)]
    rfl
  · have hnot : NotNext (.mark .rightParen) ts := h.opens.notNext rfl
    rw [if_neg (by simp [not_sees_iff.2 hnot])]
    exact ih.arguments h hright (by omega)

theorem arguments_succ {list : List Expr} {right : Token} (h : Arguments ts list (right :: rest))
    (hright : right.kind = .mark .rightParen)
    (hb : 16 * ts.length ≤ 16 * rest.length + 5 + (budget + 1)) :
    Parser.arguments (budget + 1) ⟨ts, last, depth⟩ = .ok list ⟨right :: rest, last, depth⟩ := by
  rw [Parser.arguments, bind_ok]
  cases h with
  | @last _ _ e he =>
    have hnot : NotNext (.mark .comma) (right :: rest) := .cons (by simp [hright])
    refine ⟨e, _, ih.expression_before he hright (by simp) (by omega), ?_⟩
    exact bind_ok.2 ⟨none, _, accept?_none hnot, rfl⟩
  | @more comma _ mid _ e more he hcomma hmore =>
    have := he.shrinks
    have := hmore.shrinks
    simp only [List.length_cons] at *
    refine ⟨e, _, ih.expression_before he hcomma (by simp) (by omega), ?_⟩
    refine bind_ok.2 ⟨some comma.span, _, accept?_cons hcomma, ?_⟩
    exact bind_ok.2 ⟨more, _, ih.arguments hmore hright (by omega), rfl⟩

theorem succ : CompleteExpressions (budget + 1) where
  expression := ih.expression_succ
  binary := ih.binary_succ
  operators := ih.operators_succ
  unary := ih.unary_succ
  primary := ih.primary_succ
  call := ih.call_succ
  arguments := ih.arguments_succ

end CompleteExpressions

/-! ## The whole descent -/

theorem completeExpressions (budget : Nat) : CompleteExpressions budget := by
  induction budget with
  | zero => exact .zero
  | succ budget ih => exact ih.succ

end Parser

end Slate
