-- SUMMARY: Statements that derive from the grammar are read as the trees of their derivations.
import Slate.Proofs.Syntax.Completeness.Expression

/-!
# Completeness of reading statements

A statement is known by its first token, an assignment by its first two, and what
follows an expression in it closes the expression. Only `if` looks beyond its own
last token: no `else` may follow it, and none does, since no statement begins with
one.
-/

namespace Slate.Parser

open Grammar

variable {budget depth : Nat} {ts rest : List Token} {last : Token}

/-! ## Parts of statements -/

theorem initializer_complete {e : Expr} (h : Initializer ts e rest)
    (hb : 16 * ts.length ≤ 16 * rest.length + budget) :
    initializer budget ⟨ts, last, depth⟩ = .ok e ⟨rest, last, depth⟩ := by
  cases h with
  | @mk equal stop ts _ _ hequal he hstop =>
    rw [initializer, bind_ok]
    refine ⟨_, _, expect_cons hequal, ?_⟩
    simp only [List.length_cons] at hb
    refine bind_ok.2 ⟨e, _,
      (completeExpressions _).expression_before he hstop (by simp) (by omega), ?_⟩
    exact bind_ok.2 ⟨⟨⟩, _, semicolon_cons hstop, rfl⟩

theorem params_complete {list : List Param} (h : Params ts list rest)
    (hstop : NotNext (.mark .comma) rest) (hb : 16 * ts.length ≤ 16 * rest.length + budget) :
    params budget ⟨ts, last, depth⟩ = .ok list ⟨rest, last, depth⟩ := by
  induction h generalizing budget with
  | @last name colon type _ ty hname hcolon htype =>
    obtain ⟨budget, rfl⟩ : ∃ b, budget = b + 1 :=
      ⟨budget - 1, by simp only [List.length_cons] at hb; omega⟩
    rw [params, bind_ok]
    refine ⟨_, _, expectIdentifier_cons hname, ?_⟩
    refine bind_ok.2 ⟨_, _, expect_cons hcolon, ?_⟩
    refine bind_ok.2 ⟨ty, _, expectType_cons htype, ?_⟩
    exact bind_ok.2 ⟨none, _, accept?_none hstop, rfl⟩
  | @more name colon type comma ts _ ty list hname hcolon htype hcomma hmore ih =>
    have := hmore.shrinks
    simp only [List.length_cons] at hb
    obtain ⟨budget, rfl⟩ : ∃ b, budget = b + 1 := ⟨budget - 1, by omega⟩
    rw [params, bind_ok]
    refine ⟨_, _, expectIdentifier_cons hname, ?_⟩
    refine bind_ok.2 ⟨_, _, expect_cons hcolon, ?_⟩
    refine bind_ok.2 ⟨ty, _, expectType_cons htype, ?_⟩
    refine bind_ok.2 ⟨some comma.span, _, accept?_cons hcomma, ?_⟩
    exact bind_ok.2 ⟨list, _, ih hstop (by omega), rfl⟩

/-! ## Assignments and expressions -/

theorem assign_complete {name : Token} {value : Expr} (hname : name.kind = .identifier)
    (h : Initializer ts value rest) (hb : 16 * ts.length ≤ 16 * rest.length + budget) :
    assignmentOrExpression budget ⟨name :: ts, last, depth⟩ =
      .ok (.assign name.text value name.span) ⟨rest, last, depth⟩ := by
  have hcond : (State.sees ⟨name :: ts, last, depth⟩ .identifier &&
      State.seesSecond ⟨name :: ts, last, depth⟩ (.mark .equal)) = true := by
    rw [Bool.and_eq_true_iff, sees_cons, seesSecond_iff]
    cases h with
    | mk hequal => exact ⟨hname, _, _, _, rfl, hequal⟩
  rw [assignmentOrExpression, get_bind_ok, if_pos hcond, bind_ok]
  refine ⟨_, _, expectIdentifier_cons hname, ?_⟩
  exact bind_ok.2 ⟨value, _, initializer_complete h hb, rfl⟩

theorem expression_complete {stop : Token} {value : Expr} (h : Expression ts value (stop :: rest))
    (hstop : stop.kind = .mark .semicolon) (hb : 16 * ts.length ≤ 16 * rest.length + 6 + budget) :
    assignmentOrExpression budget ⟨ts, last, depth⟩ =
      .ok (.expression value value.span) ⟨rest, last, depth⟩ := by
  have hcond : ¬ (State.sees ⟨ts, last, depth⟩ .identifier &&
      State.seesSecond ⟨ts, last, depth⟩ (.mark .equal)) = true := by
    rw [Bool.and_eq_true_iff, seesSecond_iff]
    rintro ⟨hname, name, equal, more, rfl, hequal⟩
    -- the expression would end before the equal sign, and no semicolon is there
    obtain ⟨rfl, -⟩ := List.cons.inj (h.before_equal (by decide) (sees_cons.1 hname) hequal)
    simp [hequal] at hstop
  rw [assignmentOrExpression, get_bind_ok, if_neg hcond, bind_ok]
  refine ⟨value, _, (completeExpressions _).expression_before h hstop (by simp) hb, ?_⟩
  exact bind_ok.2 ⟨⟨⟩, _, semicolon_cons hstop, rfl⟩

/-- A statement that begins as an expression does is an assignment or an expression. -/
theorem strictStatement_of_opens (h : Opens opensExpression ts) :
    strictStatement (budget + 1) ⟨ts, last, depth⟩ =
      assignmentOrExpression budget ⟨ts, last, depth⟩ := by
  obtain ⟨t, more, rfl, ht⟩ := h
  rw [strictStatement, get_bind_apply, State.view, List.headD_cons]
  cases hk : t.kind with
  | keyword k => cases k <;> first | rfl | simp [hk, opensExpression, opensPrimary] at ht
  | mark m => cases m <;> first | rfl | simp [hk, opensExpression, opensPrimary] at ht
  | _ => rfl

/-! ## Simple statements -/

section

variable {word name colon type semicolon : Token} {ty : Ty} {value : Expr}

theorem needs_complete (hword : word.kind = .keyword .needsKw) (hname : name.kind = .identifier)
    (hstop : semicolon.kind = .mark .semicolon) :
    needs ⟨word :: name :: semicolon :: rest, last, depth⟩ =
      .ok (.needs name.text (word.span.merge name.span)) ⟨rest, last, depth⟩ := by
  rw [needs, bind_ok]
  refine ⟨_, _, expect_cons hword, ?_⟩
  refine bind_ok.2 ⟨_, _, expectIdentifier_cons hname, ?_⟩
  exact bind_ok.2 ⟨⟨⟩, _, semicolon_cons hstop, rfl⟩

theorem declare_complete (hword : word.kind = .keyword .letKw) (hname : name.kind = .identifier)
    (hcolon : colon.kind = .mark .colon) (htype : type.kind = .typeName ty)
    (hstop : semicolon.kind = .mark .semicolon) :
    declaration budget ⟨word :: name :: colon :: type :: semicolon :: rest, last, depth⟩ =
      .ok (.declare name.text ty name.span) ⟨rest, last, depth⟩ := by
  rw [declaration, bind_ok]
  refine ⟨_, _, expect_cons hword, ?_⟩
  refine bind_ok.2 ⟨_, _, expectIdentifier_cons hname, ?_⟩
  refine bind_ok.2 ⟨some colon.span, _, accept?_cons hcolon, ?_⟩
  refine bind_ok.2 ⟨ty, _, expectType_cons htype, ?_⟩
  exact bind_ok.2 ⟨some semicolon.span, _, accept?_cons hstop, rfl⟩

theorem define_complete (hword : word.kind = .keyword .letKw) (hname : name.kind = .identifier)
    (hcolon : colon.kind = .mark .colon) (htype : type.kind = .typeName ty)
    (h : Initializer ts value rest) (hb : 16 * ts.length ≤ 16 * rest.length + budget) :
    declaration budget ⟨word :: name :: colon :: type :: ts, last, depth⟩ =
      .ok (.define name.text (some ty) value name.span) ⟨rest, last, depth⟩ := by
  have hnot : NotNext (.mark .semicolon) ts := h.notNext (by simp)
  rw [declaration, bind_ok]
  refine ⟨_, _, expect_cons hword, ?_⟩
  refine bind_ok.2 ⟨_, _, expectIdentifier_cons hname, ?_⟩
  refine bind_ok.2 ⟨some colon.span, _, accept?_cons hcolon, ?_⟩
  refine bind_ok.2 ⟨ty, _, expectType_cons htype, ?_⟩
  refine bind_ok.2 ⟨none, _, accept?_none hnot, ?_⟩
  exact bind_ok.2 ⟨value, _, initializer_complete h hb, rfl⟩

theorem infer_complete (hword : word.kind = .keyword .letKw) (hname : name.kind = .identifier)
    (h : Initializer ts value rest) (hb : 16 * ts.length ≤ 16 * rest.length + budget) :
    declaration budget ⟨word :: name :: ts, last, depth⟩ =
      .ok (.define name.text none value name.span) ⟨rest, last, depth⟩ := by
  have hnot : NotNext (.mark .colon) ts := h.notNext (by simp)
  rw [declaration, bind_ok]
  refine ⟨_, _, expect_cons hword, ?_⟩
  refine bind_ok.2 ⟨_, _, expectIdentifier_cons hname, ?_⟩
  refine bind_ok.2 ⟨none, _, accept?_none hnot, ?_⟩
  exact bind_ok.2 ⟨value, _, initializer_complete h hb, rfl⟩

theorem ret_complete (hword : word.kind = .keyword .returnKw)
    (hstop : semicolon.kind = .mark .semicolon) :
    ret budget ⟨word :: semicolon :: rest, last, depth⟩ =
      .ok (.ret none word.span) ⟨rest, last, depth⟩ := by
  rw [ret, bind_ok]
  refine ⟨_, _, expect_cons hword, ?_⟩
  rw [get_bind_ok, if_pos (sees_cons.2 hstop)]
  refine bind_ok.2 ⟨none, _, rfl, ?_⟩
  exact bind_ok.2 ⟨⟨⟩, _, semicolon_cons hstop, rfl⟩

theorem retValue_complete (hword : word.kind = .keyword .returnKw)
    (h : Expression ts value (semicolon :: rest)) (hstop : semicolon.kind = .mark .semicolon)
    (hb : 16 * ts.length ≤ 16 * rest.length + 6 + budget) :
    ret budget ⟨word :: ts, last, depth⟩ =
      .ok (.ret (some value) word.span) ⟨rest, last, depth⟩ := by
  have hnot : NotNext (.mark .semicolon) ts := h.opens.notNext rfl
  rw [ret, bind_ok]
  refine ⟨_, _, expect_cons hword, ?_⟩
  rw [get_bind_ok, not_sees_iff.2 hnot]
  refine bind_ok.2 ⟨some value, ⟨semicolon :: rest, last, depth⟩, ?_, ?_⟩
  · exact map_ok.2 ⟨value, (completeExpressions _).expression_before h hstop (by simp) hb, rfl⟩
  · exact bind_ok.2 ⟨⟨⟩, _, semicolon_cons hstop, rfl⟩

end

/-! ## One step of the descent -/

theorem not_atEnd {set : Kind → Bool} (h : Opens set ts) :
    State.atEnd ⟨ts, last, depth⟩ = false := List.isEmpty_eq_false_iff.2 h.ne_nil

/-- The readers of statements are complete with this budget. -/
structure CompleteStatements (budget : Nat) : Prop where
  statement : ∀ {ts rest stmt last depth}, Statement (depth == 0) ts stmt rest →
    NotNext (.keyword .elseKw) rest → 16 * ts.length + 12 ≤ 16 * rest.length + budget →
    statement budget ⟨ts, last, depth⟩ = .ok stmt ⟨rest, last, depth⟩
  strictStatement : ∀ {ts rest stmt last depth}, Statement (depth == 0) ts stmt rest →
    NotNext (.keyword .elseKw) rest → 16 * ts.length + 11 ≤ 16 * rest.length + budget →
    strictStatement budget ⟨ts, last, depth⟩ = .ok stmt ⟨rest, last, depth⟩
  function : ∀ {word name ts ts' ts'' rest list returns body last depth},
    word.kind = .keyword .fnKw → name.kind = .identifier → ParamList ts list ts' →
    ReturnType ts' returns ts'' → Braces ts'' body rest →
    16 * ts.length ≤ 16 * rest.length + budget →
    function budget ⟨word :: name :: ts, last, depth⟩ =
      .ok (.function name.text list returns body name.span) ⟨rest, last, depth⟩
  ifChain : ∀ {word ts mid rest test body branches otherwise last depth},
    word.kind = .keyword .ifKw → Guarded ts test body mid →
    Alternatives mid branches otherwise rest → NotNext (.keyword .elseKw) rest →
    16 * ts.length + 1 ≤ 16 * rest.length + budget →
    ifChain budget ⟨word :: ts, last, depth⟩ =
      .ok (.ifChain (.mk test body word.span :: branches) otherwise word.span) ⟨rest, last, depth⟩
  elseBranches : ∀ {ts rest branches otherwise last depth},
    Alternatives ts branches otherwise rest → NotNext (.keyword .elseKw) rest →
    16 * ts.length + 1 ≤ 16 * rest.length + budget →
    elseBranches budget ⟨ts, last, depth⟩ = .ok (branches, otherwise) ⟨rest, last, depth⟩
  guarded : ∀ {ts rest test body last depth}, Guarded ts test body rest →
    16 * ts.length ≤ 16 * rest.length + budget →
    guarded budget ⟨ts, last, depth⟩ = .ok (test, body) ⟨rest, last, depth⟩
  block : ∀ {ts rest body last depth}, Braces ts body rest →
    16 * ts.length ≤ 16 * rest.length + budget →
    block budget ⟨ts, last, depth⟩ = .ok body ⟨rest, last, depth⟩
  blockStatements : ∀ {ts right rest list last depth},
    Statements (depth == 0) ts list (right :: rest) → right.kind = .mark .rightBrace →
    16 * ts.length ≤ 16 * rest.length + 3 + budget →
    blockStatements budget ⟨ts, last, depth⟩ = .ok list ⟨right :: rest, last, depth⟩

namespace CompleteStatements

theorem zero : CompleteStatements 0 where
  statement h _ hb := by have := h.shrinks; omega
  strictStatement h _ hb := by have := h.shrinks; omega
  function _ _ list returns body hb := by
    have := list.shrinks
    have := returns.shrinks
    have := body.shrinks
    omega
  ifChain _ guarded alternatives _ hb := by
    have := guarded.shrinks
    have := alternatives.shrinks
    omega
  elseBranches h _ hb := by have := h.shrinks; omega
  guarded h hb := by have := h.shrinks; omega
  block h hb := by have := h.shrinks; omega
  blockStatements h _ hb := by
    have := h.shrinks
    simp only [List.length_cons] at this
    omega

variable (ih : CompleteStatements budget)
include ih

theorem statement_succ {stmt : Stmt} (h : Statement (depth == 0) ts stmt rest)
    (hstop : NotNext (.keyword .elseKw) rest)
    (hb : 16 * ts.length + 12 ≤ 16 * rest.length + (budget + 1)) :
    Parser.statement (budget + 1) ⟨ts, last, depth⟩ = .ok stmt ⟨rest, last, depth⟩ := by
  rw [Parser.statement, recovering]
  rw [ih.strictStatement h hstop (by omega)]

theorem guarded_succ {test : Expr} {body : Block} (h : Guarded ts test body rest)
    (hb : 16 * ts.length ≤ 16 * rest.length + (budget + 1)) :
    Parser.guarded (budget + 1) ⟨ts, last, depth⟩ = .ok (test, body) ⟨rest, last, depth⟩ := by
  cases h with
  | @mk left right ts mid _ _ _ hleft htest hright hbody =>
    have := htest.shrinks
    have := hbody.shrinks
    simp only [List.length_cons] at *
    rw [Parser.guarded, bind_ok]
    refine ⟨_, _, expect_cons hleft, ?_⟩
    refine bind_ok.2 ⟨test, _,
      (completeExpressions _).expression_before htest hright (by simp) (by omega), ?_⟩
    refine bind_ok.2 ⟨_, _, expect_cons hright, ?_⟩
    exact bind_ok.2 ⟨body, _, ih.block hbody (by omega), rfl⟩

theorem block_succ {body : Block} (h : Braces ts body rest)
    (hb : 16 * ts.length ≤ 16 * rest.length + (budget + 1)) :
    Parser.block (budget + 1) ⟨ts, last, depth⟩ = .ok body ⟨rest, last, depth⟩ := by
  cases h with
  | @mk left right ts _ list hleft hlist hright =>
    have := hlist.shrinks
    simp only [List.length_cons] at *
    rw [Parser.block, bind_ok]
    refine ⟨_, _, expect_cons hleft, ?_⟩
    -- inside, one more block is open, and no function may be defined
    refine bind_ok.2 ⟨⟨⟩, ⟨ts, last, depth + 1⟩, rfl, ?_⟩
    refine bind_ok.2 ⟨list, _, ih.blockStatements hlist hright (by omega), ?_⟩
    refine bind_ok.2 ⟨⟨⟩, ⟨right :: rest, last, depth⟩, rfl, ?_⟩
    exact bind_ok.2 ⟨_, _, expect_cons hright, rfl⟩

theorem blockStatements_succ {right : Token} {list : List Stmt}
    (h : Statements (depth == 0) ts list (right :: rest)) (hright : right.kind = .mark .rightBrace)
    (hb : 16 * ts.length ≤ 16 * rest.length + 3 + (budget + 1)) :
    Parser.blockStatements (budget + 1) ⟨ts, last, depth⟩ =
      .ok list ⟨right :: rest, last, depth⟩ := by
  rw [Parser.blockStatements, get_bind_ok]
  cases h with
  | none =>
    rw [sees_cons.2 hright]
    rfl
  | @more _ _ mid _ stmt list hstmt hlist =>
    have := hstmt.shrinks
    have := hlist.shrinks
    simp only [List.length_cons] at *
    have hnot : NotNext (.mark .rightBrace) ts := hstmt.opens.notNext rfl
    -- a statement that follows is no alternative of the one before it, and neither is the brace
    have helse : NotNext (.keyword .elseKw) mid := hlist.notNext_else (.cons (by simp [hright]))
    rw [not_sees_iff.2 hnot, not_atEnd hstmt.opens]
    refine bind_ok.2 ⟨stmt, _, ih.statement hstmt helse (by omega), ?_⟩
    exact bind_ok.2 ⟨list, _, ih.blockStatements hlist hright (by omega), rfl⟩

theorem elseBranches_succ {branches : List Branch} {otherwise : Option Block}
    (h : Alternatives ts branches otherwise rest) (hstop : NotNext (.keyword .elseKw) rest)
    (hb : 16 * ts.length + 1 ≤ 16 * rest.length + (budget + 1)) :
    Parser.elseBranches (budget + 1) ⟨ts, last, depth⟩ =
      .ok (branches, otherwise) ⟨rest, last, depth⟩ := by
  rw [Parser.elseBranches, bind_ok]
  cases h with
  | none => exact ⟨none, _, accept?_none hstop, rfl⟩
  | @last word ts _ body hword hbody =>
    have hnot : NotNext (.keyword .ifKw) ts := hbody.opens.notNext rfl
    simp only [List.length_cons] at hb
    refine ⟨some word.span, _, accept?_cons hword, ?_⟩
    refine bind_ok.2 ⟨none, _, accept?_none hnot, ?_⟩
    exact bind_ok.2 ⟨body, _, ih.block hbody (by omega), rfl⟩
  | @more word word' ts mid _ test body branches _ hword hword' hguarded halternatives =>
    have := hguarded.shrinks
    have := halternatives.shrinks
    simp only [List.length_cons] at hb
    refine ⟨some word.span, _, accept?_cons hword, ?_⟩
    refine bind_ok.2 ⟨some word'.span, _, accept?_cons hword', ?_⟩
    refine bind_ok.2 ⟨(test, body), _, ih.guarded hguarded (by omega), ?_⟩
    exact bind_ok.2 ⟨(branches, otherwise), _, ih.elseBranches halternatives hstop (by omega), rfl⟩

theorem ifChain_succ {word : Token} {mid : List Token} {test : Expr} {body : Block}
    {branches : List Branch} {otherwise : Option Block} (hword : word.kind = .keyword .ifKw)
    (hguarded : Guarded ts test body mid)
    (halternatives : Alternatives mid branches otherwise rest)
    (hstop : NotNext (.keyword .elseKw) rest)
    (hb : 16 * ts.length + 1 ≤ 16 * rest.length + (budget + 1)) :
    Parser.ifChain (budget + 1) ⟨word :: ts, last, depth⟩ =
      .ok (.ifChain (.mk test body word.span :: branches) otherwise word.span)
        ⟨rest, last, depth⟩ := by
  have := hguarded.shrinks
  have := halternatives.shrinks
  rw [Parser.ifChain, bind_ok]
  refine ⟨_, _, expect_cons hword, ?_⟩
  refine bind_ok.2 ⟨(test, body), _, ih.guarded hguarded (by omega), ?_⟩
  exact bind_ok.2 ⟨(branches, otherwise), _, ih.elseBranches halternatives hstop (by omega), rfl⟩

theorem function_succ {word name : Token} {ts' ts'' : List Token} {list : List Param}
    {returns : Option Ty} {body : Block} (hword : word.kind = .keyword .fnKw)
    (hname : name.kind = .identifier) (hparams : ParamList ts list ts')
    (hreturns : ReturnType ts' returns ts'') (hbody : Braces ts'' body rest)
    (hb : 16 * ts.length ≤ 16 * rest.length + (budget + 1)) :
    Parser.function (budget + 1) ⟨word :: name :: ts, last, depth⟩ =
      .ok (.function name.text list returns body name.span) ⟨rest, last, depth⟩ := by
  have := hparams.shrinks
  have := hreturns.shrinks
  have := hbody.shrinks
  have hblock : Parser.block budget ⟨ts'', last, depth⟩ = .ok body ⟨rest, last, depth⟩ :=
    ih.block hbody (by omega)
  -- the parameters are read up to the closing parenthesis, which the function itself expects
  obtain ⟨left, right, ts, rfl, hleft, hright, hlist⟩ : ∃ left right ts₁, ts = left :: ts₁ ∧
      left.kind = .mark .leftParen ∧ right.kind = .mark .rightParen ∧
      (if State.sees ⟨ts₁, last, depth⟩ (.mark .rightParen) = true then pure []
        else params budget : ParseM (List Param)) ⟨ts₁, last, depth⟩ =
          .ok list ⟨right :: ts', last, depth⟩ := by
    cases hparams with
    | @none left right _ hleft hright =>
      refine ⟨left, right, _, rfl, hleft, hright, ?_⟩
      rw [if_pos (sees_cons.2 hright)]
      rfl
    | @some left right ts₁ _ _ hleft hlist hright =>
      have hnot : NotNext (.mark .rightParen) ts₁ := hlist.opens.notNext rfl
      have hcomma : NotNext (.mark .comma) (right :: ts') := .cons (by simp [hright])
      refine ⟨left, right, _, rfl, hleft, hright, ?_⟩
      rw [not_sees_iff.2 hnot]
      simp only [List.length_cons] at *
      exact params_complete hlist hcomma (by simp only [List.length_cons]; omega)
  rw [Parser.function, bind_ok]
  refine ⟨_, _, expect_cons hword, ?_⟩
  refine bind_ok.2 ⟨_, _, expectIdentifier_cons hname, ?_⟩
  refine bind_ok.2 ⟨_, _, expect_cons hleft, ?_⟩
  rw [get_bind_ok, ite_bind_ok]
  refine ⟨list, _, hlist, ?_⟩
  refine bind_ok.2 ⟨_, _, expect_cons hright, ?_⟩
  cases hreturns with
  | none =>
    have hnot : NotNext (.mark .arrow) ts' := hbody.opens.notNext rfl
    refine bind_ok.2 ⟨none, _, accept?_none hnot, ?_⟩
    exact bind_ok.2 ⟨none, _, rfl, bind_ok.2 ⟨body, _, hblock, rfl⟩⟩
  | @some arrow type _ ty harrow htype =>
    refine bind_ok.2 ⟨some arrow.span, _, accept?_cons harrow, ?_⟩
    refine bind_ok.2 ⟨some ty, _, map_ok.2 ⟨ty, ?_, rfl⟩, bind_ok.2 ⟨body, _, hblock, rfl⟩⟩
    exact expectType_cons htype

theorem strictStatement_succ {stmt : Stmt} (h : Statement (depth == 0) ts stmt rest)
    (hstop : NotNext (.keyword .elseKw) rest)
    (hb : 16 * ts.length + 11 ≤ 16 * rest.length + (budget + 1)) :
    Parser.strictStatement (budget + 1) ⟨ts, last, depth⟩ = .ok stmt ⟨rest, last, depth⟩ := by
  -- whether a function may stand here is an index of the derivation, so it needs a name first
  generalize htop : (depth == 0) = top at h
  cases h with
  | needs hword hname hstop =>
    rw [Parser.strictStatement, get_bind_ok, State.view, List.headD_cons, hword]
    exact needs_complete hword hname hstop
  | declare hword hname hcolon htype hstop =>
    rw [Parser.strictStatement, get_bind_ok, State.view, List.headD_cons, hword]
    exact declare_complete hword hname hcolon htype hstop
  | define hword hname hcolon htype hvalue =>
    rw [Parser.strictStatement, get_bind_ok, State.view, List.headD_cons, hword]
    simp only [List.length_cons] at hb
    exact define_complete hword hname hcolon htype hvalue (by omega)
  | infer hword hname hvalue =>
    rw [Parser.strictStatement, get_bind_ok, State.view, List.headD_cons, hword]
    simp only [List.length_cons] at hb
    exact infer_complete hword hname hvalue (by omega)
  | function hword hname hparams hreturns hbody =>
    rw [Parser.strictStatement, get_bind_ok, State.view, List.headD_cons, hword]
    obtain rfl : depth = 0 := by simpa using htop
    simp only [List.length_cons] at hb
    exact ih.function hword hname hparams hreturns hbody (by omega)
  | ifChain hword hguarded halternatives =>
    rw [Parser.strictStatement, get_bind_ok, State.view, List.headD_cons, hword]
    simp only [List.length_cons] at hb
    exact ih.ifChain hword hguarded halternatives hstop (by omega)
  | @whileLoop _ word _ _ test body hword hguarded =>
    rw [Parser.strictStatement, get_bind_ok, State.view, List.headD_cons, hword]
    simp only [List.length_cons] at hb
    refine bind_ok.2 ⟨_, _, expect_cons hword, ?_⟩
    exact bind_ok.2 ⟨(test, body), _, ih.guarded hguarded (by omega), rfl⟩
  | @block _ _ _ body hbody =>
    obtain ⟨left, ts, rfl, hleft⟩ := hbody.opens
    rw [Parser.strictStatement, get_bind_ok, State.view, List.headD_cons, beq_iff_eq.1 hleft]
    exact bind_ok.2 ⟨body, _, ih.block hbody (by omega), rfl⟩
  | ret hword hstop =>
    rw [Parser.strictStatement, get_bind_ok, State.view, List.headD_cons, hword]
    exact ret_complete hword hstop
  | retValue hword hvalue hstop =>
    rw [Parser.strictStatement, get_bind_ok, State.view, List.headD_cons, hword]
    simp only [List.length_cons] at hb
    exact retValue_complete hword hvalue hstop (by omega)
  | breakLoop hword hstop =>
    rw [Parser.strictStatement, get_bind_ok, State.view, List.headD_cons, hword]
    refine bind_ok.2 ⟨_, _, expect_cons hword, ?_⟩
    exact bind_ok.2 ⟨⟨⟩, _, semicolon_cons hstop, rfl⟩
  | continueLoop hword hstop =>
    rw [Parser.strictStatement, get_bind_ok, State.view, List.headD_cons, hword]
    refine bind_ok.2 ⟨_, _, expect_cons hword, ?_⟩
    exact bind_ok.2 ⟨⟨⟩, _, semicolon_cons hstop, rfl⟩
  | assign hname hvalue =>
    rw [strictStatement_of_opens (.cons hname rfl)]
    simp only [List.length_cons] at hb
    exact assign_complete hname hvalue (by omega)
  | expression hvalue hstop =>
    rw [strictStatement_of_opens hvalue.opens]
    exact expression_complete hvalue hstop (by omega)

theorem succ : CompleteStatements (budget + 1) where
  statement := ih.statement_succ
  strictStatement := ih.strictStatement_succ
  function := ih.function_succ
  ifChain := ih.ifChain_succ
  elseBranches := ih.elseBranches_succ
  guarded := ih.guarded_succ
  block := ih.block_succ
  blockStatements := ih.blockStatements_succ

end CompleteStatements

/-! ## The whole descent -/

theorem completeStatements (budget : Nat) : CompleteStatements budget := by
  induction budget with
  | zero => exact .zero
  | succ budget ih => exact ih.succ

/-- At the top, reading goes on behind statements of the grammar, and what is left of the budget
is still enough. -/
theorem programStatements_behind {list : List Stmt} (h : Statements true ts list rest)
    (hrest : NotNext (.keyword .elseKw) rest) (hb : 16 * ts.length + 13 ≤ budget) :
    ∃ left, 16 * rest.length + 13 ≤ left ∧
      programStatements budget ⟨ts, last, 0⟩ =
        (programStatements left >>= fun others => pure (list ++ others)) ⟨rest, last, 0⟩ := by
  induction budget generalizing ts list with
  | zero => omega
  | succ budget ih =>
    cases h with
    | none => exact ⟨budget + 1, hb, by simp only [List.nil_append, bind_pure]⟩
    | @more _ _ mid _ stmt list hstmt hlist =>
      have := hstmt.shrinks
      obtain ⟨left, hleft, hbehind⟩ := ih hlist (by omega)
      have hread : statement budget ⟨ts, last, 0⟩ = .ok stmt ⟨mid, last, 0⟩ :=
        (completeStatements budget).statement hstmt (hlist.notNext_else hrest) (by
          have := hlist.shrinks
          omega)
      refine ⟨left, hleft, ?_⟩
      rw [programStatements, get_bind_apply, not_atEnd hstmt.opens, if_neg Bool.false_ne_true,
        bind_of_ok hread, bind_congr_run hbehind, bind_assoc]
      simp only [pure_bind, List.cons_append]

/-- At the top, the statements of the grammar are read until nothing is left. -/
theorem programStatements_of_statements (last : Token) {list : List Stmt}
    (h : Statements true ts list []) (hb : 16 * ts.length + 13 ≤ budget) :
    programStatements budget ⟨ts, last, 0⟩ = .ok list ⟨[], last, 0⟩ := by
  obtain ⟨left, hleft, hbehind⟩ := programStatements_behind h .nil hb
  obtain ⟨left, rfl⟩ : ∃ b, left = b + 1 := ⟨left - 1, by omega⟩
  have hnone : programStatements (left + 1) ⟨[], last, 0⟩ = .ok [] ⟨[], last, 0⟩ := rfl
  rw [hbehind, bind_of_ok hnone, List.append_nil]
  rfl

end Slate.Parser
