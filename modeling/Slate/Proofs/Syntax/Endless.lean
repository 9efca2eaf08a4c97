-- SUMMARY: A stream of tokens that spends the budget of the parser spends any budget, however large.
import Slate.Proofs.Syntax.Concatenation

/-!
# Streams that are never read to an end

Only a stream that ends in an opening parenthesis can spend the budget. It is read side
by side with the stream that ends in a closing one instead. Past the end, a parenthesis
in view matters only where an expression is due: an opening one begins an expression over
and over again, a closing one is refused. Up to there the two are read alike, and the
second one has budget enough to get there. So the first one gets there too, with any
budget that lasts so long, and then never comes back.
-/

namespace Slate.Parser

open State

variable {α β : Type} {m : ParseM α} {k : α → ParseM β} {f : State → ParseM α} {s s₁ : State}
variable {what : Expectation} {kind : Kind} {budget : Nat}

/-! ## Past the end -/

section spinning

variable {last : Token} {depth : Nat}

/-- With this budget, the readers of expressions spend it all where nothing is left. -/
structure ExpressionsSpin (last : Token) (depth budget : Nat) : Prop where
  expression : expression budget ⟨[], last, depth⟩ = .error .exhausted ⟨[], last, depth⟩
  binary : ∀ tables, binary budget tables ⟨[], last, depth⟩ = .error .exhausted ⟨[], last, depth⟩
  unary : unary budget ⟨[], last, depth⟩ = .error .exhausted ⟨[], last, depth⟩
  primary : primary budget ⟨[], last, depth⟩ = .error .exhausted ⟨[], last, depth⟩

namespace ExpressionsSpin

theorem zero : ExpressionsSpin last depth 0 where
  expression := rfl
  binary _ := rfl
  unary := rfl
  primary := rfl

variable (ih : ExpressionsSpin last depth budget)
include ih

theorem binary_succ (tables : List (List (Mark × BinaryOp))) :
    Parser.binary (budget + 1) tables ⟨[], last, depth⟩ =
      .error .exhausted ⟨[], last, depth⟩ := by
  cases tables with
  | nil => exact ih.unary
  | cons table tighter => exact bind_of_error (ih.binary tighter)

/-- The parenthesis in view is not passed over, and the expression inside meets it again. -/
theorem primary_succ (h : last.kind = .mark .leftParen) :
    Parser.primary (budget + 1) ⟨[], last, depth⟩ = .error .exhausted ⟨[], last, depth⟩ := by
  obtain ⟨kind, text, span⟩ := last
  obtain rfl : kind = .mark .leftParen := h
  exact (bind_of_error ih.expression : (Parser.expression budget >>= _) _ = _)

theorem succ (h : last.kind = .mark .leftParen) : ExpressionsSpin last depth (budget + 1) where
  expression := ih.binary precedence
  binary := ih.binary_succ
  unary := ih.primary
  primary := ih.primary_succ h

end ExpressionsSpin

theorem expressionsSpin (h : last.kind = .mark .leftParen) (depth budget : Nat) :
    ExpressionsSpin last depth budget := by
  induction budget with
  | zero => exact .zero
  | succ budget ih => exact ih.succ h

end spinning

/-! ## The stream that is closed instead -/

/-- The same place in the stream that ends in a closing parenthesis instead. -/
def State.closed (s : State) : State :=
  { s with last := { s.last with kind := .mark .rightParen } }

namespace State

@[simp] theorem sees_closed : s.closed.sees kind = s.sees kind := rfl

@[simp] theorem seesSecond_closed : s.closed.seesSecond kind = s.seesSecond kind := rfl

@[simp] theorem atEnd_closed : s.closed.atEnd = s.atEnd := rfl

/-- Before the end, the same token is in view. -/
theorem view_closed (h : s.rest ≠ []) : s.closed.view = s.view := by
  obtain ⟨_ | ⟨t, ts⟩, last, depth⟩ := s
  · exact absurd rfl h
  · rfl

@[simp] theorem text_view_closed : s.closed.view.text = s.view.text := by
  obtain ⟨_ | ⟨t, ts⟩, last, depth⟩ := s <;> rfl

@[simp] theorem span_view_closed : s.closed.view.span = s.view.span := by
  obtain ⟨_ | ⟨t, ts⟩, last, depth⟩ := s <;> rfl

end State

/-- An expression is due and nothing is left. -/
def Failure.LacksExpression (failure : Failure) : Prop :=
  ∃ span, failure = .fault (.expected .expression none) span

/-- At this place, the program does the same in both streams, except that it may spend its
budget here where it lacks an expression there. It never lacks an expression here. -/
def AlikeAt (s : State) (m : ParseM α) : Prop :=
  wp m (fun a s₁ => s₁.last = s.last ∧ m s.closed = .ok a s₁.closed)
    (fun failure s₁ => s₁.last = s.last ∧ ¬ failure.LacksExpression ∧
      (m s.closed = .error failure s₁.closed ∨
        failure = .exhausted ∧ ∃ failure' s₂, failure'.LacksExpression ∧ s₂.atEnd = true ∧
          m s.closed = .error failure' s₂))
    s

/-- The program does the same in a stream that ends in an opening parenthesis and in the
one that is closed instead. -/
def Alike (m : ParseM α) : Prop := ∀ ⦃s⦄, s.last.kind = .mark .leftParen → AlikeAt s m

/-- Looking at the state is safe where the two states cannot be told apart. -/
theorem AlikeAt.get_bind (hf : f s.closed = f s) (h : AlikeAt s (f s)) :
    AlikeAt s (get >>= f) := by
  have hclosed : (get >>= f) s.closed = f s s.closed := congrFun hf s.closed
  unfold AlikeAt wp at h ⊢
  rw [hclosed]
  exact h

namespace Alike

theorem pure (a : α) : Alike (pure a) := fun _ _ => ⟨rfl, rfl⟩

theorem exhausted : Alike (throw .exhausted : ParseM α) := fun _ _ => ⟨rfl, nofun, .inl rfl⟩

theorem bind (h : Alike m) (hk : ∀ a, Alike (k a)) : Alike (m >>= k) := by
  intro s hs
  unfold AlikeAt
  rw [wp_bind]
  refine wp_mono (h hs) ?_ ?_
  · rintro a s₁ ⟨hlast, hok⟩
    have hs₁ : s₁.last.kind = .mark .leftParen := by rw [hlast, hs]
    refine wp_mono (hk a hs₁) ?_ ?_
    · rintro b s₂ ⟨hlast₁, hok₁⟩
      exact ⟨hlast₁.trans hlast, by rw [bind_of_ok hok, hok₁]⟩
    · rintro failure s₂ ⟨hlast₁, herror⟩
      rw [bind_of_ok hok]
      exact ⟨hlast₁.trans hlast, herror⟩
  · rintro failure s₁ ⟨hlast, hlacks, hsame | ⟨hexhausted, failure', s₂, hlacks', hend, hother⟩⟩
    · exact ⟨hlast, hlacks, .inl (bind_of_error hsame)⟩
    · exact ⟨hlast, hlacks, .inr ⟨hexhausted, failure', s₂, hlacks', hend, bind_of_error hother⟩⟩

theorem map {g : α → β} (h : Alike m) : Alike (g <$> m) := h.bind fun a => pure (g a)

/-- A choice by the next token. -/
theorem ite_sees {n : ParseM α} (h : Alike m) (hn : Alike n) :
    Alike (get >>= fun s => if s.sees kind = true then m else n) := by
  intro s hs
  refine .get_bind rfl ?_
  split
  · exact h hs
  · exact hn hs

/-- A choice by the next token between two programs with one continuation. -/
theorem ite_sees_bind {n : ParseM α} (h : Alike m) (hn : Alike n) (hk : ∀ a, Alike (k a)) :
    Alike (get >>= fun s => if s.sees kind = true then m >>= k else n >>= k) :=
  .ite_sees (h.bind hk) (hn.bind hk)

end Alike

/-! ## Single tokens -/

theorem alike_failAt {fault : Fault} {span : Span} (h : fault ≠ .expected .expression none) :
    Alike (failAt fault span : ParseM α) := by
  refine fun s _ => ⟨rfl, ?_, .inl rfl⟩
  rintro ⟨_, heq⟩
  cases heq
  exact h rfl

theorem alike_advance : Alike advance := fun _ _ => ⟨rfl, rfl⟩

theorem alikeAt_unexpected (h : what ≠ .expression ∨ s.rest ≠ [])
    (hs : s.last.kind = .mark .leftParen) : AlikeAt s (unexpected what : ParseM α) := by
  refine .get_bind (by simp) (alike_failAt ?_ hs)
  intro heq
  obtain ⟨hwhat, hfound⟩ := Fault.expected.inj heq
  refine h.elim (· hwhat) fun hrest => ?_
  rw [atEnd, List.isEmpty_eq_false_iff.2 hrest] at hfound
  cases hfound

theorem alike_unexpected (what : Expectation) (h : what ≠ .expression) :
    Alike (unexpected what : ParseM α) := fun _ hs => alikeAt_unexpected (.inl h) hs

theorem alike_accept? (kind : Kind) : Alike (accept? kind) := by
  intro s hs
  refine .get_bind (by simp) ?_
  split
  · exact alike_advance.bind (fun _ => .pure _) hs
  · exact Alike.pure none hs

theorem alike_expect (kind : Kind) : Alike (expect kind) := by
  refine (alike_accept? kind).bind fun accepted => ?_
  cases accepted with
  | some span => exact .pure span
  | none => exact alike_unexpected (.kind kind) nofun

theorem alike_expectIdentifier : Alike expectIdentifier := by
  intro s hs
  refine .get_bind (by simp) ?_
  split
  · exact alike_advance.bind (fun _ => .pure _) hs
  · exact alike_unexpected .identifier nofun hs

/-- No parenthesis is the name of a type. -/
theorem alike_expectType : Alike expectType := by
  rintro ⟨_ | ⟨t, ts⟩, ⟨kind, text, span⟩, depth⟩ hs
  · obtain rfl : kind = .mark .leftParen := hs
    exact .get_bind rfl (alike_unexpected .type nofun rfl)
  · refine .get_bind rfl ?_
    split
    · next ty _ => exact alike_advance.bind (fun _ => .pure ty) hs
    · exact alike_unexpected .type nofun hs

theorem alike_acceptOperator? (table : List (Mark × α)) : Alike (acceptOperator? table) := by
  induction table with
  | nil => exact .pure none
  | cons entry table ih =>
    refine (alike_accept? _).bind fun accepted => ?_
    cases accepted with
    | some span => exact .pure _
    | none => exact ih

theorem alike_integerLiteral (negative : Bool) (start : Span) :
    Alike (integerLiteral negative start) := by
  intro s hs
  refine .get_bind (by simp) ?_
  dsimp only
  split
  · exact alike_advance.bind (fun _ => .pure _) hs
  · exact alike_failAt (by simp) hs

theorem alike_stringLiteral : Alike stringLiteral := by
  intro s hs
  refine .get_bind (by simp) ?_
  dsimp only
  split
  · exact alike_advance.bind (fun _ => .pure _) hs
  · next fault hfault =>
    refine alike_failAt ?_ hs
    rintro rfl
    obtain ⟨c, hc⟩ | hc := Literal.isEscapeFault_of_string hfault <;> cases hc

/-! ## Expressions -/

/-- The readers of expressions do the same in both streams. -/
structure ExpressionsAlike (budget : Nat) : Prop where
  expression : Alike (expression budget)
  binary : ∀ tables, Alike (binary budget tables)
  operators : ∀ table tighter left, Alike (operators budget table tighter left)
  unary : Alike (unary budget)
  primary : Alike (primary budget)
  call : ∀ name start, Alike (call budget name start)
  arguments : Alike (arguments budget)

namespace ExpressionsAlike

theorem zero : ExpressionsAlike 0 where
  expression := .exhausted
  binary _ := .exhausted
  operators _ _ _ := .exhausted
  unary := .exhausted
  primary := .exhausted
  call _ _ := .exhausted
  arguments := .exhausted

variable (ih : ExpressionsAlike budget)
include ih

theorem binary_succ (tables : List (List (Mark × BinaryOp))) :
    Alike (Parser.binary (budget + 1) tables) := by
  cases tables with
  | nil => exact ih.unary
  | cons table tighter =>
    exact (ih.binary tighter).bind fun left => ih.operators table tighter left

theorem operators_succ (table : List (Mark × BinaryOp)) (tighter : List (List (Mark × BinaryOp)))
    (left : Expr) : Alike (Parser.operators (budget + 1) table tighter left) := by
  refine (alike_acceptOperator? table).bind fun accepted => ?_
  cases accepted with
  | some operator => exact (ih.binary tighter).bind fun right => ih.operators table tighter _
  | none => exact .pure left

theorem unary_succ : Alike (Parser.unary (budget + 1)) := by
  intro s hs
  refine .get_bind (by simp) ?_
  split
  · exact alike_advance.bind (fun _ => alike_integerLiteral true _) hs
  · refine (alike_acceptOperator? unaryOperators).bind (fun accepted => ?_) hs
    cases accepted with
    | some operator => exact ih.unary.bind fun operand => .pure _
    | none => exact ih.primary

theorem primary_succ : Alike (Parser.primary (budget + 1)) := by
  intro s hs
  by_cases hrest : s.rest = []
  · -- past the end, the one goes on for ever and the other lacks an expression
    obtain ⟨ts, last, depth⟩ := s
    obtain rfl : ts = [] := hrest
    unfold AlikeAt wp
    rw [(expressionsSpin hs depth (budget + 1)).primary]
    exact ⟨rfl, nofun, .inr ⟨rfl, _, _, ⟨last.span, rfl⟩, rfl, rfl⟩⟩
  · refine .get_bind (by rw [view_closed hrest]) ?_
    have hunexpected : AlikeAt s (unexpected .expression : ParseM Expr) :=
      alikeAt_unexpected (.inr hrest) hs
    dsimp only
    cases s.view.kind with
    | integer => exact alike_integerLiteral false _ hs
    | string => exact alike_stringLiteral hs
    | identifier =>
      exact alike_expectIdentifier.bind (fun r => .ite_sees (ih.call r.1 r.2) (.pure _)) hs
    | keyword k =>
      cases k with
      | trueKw | falseKw => exact alike_advance.bind (fun _ => .pure _) hs
      | _ => exact hunexpected
    | mark m =>
      cases m with
      | leftParen =>
        exact alike_advance.bind (fun _ => ih.expression.bind fun inner =>
          (alike_expect _).bind fun _ => .pure inner) hs
      | _ => exact hunexpected
    | _ => exact hunexpected

theorem call_succ (name : String) (start : Span) :
    Alike (Parser.call (budget + 1) name start) :=
  (alike_expect _).bind fun _ => .ite_sees_bind (.pure []) ih.arguments fun _ =>
    (alike_expect _).bind fun _ => .pure _

theorem arguments_succ : Alike (Parser.arguments (budget + 1)) := by
  refine ih.expression.bind fun first => (alike_accept? _).bind fun comma => ?_
  cases comma with
  | some _ => exact ih.arguments.bind fun _ => .pure _
  | none => exact .pure _

theorem succ : ExpressionsAlike (budget + 1) where
  expression := ih.binary precedence
  binary := ih.binary_succ
  operators := ih.operators_succ
  unary := ih.unary_succ
  primary := ih.primary_succ
  call := ih.call_succ
  arguments := ih.arguments_succ

end ExpressionsAlike

theorem expressionsAlike (budget : Nat) : ExpressionsAlike budget := by
  induction budget with
  | zero => exact .zero
  | succ budget ih => exact ih.succ

/-! ## Simple statements -/

theorem alike_semicolon : Alike semicolon := (alike_expect _).bind fun _ => .pure ()

theorem alike_initializer (budget : Nat) : Alike (initializer budget) :=
  (alike_expect _).bind fun _ => (expressionsAlike budget).expression.bind fun value =>
    alike_semicolon.bind fun _ => .pure value

theorem alike_declaration (budget : Nat) : Alike (declaration budget) := by
  refine (alike_expect _).bind fun _ => alike_expectIdentifier.bind fun name =>
    (alike_accept? _).bind fun colon => ?_
  cases colon with
  | some _ =>
    refine alike_expectType.bind fun ty => (alike_accept? _).bind fun stop => ?_
    cases stop with
    | some _ => exact .pure _
    | none => exact (alike_initializer budget).bind fun _ => .pure _
  | none => exact (alike_initializer budget).bind fun _ => .pure _

theorem alike_needs : Alike needs :=
  (alike_expect _).bind fun _ => alike_expectIdentifier.bind fun _ =>
    alike_semicolon.bind fun _ => .pure _

theorem alike_ret (budget : Nat) : Alike (ret budget) :=
  (alike_expect _).bind fun _ =>
    .ite_sees_bind (.pure none) (expressionsAlike budget).expression.map fun _ =>
      alike_semicolon.bind fun _ => .pure _

theorem alike_assignmentOrExpression (budget : Nat) : Alike (assignmentOrExpression budget) := by
  intro s hs
  refine .get_bind (by simp) ?_
  split
  · exact alike_expectIdentifier.bind (fun _ =>
      (alike_initializer budget).bind fun _ => .pure _) hs
  · exact (expressionsAlike budget).expression.bind (fun _ =>
      alike_semicolon.bind fun _ => .pure _) hs

theorem alike_params (budget : Nat) : Alike (params budget) := by
  induction budget with
  | zero => exact .exhausted
  | succ budget ih =>
    refine alike_expectIdentifier.bind fun name => (alike_expect _).bind fun _ =>
      alike_expectType.bind fun ty => (alike_accept? _).bind fun comma => ?_
    cases comma with
    | some _ => exact ih.bind fun _ => .pure _
    | none => exact .pure _

/-! ## Statements -/

/-- Where an expression is lacking nothing is left, so that recovery does not help. -/
theorem Alike.recovering {m : ParseM Stmt} (h : Alike m) : Alike (recovering m) := by
  intro s hs
  unfold AlikeAt wp
  cases hm : m s with
  | ok stmt s₁ =>
    obtain ⟨hlast, hok⟩ := wp_of_ok (h hs) hm
    rw [recovering_ok hm]
    exact ⟨hlast, recovering_ok hok⟩
  | error failure s₁ =>
    obtain ⟨hlast, hlacks, hsame | ⟨rfl, _, s₂, ⟨span, rfl⟩, hend, hother⟩⟩ :=
      wp_of_error (h hs) hm
    · cases failure with
      | exhausted =>
        rw [recovering_exhausted hm]
        exact ⟨hlast, hlacks, .inl (recovering_exhausted hsame)⟩
      | fault fault span =>
        cases hend : s₁.atEnd with
        | true =>
          rw [recovering_atEnd hm hend]
          exact ⟨hlast, hlacks, .inl (recovering_atEnd hsame hend)⟩
        | false =>
          rw [recovering_fault hm hend]
          refine ⟨hlast, ?_⟩
          rw [recovering_fault hsame hend, text_view_closed]
          rfl
    · rw [recovering_exhausted hm]
      exact ⟨hlast, hlacks, .inr ⟨rfl, _, s₂, ⟨span, rfl⟩, hend, recovering_atEnd hother hend⟩⟩

theorem alike_modify_depth (g : Nat → Nat) :
    Alike (modify fun s => { s with depth := g s.depth }) := fun _ _ => ⟨rfl, rfl⟩

theorem Alike.nested (h : Alike m) : Alike (nested m) :=
  (alike_modify_depth (· + 1)).bind fun _ => h.bind fun a =>
    (alike_modify_depth (· - 1)).bind fun _ => .pure a

/-- The readers of statements do the same in both streams. -/
structure StatementsAlike (budget : Nat) : Prop where
  statement : Alike (statement budget)
  strictStatement : Alike (strictStatement budget)
  function : Alike (function budget)
  ifChain : Alike (ifChain budget)
  elseBranches : Alike (elseBranches budget)
  guarded : Alike (guarded budget)
  block : Alike (block budget)
  blockStatements : Alike (blockStatements budget)

namespace StatementsAlike

theorem zero : StatementsAlike 0 where
  statement := .exhausted
  strictStatement := .exhausted
  function := .exhausted
  ifChain := .exhausted
  elseBranches := .exhausted
  guarded := .exhausted
  block := .exhausted
  blockStatements := .exhausted

variable (ih : StatementsAlike budget)
include ih

theorem function_succ : Alike (Parser.function (budget + 1)) := by
  refine (alike_expect _).bind fun _ => alike_expectIdentifier.bind fun name =>
    (alike_expect _).bind fun _ => .ite_sees_bind (.pure []) (alike_params budget) fun list =>
      (alike_expect _).bind fun _ => (alike_accept? _).bind fun arrow => ?_
  cases arrow with
  | some _ => exact alike_expectType.map.bind fun _ => ih.block.bind fun _ => .pure _
  | none => exact (Alike.pure none).bind fun _ => ih.block.bind fun _ => .pure _

theorem ifChain_succ : Alike (Parser.ifChain (budget + 1)) :=
  (alike_expect _).bind fun _ => ih.guarded.bind fun _ => ih.elseBranches.bind fun _ => .pure _

theorem elseBranches_succ : Alike (Parser.elseBranches (budget + 1)) := by
  refine (alike_accept? _).bind fun accepted => ?_
  cases accepted with
  | some elseSpan =>
    refine (alike_accept? _).bind fun accepted => ?_
    cases accepted with
    | some ifSpan => exact ih.guarded.bind fun _ => ih.elseBranches.bind fun _ => .pure _
    | none => exact ih.block.bind fun _ => .pure _
  | none => exact .pure _

theorem guarded_succ : Alike (Parser.guarded (budget + 1)) :=
  (alike_expect _).bind fun _ => (expressionsAlike budget).expression.bind fun _ =>
    (alike_expect _).bind fun _ => ih.block.bind fun _ => .pure _

theorem block_succ : Alike (Parser.block (budget + 1)) := by
  rw [block_eq]
  exact (alike_expect _).bind fun _ => ih.blockStatements.nested.bind fun _ =>
    (alike_expect _).bind fun _ => .pure _

theorem blockStatements_succ : Alike (Parser.blockStatements (budget + 1)) := by
  intro s hs
  refine .get_bind (by simp) ?_
  split
  · exact Alike.pure [] hs
  · exact ih.statement.bind (fun _ => ih.blockStatements.bind fun _ => .pure _) hs

/-- A parenthesis begins no statement but one that is an expression. -/
theorem strictStatement_succ : Alike (Parser.strictStatement (budget + 1)) := by
  intro s hs
  have hother := alike_assignmentOrExpression budget
  by_cases hrest : s.rest = []
  · obtain ⟨ts, ⟨kind, text, span⟩, depth⟩ := s
    obtain rfl : ts = [] := hrest
    obtain rfl : kind = .mark .leftParen := hs
    exact .get_bind rfl (hother rfl)
  · refine .get_bind (by rw [view_closed hrest]; rfl) ?_
    cases s.view.kind with
    | keyword k =>
      cases k with
      | letKw => exact alike_declaration budget hs
      | needsKw => exact alike_needs hs
      | fnKw =>
        dsimp only
        split
        · exact alike_failAt (by simp) hs
        · exact ih.function hs
      | ifKw => exact ih.ifChain hs
      | whileKw =>
        exact (alike_expect _).bind (fun _ => ih.guarded.bind fun _ => .pure _) hs
      | returnKw => exact alike_ret budget hs
      | breakKw | continueKw =>
        exact (alike_expect _).bind (fun _ => alike_semicolon.bind fun _ => .pure _) hs
      | _ => exact hother hs
    | mark m =>
      cases m with
      | leftBrace => exact ih.block.bind (fun _ => .pure _) hs
      | _ => exact hother hs
    | _ => exact hother hs

theorem succ : StatementsAlike (budget + 1) where
  statement := ih.strictStatement.recovering
  strictStatement := ih.strictStatement_succ
  function := ih.function_succ
  ifChain := ih.ifChain_succ
  elseBranches := ih.elseBranches_succ
  guarded := ih.guarded_succ
  block := ih.block_succ
  blockStatements := ih.blockStatements_succ

end StatementsAlike

theorem statementsAlike (budget : Nat) : StatementsAlike budget := by
  induction budget with
  | zero => exact .zero
  | succ budget ih => exact ih.succ

/-! ## Programs -/

theorem alike_programStatements (budget : Nat) : Alike (programStatements budget) := by
  induction budget with
  | zero => exact .exhausted
  | succ budget ih =>
    intro s hs
    refine .get_bind (by simp) ?_
    split
    · exact Alike.pure [] hs
    · exact (statementsAlike budget).statement.bind (fun _ => ih.bind fun _ => .pure _) hs

/-- Runs that do not spend their budgets come to the same. -/
theorem programStatements_completed {budget' : Nat}
    {r r' : EStateM.Result Failure State (List Stmt)}
    (h : programStatements budget s = r) (hr : ∀ s₁, r ≠ .error .exhausted s₁)
    (h' : programStatements budget' s = r') (hr' : ∀ s₁, r' ≠ .error .exhausted s₁) :
    r = r' := by
  subst h h'
  rcases Nat.le_total budget budget' with hle | hle
  · exact (programStatements_of_completed hr hle).symm
  · exact programStatements_of_completed hr' hle

/-- Where the closed stream lacks an expression, any budget is spent. -/
theorem exhausted_of_lacksExpression {failure : Failure} (hs : s.last.kind = .mark .leftParen)
    (h : programStatements budget s.closed = .error failure s₁)
    (hlacks : failure.LacksExpression) (budget' : Nat) :
    ∃ s₂, programStatements budget' s = .error .exhausted s₂ := by
  have hcompleted : ∀ s₂, (.error failure s₁ : EStateM.Result Failure State (List Stmt)) ≠
      .error .exhausted s₂ := by
    obtain ⟨span, rfl⟩ := hlacks
    exact nofun
  have halike := alike_programStatements budget' hs
  cases hm : programStatements budget' s with
  | ok list s₂ =>
    obtain ⟨-, hok⟩ := wp_of_ok halike hm
    cases programStatements_completed h hcompleted hok nofun
  | error failure' s₂ =>
    obtain ⟨-, hlacks', hsame | ⟨rfl, -⟩⟩ := wp_of_error halike hm
    · by_cases hf : failure' = .exhausted
      · exact ⟨s₂, by rw [hf]⟩
      · -- the closed stream would stop as this one does, which lacks no expression
        cases programStatements_completed h hcompleted hsame (by simp [hf])
        exact absurd hlacks hlacks'
    · exact ⟨s₂, rfl⟩

/-- Reading the stream comes to no end: its last token is an opening parenthesis, and no
budget is enough. -/
def Endless (tokens : List Token) : Prop :=
  ∃ last, tokens.getLast? = some last ∧ last.kind = .mark .leftParen ∧
    ∀ budget, ∃ s, programStatements budget ⟨tokens, last, 0⟩ = .error .exhausted s

/-- A stream that spends the budget which is enough for any other is never read to an end. -/
theorem Endless.of_exhausted {tokens : List Token} {last : Token}
    (hlast : tokens.getLast? = some last)
    (h : programStatements (budgetFor tokens.length) ⟨tokens, last, 0⟩ = .error .exhausted s₁) :
    Endless tokens := by
  have hle : 16 * tokens.length + 13 ≤ budgetFor tokens.length := by
    unfold budgetFor
    omega
  have hkind : last.kind = .mark .leftParen := Decidable.byContradiction fun hkind =>
    programStatements_not_exhausted ⟨hkind, hle⟩ h
  -- the closed stream has budget enough, so it must be lacking an expression
  have hclosed : Enough 13 (budgetFor tokens.length) (State.closed ⟨tokens, last, 0⟩) :=
    ⟨nofun, hle⟩
  obtain ⟨-, -, hsame | ⟨-, failure, s₂, hlacks, -, hother⟩⟩ :=
    wp_of_error (alike_programStatements _ hkind) h
  · exact absurd hsame (Reader.not_exhausted .programStatements hclosed)
  · exact ⟨last, hlast, hkind, exhausted_of_lacksExpression hkind hother hlacks⟩

end Slate.Parser

namespace Slate

/-- Nesting without an end is reported of those streams that are never read to one. -/
theorem parse_eq_endlessNesting_iff {tokens : List Token} :
    parse tokens = .error (.ofDefect .endlessNesting) ↔ Parser.Endless tokens := by
  unfold parse
  constructor
  · intro h
    split at h
    · cases h
    · next last hlast =>
      dsimp only at h
      split at h
      · cases h
      · next failure s₁ hrun =>
        cases failure with
        | fault fault span => cases h
        | exhausted => exact .of_exhausted hlast hrun
  · rintro ⟨last, hlast, -, hspends⟩
    obtain ⟨s, hs⟩ := hspends (Parser.budgetFor tokens.length)
    simp only [hlast, hs, Parser.Failure.diagnostic]

/-- The least stream of the kind. -/
example : Parser.Endless [⟨.mark .leftParen, "(", default⟩] := parse_eq_endlessNesting_iff.1 rfl

end Slate
