-- SUMMARY: The parser with a record of every statement that it begins and of the blocks around it, and that the record changes nothing else.
import Slate.Proofs.Syntax.Extension.Statement

/-!
# A record of statements begun

The parser counts the blocks around it in its state, by hand, and recovery repairs the count.
How many blocks are really being read around a place is a matter of the calls that are open
there, and cannot be seen in the state. Here the readers of statements are written out once
more with that number as an argument, and whenever a statement begins, the number and the
state are put down, also if the statement is not read to its end. Without their record these
readers are the readers themselves.
-/

namespace Slate.Parser

/-! ## Records -/

/-- A statement that begins: how many blocks are being read around it, and the state there. -/
structure Start where
  blocks : Nat
  state : State

/-- The state of reading with the statements begun so far, the latest last. -/
structure Traced where
  state : State
  starts : List Start

/-- A reader that puts down which statements begin. -/
abbrev TraceM := EStateM Failure Traced

variable {α β : Type}

namespace Trace

/-- A result without its record. -/
def forget : EStateM.Result Failure Traced α → EStateM.Result Failure State α
  | .ok a r => .ok a r.state
  | .error failure r => .error failure r.state

/-- The record of a result. -/
def starts : EStateM.Result Failure Traced α → List Start
  | .ok _ r | .error _ r => r.starts

/-- A reader in which no statement begins. -/
def plain (m : ParseM α) : TraceM α := fun r =>
  match m r.state with
  | .ok a state => .ok a { r with state }
  | .error failure state => .error failure { r with state }

/-- Puts down that a statement begins inside so many blocks. -/
def mark (blocks : Nat) : TraceM Unit :=
  modify fun r => { r with starts := r.starts ++ [⟨blocks, r.state⟩] }

/-- Recovery keeps the record of the statement that could not be read. -/
def recovering (m : TraceM Stmt) : TraceM Stmt := fun r =>
  plain (Parser.recovering fun _ => forget (m r)) { r with starts := starts (m r) }

end Trace

/-- Reads what stands before the body of a function: its name, its parameters and its type. -/
def heading (budget : Nat) : ParseM ((String × Span) × List Param × Option Ty) := do
  let _ ← expect (.keyword .fnKw)
  let named ← expectIdentifier
  let _ ← expect (.mark .leftParen)
  let list ← if (← get).sees (.mark .rightParen) then pure [] else params budget
  let _ ← expect (.mark .rightParen)
  let returns ← match ← accept? (.mark .arrow) with
    | some _ => some <$> expectType
    | none => pure none
  return (named, list, returns)

/-- Reads what stands before a guarded block: its condition. -/
def guard (budget : Nat) : ParseM Expr := do
  let _ ← expect (.mark .leftParen)
  let condition ← expression budget
  let _ ← expect (.mark .rightParen)
  return condition

/-! ## The traced readers -/

namespace Trace

mutual

/-- Reads a statement, recovering if it cannot be read. -/
def statement (blocks : Nat) : Nat → TraceM Stmt
  | 0 => throw .exhausted
  | budget + 1 => do
    mark blocks
    recovering (strictStatement blocks budget)
termination_by structural budget => budget

/-- Reads a statement. A statement of another kind has none inside. -/
def strictStatement (blocks : Nat) : Nat → TraceM Stmt
  | 0 => throw .exhausted
  | budget + 1 => do
    let s ← plain get
    match s.view.kind with
    | .keyword .fnKw =>
      if s.depth > 0 then plain (failAt .nestedFunction s.view.span) else function blocks budget
    | .keyword .ifKw => ifChain blocks budget
    | .keyword .whileKw =>
      let span ← plain (expect (.keyword .whileKw))
      let (condition, body) ← guarded blocks budget
      return .whileLoop condition body span
    | .mark .leftBrace => return .block (← block blocks budget)
    | _ => plain (Parser.strictStatement (budget + 1))
termination_by structural budget => budget

/-- Reads a function. -/
def function (blocks : Nat) : Nat → TraceM Stmt
  | 0 => throw .exhausted
  | budget + 1 => do
    let ((name, span), list, returns) ← plain (heading budget)
    return .function name list returns (← block blocks budget) span
termination_by structural budget => budget

/-- Reads an `if` with its `else if` branches and its `else`. -/
def ifChain (blocks : Nat) : Nat → TraceM Stmt
  | 0 => throw .exhausted
  | budget + 1 => do
    let span ← plain (expect (.keyword .ifKw))
    let (condition, body) ← guarded blocks budget
    let (branches, otherwise) ← elseBranches blocks budget
    return .ifChain (.mk condition body span :: branches) otherwise span
termination_by structural budget => budget

/-- Reads the `else if` branches that follow, and the `else` if there is one. -/
def elseBranches (blocks : Nat) : Nat → TraceM (List Branch × Option Block)
  | 0 => throw .exhausted
  | budget + 1 => do
    match ← plain (accept? (.keyword .elseKw)) with
    | some elseSpan =>
      match ← plain (accept? (.keyword .ifKw)) with
      | some ifSpan =>
        let (condition, body) ← guarded blocks budget
        let (branches, otherwise) ← elseBranches blocks budget
        return (.mk condition body (elseSpan.merge ifSpan) :: branches, otherwise)
      | none => return ([], some (← block blocks budget))
    | none => return ([], none)
termination_by structural budget => budget

/-- Reads a condition in parentheses and the block behind it. -/
def guarded (blocks : Nat) : Nat → TraceM (Expr × Block)
  | 0 => throw .exhausted
  | budget + 1 => do
    let condition ← plain (guard budget)
    return (condition, ← block blocks budget)
termination_by structural budget => budget

/-- Reads a block. The statements in it have one more block around them. -/
def block (blocks : Nat) : Nat → TraceM Block
  | 0 => throw .exhausted
  | budget + 1 => do
    let start ← plain (expect (.mark .leftBrace))
    plain (modify fun s => { s with depth := s.depth + 1 })
    let list ← blockStatements (blocks + 1) budget
    plain (modify fun s => { s with depth := s.depth - 1 })
    let stop ← plain (expect (.mark .rightBrace))
    return .mk list (start.merge stop)
termination_by structural budget => budget

/-- Reads statements up to a closing brace or the end of the input. -/
def blockStatements (blocks : Nat) : Nat → TraceM (List Stmt)
  | 0 => throw .exhausted
  | budget + 1 => do
    let s ← plain get
    if s.sees (.mark .rightBrace) || s.atEnd then
      return []
    else
      let first ← statement blocks budget
      return first :: (← blockStatements blocks budget)
termination_by structural budget => budget

end

/-- Reads statements up to the end of the input. No block is around them. -/
def programStatements : Nat → TraceM (List Stmt)
  | 0 => throw .exhausted
  | budget + 1 => do
    if (← plain get).atEnd then
      return []
    else
      let first ← statement 0 budget
      return first :: (← programStatements budget)

end Trace

/-- The program that a stream of tokens spells, and the statements begun on the way. -/
def tracedParse (tokens : List Token) : Except Diagnostic Program × List Start :=
  match tokens.getLast? with
  | none => (.ok ⟨[]⟩, [])
  | some last =>
    let start := { state := { rest := tokens, last, depth := 0 }, starts := [] }
    match Trace.programStatements (budgetFor tokens.length) start with
    | .ok statements r => (.ok ⟨statements⟩, r.starts)
    | .error failure r => (.error failure.diagnostic, r.starts)

/-- The statements that are begun while a stream of tokens is read. -/
def statementStarts (tokens : List Token) : List Start := (tracedParse tokens).2

/-! ## Parts of the readers -/

theorem function_eq (budget : Nat) : function (budget + 1) = (do
    let ((name, span), list, returns) ← heading budget
    return .function name list returns (← block budget) span) := by
  unfold function heading
  simp only [bind_assoc]
  refine bind_congr fun _ => bind_congr fun named => bind_congr fun _ => bind_congr fun s => ?_
  split
  all_goals
    simp only [bind_assoc]
    refine bind_congr fun list => bind_congr fun _ => bind_congr fun arrow => ?_
    cases arrow <;> simp only [bind_assoc, pure_bind]

theorem guarded_eq (budget : Nat) : guarded (budget + 1) = (do
    let condition ← guard budget
    return (condition, ← block budget)) := by
  simp only [guarded, guard, bind_assoc, pure_bind]

/-! ## Forgetting the record -/

namespace Trace

/-- Without its record, the traced reader is `m'`. -/
def Forgets (m : TraceM α) (m' : ParseM α) : Prop := ∀ r, forget (m r) = m' r.state

variable {m : TraceM α} {m' : ParseM α} {f : α → TraceM β} {f' : α → ParseM β}

theorem forgets_pure (a : α) : Forgets (pure a) (pure a) := fun _ => rfl

theorem forgets_throw (failure : Failure) : Forgets (throw failure : TraceM α) (throw failure) :=
  fun _ => rfl

theorem forgets_plain (m : ParseM α) : Forgets (plain m) m := by
  intro r
  unfold plain
  cases m r.state <;> rfl

theorem Forgets.bind (hm : Forgets m m') (hf : ∀ a, Forgets (f a) (f' a)) :
    Forgets (m >>= f) (m' >>= f') := by
  intro r
  have hrun := hm r
  simp only [Bind.bind, EStateM.bind, ← hrun]
  cases m r with
  | ok a r₁ => exact hf a r₁
  | error failure r₁ => rfl

theorem Forgets.mark {blocks : Nat} (hm : Forgets m m') :
    Forgets (Trace.mark blocks >>= fun _ => m) m' :=
  fun r => hm { r with starts := r.starts ++ [⟨blocks, r.state⟩] }

theorem Forgets.recovering {m : TraceM Stmt} {m' : ParseM Stmt} (hm : Forgets m m') :
    Forgets (recovering m) (Parser.recovering m') := by
  intro r
  rw [Trace.recovering, forgets_plain, hm r]
  rfl

/-- The traced readers of statements are the readers of statements. -/
structure StatementsForget (budget : Nat) : Prop where
  statement : ∀ blocks, Forgets (statement blocks budget) (Parser.statement budget)
  strictStatement : ∀ blocks,
    Forgets (strictStatement blocks budget) (Parser.strictStatement budget)
  function : ∀ blocks, Forgets (function blocks budget) (Parser.function budget)
  ifChain : ∀ blocks, Forgets (ifChain blocks budget) (Parser.ifChain budget)
  elseBranches : ∀ blocks, Forgets (elseBranches blocks budget) (Parser.elseBranches budget)
  guarded : ∀ blocks, Forgets (guarded blocks budget) (Parser.guarded budget)
  block : ∀ blocks, Forgets (block blocks budget) (Parser.block budget)
  blockStatements : ∀ blocks,
    Forgets (blockStatements blocks budget) (Parser.blockStatements budget)

namespace StatementsForget

theorem zero : StatementsForget 0 where
  statement _ := forgets_throw _
  strictStatement _ := forgets_throw _
  function _ := forgets_throw _
  ifChain _ := forgets_throw _
  elseBranches _ := forgets_throw _
  guarded _ := forgets_throw _
  block _ := forgets_throw _
  blockStatements _ := forgets_throw _

variable {budget : Nat} (ih : StatementsForget budget) (blocks : Nat)
include ih

theorem strictStatement_succ :
    Forgets (Trace.strictStatement blocks (budget + 1)) (Parser.strictStatement (budget + 1)) := by
  intro r
  have hother := forgets_plain (Parser.strictStatement (budget + 1)) r
  have hget (f : State → TraceM Stmt) : (plain get >>= f) r = f r.state r := rfl
  rw [Trace.strictStatement, hget]
  unfold Parser.strictStatement at hother ⊢
  rw [get_bind_apply] at hother ⊢
  -- where no statement is inside, the two are the same reader
  cases hk : r.state.view.kind with
  | keyword k =>
    cases k with
    | fnKw =>
      dsimp only
      split
      · exact forgets_plain _ r
      · exact ih.function blocks r
    | ifKw => exact ih.ifChain blocks r
    | whileKw =>
      exact (forgets_plain _).bind (fun _ => (ih.guarded blocks).bind fun _ => forgets_pure _) r
    | _ =>
      rw [hk] at hother
      exact hother
  | mark m =>
    cases m with
    | leftBrace => exact (ih.block blocks).bind (fun _ => forgets_pure _) r
    | _ =>
      rw [hk] at hother
      exact hother
  | _ =>
    rw [hk] at hother
    exact hother

theorem function_succ :
    Forgets (Trace.function blocks (budget + 1)) (Parser.function (budget + 1)) := by
  unfold Trace.function
  rw [function_eq]
  exact (forgets_plain _).bind fun _ => (ih.block blocks).bind fun _ => forgets_pure _

theorem ifChain_succ :
    Forgets (Trace.ifChain blocks (budget + 1)) (Parser.ifChain (budget + 1)) := by
  unfold Trace.ifChain Parser.ifChain
  exact (forgets_plain _).bind fun _ => (ih.guarded blocks).bind fun _ =>
    (ih.elseBranches blocks).bind fun _ => forgets_pure _

theorem elseBranches_succ :
    Forgets (Trace.elseBranches blocks (budget + 1)) (Parser.elseBranches (budget + 1)) := by
  unfold Trace.elseBranches Parser.elseBranches
  refine (forgets_plain _).bind fun found => ?_
  cases found with
  | none => exact forgets_pure _
  | some elseSpan =>
    refine (forgets_plain _).bind fun found => ?_
    cases found with
    | none => exact (ih.block blocks).bind fun _ => forgets_pure _
    | some ifSpan =>
      exact (ih.guarded blocks).bind fun _ => (ih.elseBranches blocks).bind fun _ =>
        forgets_pure _

theorem guarded_succ :
    Forgets (Trace.guarded blocks (budget + 1)) (Parser.guarded (budget + 1)) := by
  unfold Trace.guarded
  rw [guarded_eq]
  exact (forgets_plain _).bind fun _ => (ih.block blocks).bind fun _ => forgets_pure _

theorem block_succ : Forgets (Trace.block blocks (budget + 1)) (Parser.block (budget + 1)) := by
  unfold Trace.block Parser.block
  exact (forgets_plain _).bind fun _ => (forgets_plain _).bind fun _ =>
    (ih.blockStatements _).bind fun _ => (forgets_plain _).bind fun _ =>
      (forgets_plain _).bind fun _ => forgets_pure _

theorem blockStatements_succ :
    Forgets (Trace.blockStatements blocks (budget + 1)) (Parser.blockStatements (budget + 1)) := by
  unfold Trace.blockStatements Parser.blockStatements
  refine (forgets_plain get).bind fun s => ?_
  split
  · exact forgets_pure _
  · exact (ih.statement blocks).bind fun _ => (ih.blockStatements blocks).bind fun _ =>
      forgets_pure _

theorem succ : StatementsForget (budget + 1) where
  statement blocks := by
    unfold Trace.statement Parser.statement
    exact (ih.strictStatement blocks).recovering.mark
  strictStatement := ih.strictStatement_succ
  function := ih.function_succ
  ifChain := ih.ifChain_succ
  elseBranches := ih.elseBranches_succ
  guarded := ih.guarded_succ
  block := ih.block_succ
  blockStatements := ih.blockStatements_succ

end StatementsForget

theorem statementsForget (budget : Nat) : StatementsForget budget := by
  induction budget with
  | zero => exact .zero
  | succ budget ih => exact ih.succ

theorem forgets_programStatements (budget : Nat) :
    Forgets (programStatements budget) (Parser.programStatements budget) := by
  induction budget with
  | zero => exact forgets_throw _
  | succ budget ih =>
    unfold programStatements Parser.programStatements
    refine (forgets_plain get).bind fun s => ?_
    split
    · exact forgets_pure _
    · exact ((statementsForget budget).statement 0).bind fun _ => ih.bind fun _ => forgets_pure _

end Trace

/-- Traced or not, a stream of tokens spells the same program. -/
theorem tracedParse_parse (tokens : List Token) : (tracedParse tokens).1 = parse tokens := by
  unfold tracedParse parse
  cases tokens.getLast? with
  | none => rfl
  | some last =>
    have hrun := Trace.forgets_programStatements (budgetFor tokens.length)
      { state := { rest := tokens, last, depth := 0 }, starts := [] }
    dsimp only at hrun ⊢
    rw [← hrun]
    cases Trace.programStatements (budgetFor tokens.length)
      { state := { rest := tokens, last, depth := 0 }, starts := [] } <;> rfl

end Slate.Parser
