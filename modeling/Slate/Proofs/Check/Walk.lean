-- SUMMARY: What each part of the walk over a program does, and one induction for all facts about whole walks.
import Slate.Check
import Slate.Proofs.Run

/-!
# Walks over programs

The primitive steps of the checker come first, each with its weakest
precondition. Blocks, loops and functions are then read as constructions around
a part of the walk. A fact about whole walks, given as a relation between the
states before and after and a condition on failures, is proved once for every
construction: `Stmt.check_walk` carries it over to every statement.
-/

namespace Slate

namespace Check

/-! ## Primitive steps -/

section Steps

variable {α : Type} {s : CheckState} {F : Diagnostic → CheckState → Prop}

theorem wp_refuse {cause : Cause} {span : Span} {Q : α → CheckState → Prop} :
    wp (refuse cause span) Q F s ↔ F (.spanned cause span) s := Iff.rfl

theorem wp_require {r : Except Diagnostic α} {Q : α → CheckState → Prop} :
    wp (require r) Q F s ↔ (∀ a, r = .ok a → Q a s) ∧ (∀ d, r = .error d → F d s) := by
  cases r with
  | ok a => simp [require, wp_pure]
  | error d => simp [require, wp_throw]

theorem wp_requireFresh {name : String} {span : Span} {Q : Unit → CheckState → Prop} :
    wp (requireFresh name span) Q F s ↔
      (s.table.lookup? name = none → Q () s) ∧
        (∀ existing, s.table.lookup? name = some existing →
          F (Table.redeclaration name existing span) s) := by
  rw [requireFresh, wp_bind, wp_get]
  split
  · next existing h => simp [h, wp_throw]
  · next h => simp [h, wp_pure]

theorem wp_define {symbol : Symbol} {Q : Unit → CheckState → Prop} :
    wp (define symbol) Q F s ↔
      (∀ table, s.table.define symbol = .ok table → Q () { s with table }) ∧
        (∀ d, s.table.define symbol = .error d → F d s) := by
  rw [define, wp_bind, wp_get, wp_bind, wp_require]
  rfl

theorem wp_enterBlock {start : Location} {Q : Unit → CheckState → Prop} :
    wp (enterBlock start) Q F s ↔
      Q () { s with
        table := s.table.enter (some start)
        events := s.events.push (.enterScope s.table.scopes.length s.table.current) } := Iff.rfl

theorem wp_exitBlock {Q : Unit → CheckState → Prop} :
    wp exitBlock Q F s ↔
      (∀ outer, s.table.exit = .ok outer → Q () { s with
        table := outer
        events := s.events.push (.exitScope s.table.current outer.current) }) ∧
        (∀ d, s.table.exit = .error d → F d s) := by
  rw [exitBlock, wp_bind, wp_get, wp_bind, wp_require]
  rfl

theorem wp_insideLoop {span : Span} {body : CheckM Unit}
    {Q : Option LoopContext → CheckState → Prop} :
    wp (insideLoop span body) Q F s ↔
      wp body (fun _ s' => Q s'.loops.head? { s' with loops := s'.loops.tail })
        (fun d s' => F d { s' with loops := s'.loops.tail })
        { s with loops := { span, hasBreak := false } :: s.loops } := by
  unfold wp insideLoop
  cases body { s with loops := { span, hasBreak := false } :: s.loops } <;> exact Iff.rfl

theorem wp_insideFunction {context : FunctionContext} {body : CheckM Unit}
    {Q : Option FunctionContext → CheckState → Prop} :
    wp (insideFunction context body) Q F s ↔
      wp body (fun _ s' => Q s'.function { s' with function := s.function })
        (fun d s' => F d { s' with function := s.function })
        { s with function := some context } := by
  unfold wp insideFunction
  cases body { s with function := some context } <;> exact Iff.rfl

/-- What is bound and is no function has a type, so that no variable is found without one. -/
theorem assignment_eq (name : String) (e : Expr) (span : Span) :
    assignment name e span = (do
      match (← get).table.lookup? name with
      | none => refuse (.assignmentToUndeclared name) span
      | some (.function ..) => refuse (.assignmentToFunction name) span
      | some (.var v) => requireValue v.value.ty e span) := by
  refine bind_congr fun s => ?_
  cases s.table.lookup? name with
  | none => rfl
  | some symbol => cases symbol <;> rfl

end Steps

/-! ## Constructions around a part of the walk -/

/-- A part of the walk in a scope of its own. -/
def insideBlock (start : Location) (m : CheckM Unit) : CheckM Unit := do
  enterBlock start
  m
  exitBlock

/-- A part of the walk as the body of a loop. -/
def loopBody (span : Span) (m : CheckM Unit) : CheckM Unit := do
  let loop ← insideLoop span m
  reportLoop loop

/-- The context in which the body of a function begins. -/
def functionStart (name : String) (returns : Option Ty) : FunctionContext :=
  { name, returns := .start (returns.getD .void) }

/-- A part of the walk as the body of a function. -/
def functionBody (name : String) (params : List Param) (returns : Option Ty) (body : Block)
    (span : Span) (m : CheckM Unit) : CheckM Unit := do
  let (symbols, symbol) ← functionHead name params returns span
  enterBlock body.span.start
  defineAll symbols
  let context ← insideFunction (functionStart name returns) m
  exitBlock
  functionTail name returns body span symbol context

end Check

theorem Block.check_eq (body : Block) :
    body.check = Check.insideBlock body.span.start (checkAll body.statements) := by
  cases body with
  | mk statements span => rw [Block.check]; rfl

theorem Stmt.check_function (name : String) (params : List Param) (returns : Option Ty)
    (body : Block) (span : Span) :
    (Stmt.function name params returns body span).check =
      Check.functionBody name params returns body span (checkAll body.statements) := by
  cases body with
  | mk statements bodySpan => rw [Stmt.check]; rfl

theorem Stmt.check_whileLoop (test : Expr) (body : Block) (span : Span) :
    (Stmt.whileLoop test body span).check = (do
      Check.condition .whileLoop test span
      Check.loopBody span body.check) := by
  rw [Stmt.check]; rfl

/-! ## Facts about whole walks -/

/-- Statements without statements inside. -/
def Stmt.isSimple : Stmt → Bool
  | .function .. | .ifChain .. | .whileLoop .. | .block _ => false
  | _ => true

mutual

/-- The statements without statements inside that a statement is made of. -/
def Stmt.simples : Stmt → List Stmt
  | .function _ _ _ body _ => body.simples
  | .ifChain branches none _ => branchSimples branches
  | .ifChain branches (some otherwise) _ => branchSimples branches ++ otherwise.simples
  | .whileLoop _ body _ => body.simples
  | .block body => body.simples
  | stmt => [stmt]

def Block.simples : Block → List Stmt
  | .mk statements _ => allSimples statements

def allSimples : List Stmt → List Stmt
  | [] => []
  | stmt :: statements => stmt.simples ++ allSimples statements

def branchSimples : List Branch → List Stmt
  | [] => []
  | .mk _ body _ :: branches => body.simples ++ branchSimples branches

end

/-- The statements without statements inside that a program is made of. -/
def Program.simples (p : Program) : List Stmt := allSimples p.statements

mutual

theorem Stmt.isSimple_of_mem : (stmt : Stmt) → ∀ inner ∈ stmt.simples, inner.isSimple = true
  | .function _ _ _ body _ => body.isSimple_of_mem
  | .ifChain branches none _ => isSimple_of_mem_branches branches
  | .ifChain branches (some otherwise) _ => by
    rw [Stmt.simples, List.forall_mem_append]
    exact ⟨isSimple_of_mem_branches branches, otherwise.isSimple_of_mem⟩
  | .whileLoop _ body _ => body.isSimple_of_mem
  | .block body => body.isSimple_of_mem
  | .needs .. | .declare .. | .define .. | .assign .. | .ret .. | .breakLoop _
  | .continueLoop _ | .expression .. | .error .. => List.forall_mem_singleton.2 rfl

theorem Block.isSimple_of_mem : (body : Block) → ∀ inner ∈ body.simples, inner.isSimple = true
  | .mk statements _ => isSimple_of_mem_all statements

theorem isSimple_of_mem_all :
    (statements : List Stmt) → ∀ inner ∈ allSimples statements, inner.isSimple = true
  | [] => nofun
  | stmt :: statements => by
    rw [allSimples, List.forall_mem_append]
    exact ⟨stmt.isSimple_of_mem, isSimple_of_mem_all statements⟩

theorem isSimple_of_mem_branches :
    (branches : List Branch) → ∀ inner ∈ branchSimples branches, inner.isSimple = true
  | [] => nofun
  | .mk _ body _ :: branches => by
    rw [branchSimples, List.forall_mem_append]
    exact ⟨body.isSimple_of_mem, isSimple_of_mem_branches branches⟩

end

namespace Check

/-- A part of the walk takes every state to one that is related to it by `R`, or
fails as `F` allows. -/
def Keeps (R : CheckState → CheckState → Prop) (F : CheckState → Diagnostic → CheckState → Prop)
    (m : CheckM Unit) : Prop :=
  ∀ s, wp m (fun _ s' => R s s') (fun d s' => F s d s') s

/-- A relation and a condition on failures that parts of a walk hand on from one to
the next. -/
structure Thread (R : CheckState → CheckState → Prop)
    (F : CheckState → Diagnostic → CheckState → Prop) : Prop where
  refl : ∀ s, R s s
  trans : ∀ {s₁ s₂ s₃}, R s₁ s₂ → R s₂ s₃ → R s₁ s₃
  fails : ∀ {s₁ s₂ s₃ d}, R s₁ s₂ → F s₂ d s₃ → F s₁ d s₃

/-- What has to be shown of a relation and a condition on failures for a walk to keep
them around its simple statements: conditions do, and the constructions around a part
of the walk pass them on. -/
structure Around (R : CheckState → CheckState → Prop)
    (F : CheckState → Diagnostic → CheckState → Prop) : Prop extends Thread R F where
  condition : ∀ construct e span, Keeps R F (condition construct e span)
  block : ∀ {start m}, Keeps R F m → Keeps R F (insideBlock start m)
  loop : ∀ {span m}, Keeps R F m → Keeps R F (loopBody span m)
  function : ∀ {name params returns body span m}, Keeps R F m →
    Keeps R F (functionBody name params returns body span m)

/-- What has to be shown for all walks to keep them: simple statements do too. -/
structure Walk (R : CheckState → CheckState → Prop)
    (F : CheckState → Diagnostic → CheckState → Prop) : Prop extends Around R F where
  simple : ∀ {stmt : Stmt}, stmt.isSimple = true → Keeps R F stmt.check

section Thread

variable {R : CheckState → CheckState → Prop} {F : CheckState → Diagnostic → CheckState → Prop}

theorem Thread.seq (h : Thread R F) {m : CheckM Unit} {n : Unit → CheckM Unit} (hm : Keeps R F m)
    (hn : Keeps R F (n ())) : Keeps R F (m >>= n) := by
  intro s
  rw [wp_bind]
  apply wp_mono (hm s)
  · intro _ s₁ h₁
    apply wp_mono (hn s₁)
    · intro _ s₂ h₂
      exact h.trans h₁ h₂
    · intro d s₂ h₂
      exact h.fails h₁ h₂
  · intro d s₁ h₁
    exact h₁

theorem Thread.done (h : Thread R F) : Keeps R F (pure ()) := fun s => h.refl s

theorem Keeps.of_ok {m : CheckM Unit} {s s' : CheckState} (h : Keeps R F m)
    (hm : m s = .ok () s') : R s s' := by
  have hs := h s
  rw [wp, hm] at hs
  exact hs

/-- Where any failure will do, the runs that succeed are all that matters. -/
theorem keeps_of_ok {m : CheckM Unit} (h : ∀ ⦃s s'⦄, m s = .ok () s' → R s s') :
    Keeps R (fun _ _ _ => True) m := by
  intro s
  unfold wp
  split
  · next s' hm => exact h hm
  · trivial

end Thread

namespace Around

variable {R : CheckState → CheckState → Prop} {F : CheckState → Diagnostic → CheckState → Prop}

theorem elseConditions (h : Around R F) (branches : List Branch) :
    Keeps R F (elseConditions branches) := by
  induction branches with
  | nil => exact h.done
  | cons branch branches ih =>
    obtain ⟨test, _, span⟩ := branch
    exact h.seq (h.condition .elseIfBranch test span) ih

theorem conditions (h : Around R F) (branches : List Branch) : Keeps R F (conditions branches) := by
  cases branches with
  | nil => exact h.done
  | cons branch branches =>
    obtain ⟨test, _, span⟩ := branch
    exact h.seq (h.condition .ifBranch test span) (h.elseConditions branches)

end Around

end Check

open Check in
mutual

/-- What the simple statements in it keep and the constructions pass on, a statement
keeps. -/
theorem Stmt.check_around {R : CheckState → CheckState → Prop}
    {F : CheckState → Diagnostic → CheckState → Prop} (h : Around R F) :
    (stmt : Stmt) → (∀ inner ∈ stmt.simples, Keeps R F inner.check) → Keeps R F stmt.check
  | .function name params returns (.mk statements bodySpan) span, hs => by
    rw [Stmt.check_function]
    exact h.function (checkAll_around h statements hs)
  | .ifChain branches none _, hs => by
    rw [Stmt.check]
    exact h.seq (h.conditions branches) (h.seq (checkBranches_around h branches hs) h.done)
  | .ifChain branches (some body) _, hs => by
    rw [Stmt.simples, List.forall_mem_append] at hs
    rw [Stmt.check]
    exact h.seq (h.conditions branches)
      (h.seq (checkBranches_around h branches hs.1) (body.check_around h hs.2))
  | .whileLoop test body span, hs => by
    rw [Stmt.check_whileLoop]
    exact h.seq (h.condition .whileLoop test span) (h.loop (body.check_around h hs))
  | .block body, hs => by
    rw [Stmt.check]
    exact body.check_around h hs
  | .needs .., hs | .declare .., hs | .define .., hs | .assign .., hs | .ret .., hs
  | .breakLoop _, hs | .continueLoop _, hs | .expression .., hs | .error .., hs =>
    hs _ List.mem_cons_self

theorem Block.check_around {R : CheckState → CheckState → Prop}
    {F : CheckState → Diagnostic → CheckState → Prop} (h : Around R F) :
    (body : Block) → (∀ inner ∈ body.simples, Keeps R F inner.check) → Keeps R F body.check
  | .mk statements span, hs => by
    rw [Block.check_eq]
    exact h.block (checkAll_around h statements hs)

theorem checkAll_around {R : CheckState → CheckState → Prop}
    {F : CheckState → Diagnostic → CheckState → Prop} (h : Around R F) :
    (statements : List Stmt) → (∀ inner ∈ allSimples statements, Keeps R F inner.check) →
      Keeps R F (checkAll statements)
  | [], _ => h.done
  | stmt :: statements, hs => by
    rw [allSimples, List.forall_mem_append] at hs
    rw [checkAll]
    exact h.seq (stmt.check_around h hs.1) (checkAll_around h statements hs.2)

theorem checkBranches_around {R : CheckState → CheckState → Prop}
    {F : CheckState → Diagnostic → CheckState → Prop} (h : Around R F) :
    (branches : List Branch) → (∀ inner ∈ branchSimples branches, Keeps R F inner.check) →
      Keeps R F (checkBranches branches)
  | [], _ => h.done
  | .mk _ body _ :: branches, hs => by
    rw [branchSimples, List.forall_mem_append] at hs
    rw [checkBranches]
    exact h.seq (body.check_around h hs.1) (checkBranches_around h branches hs.2)

end

section Walk

variable {R : CheckState → CheckState → Prop} {F : CheckState → Diagnostic → CheckState → Prop}

/-- What all simple statements keep and the constructions pass on, every statement keeps. -/
theorem Stmt.check_walk (h : Check.Walk R F) (stmt : Stmt) : Check.Keeps R F stmt.check :=
  stmt.check_around h.toAround fun _ hmem => h.simple (stmt.isSimple_of_mem _ hmem)

theorem Block.check_walk (h : Check.Walk R F) (body : Block) : Check.Keeps R F body.check :=
  body.check_around h.toAround fun _ hmem => h.simple (body.isSimple_of_mem _ hmem)

theorem checkBranches_walk (h : Check.Walk R F) (branches : List Branch) :
    Check.Keeps R F (checkBranches branches) :=
  checkBranches_around h.toAround branches fun _ hmem =>
    h.simple (isSimple_of_mem_branches branches _ hmem)

theorem checkAll_walk (h : Check.Walk R F) (statements : List Stmt) :
    Check.Keeps R F (checkAll statements) :=
  checkAll_around h.toAround statements fun _ hmem =>
    h.simple (isSimple_of_mem_all statements _ hmem)

end Walk

end Slate
