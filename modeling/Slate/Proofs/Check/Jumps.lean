-- SUMMARY: Which loops the jumps of an accepted program are in, and that such a loop may be around their function.
import Slate.Proofs.Check.Context
import Slate.Proofs.Check.Success
import Slate.Proofs.Check.WellFormed
import Slate.Proofs.Syntax.Nesting

/-!
# Jumps

A `break` or `continue` is meant for a loop of the function that it stands in. The walk keeps
the loops around it on one stack, and a function does not begin a new one. So what it tells of
a jump is that some loop is around it, be it one that the definition of the function is inside
of. Where functions are defined at the top level only, as in every program that is read, no
loop can be there, and each jump has a loop of its own function.
-/

namespace Slate

/-! ## Jumps and what is around them -/

/-- What a jump can be inside of. -/
inductive Enclosure where
  | loop (span : Span)
  | function (name : String)
deriving DecidableEq, Repr

/-- The span of a loop. -/
def Enclosure.loop? : Enclosure → Option Span
  | .loop span => some span
  | .function _ => none

/-- A `break` or `continue`, and the loops and functions it is inside of, the innermost first. -/
structure Jump where
  span : Span
  inside : List Enclosure
deriving DecidableEq, Repr

namespace Jump

/-- Some loop is around, whichever function it is in. -/
def InLoop (jump : Jump) : Prop := ∃ span, .loop span ∈ jump.inside

/-- A loop is around inside the same function, or outside of all functions. -/
def InOwnLoop (jump : Jump) : Prop := ∃ span, jump.inside.head? = some (.loop span)

/-- No loop is around inside the function, but there is one that the function is inside of. -/
def Borrows (jump : Jump) : Prop :=
  ∃ name outer span, jump.inside = .function name :: outer ∧ .loop span ∈ outer

/-- What is around a jump that is in some loop begins with a loop or with a function. -/
theorem InLoop.own_or_borrows {jump : Jump} (h : jump.InLoop) :
    jump.InOwnLoop ∨ jump.Borrows := by
  obtain ⟨span, inside⟩ := jump
  obtain ⟨loop, hmem⟩ := h
  cases inside with
  | nil => cases hmem
  | cons enclosure outer =>
    cases enclosure with
    | loop own => exact .inl ⟨own, rfl⟩
    | function name =>
      have houter : .loop loop ∈ outer := by
        simpa using hmem
      exact .inr ⟨name, outer, loop, rfl, houter⟩

end Jump

mutual

/-- The jumps in a statement that is itself inside of `inside`. -/
def Stmt.jumps (inside : List Enclosure) : Stmt → List Jump
  | .breakLoop span | .continueLoop span => [⟨span, inside⟩]
  | .function name _ _ body _ => body.jumps (.function name :: inside)
  | .whileLoop _ body span => body.jumps (.loop span :: inside)
  | .ifChain branches none _ => branchJumps inside branches
  | .ifChain branches (some otherwise) _ =>
    branchJumps inside branches ++ otherwise.jumps inside
  | .block body => body.jumps inside
  | _ => []

def Block.jumps (inside : List Enclosure) : Block → List Jump
  | .mk statements _ => allJumps inside statements

def allJumps (inside : List Enclosure) : List Stmt → List Jump
  | [] => []
  | stmt :: statements => stmt.jumps inside ++ allJumps inside statements

def branchJumps (inside : List Enclosure) : List Branch → List Jump
  | [] => []
  | .mk _ body _ :: branches => body.jumps inside ++ branchJumps inside branches

end

/-- The jumps in a program. -/
def Program.jumps (p : Program) : List Jump := allJumps [] p.statements

/-! ## The stack of loops -/

/-- The loops on the stack are those around, the ones beyond a function included. -/
def CheckState.Tracks (s : CheckState) (inside : List Enclosure) : Prop :=
  s.loops.map LoopContext.span = inside.filterMap Enclosure.loop?

namespace CheckState.Tracks

variable {s s' : CheckState} {inside : List Enclosure}

theorem of_sameContext (h : s.Tracks inside) (hsame : s.SameContext s') : s'.Tracks inside :=
  hsame.loops.trans h

/-- A function changes nothing about the loops. -/
theorem function (h : s.Tracks inside) (name : String) : s.Tracks (.function name :: inside) := h

theorem loop (h : s.Tracks inside) (span : Span) :
    CheckState.Tracks { s with loops := { span, hasBreak := false } :: s.loops }
      (.loop span :: inside) :=
  congrArg (span :: ·) h

theorem exists_loop (h : s.Tracks inside) (hloops : s.loops ≠ []) :
    ∃ span, .loop span ∈ inside := by
  cases htop : s.loops with
  | nil => exact absurd htop hloops
  | cons top outer =>
    have hmem : top.span ∈ inside.filterMap Enclosure.loop? := by
      rw [← h, htop]
      exact List.mem_cons_self
    obtain ⟨enclosure, henclosure, hspan⟩ := List.mem_filterMap.1 hmem
    cases enclosure with
    | loop span => exact ⟨span, henclosure⟩
    | function name => cases hspan

end CheckState.Tracks

namespace Check

variable {s s' : CheckState} {m : CheckM Unit}

theorem Restores.sameContext {α : Type} {m : CheckM α} {a : α} (hm : Restores m)
    (h : m s = .ok a s') : s.SameContext s' := by
  have hs := wp_of_ok (hm s) h
  exact hs

theorem insideBlock_run {start : Location} (h : insideBlock start m s = .ok () s') :
    ∃ s₁ s₂, m s₁ = .ok () s₂ ∧ s.SameContext s₁ := by
  obtain ⟨_, s₁, henter, hrest⟩ := bind_ok.1 h
  obtain ⟨_, s₂, hbody, -⟩ := bind_ok.1 hrest
  exact ⟨s₁, s₂, hbody, (restores_enterBlock start).sameContext henter⟩

theorem loopBody_run {span : Span} (h : loopBody span m s = .ok () s') :
    ∃ s₂, m { s with loops := { span, hasBreak := false } :: s.loops } = .ok () s₂ := by
  obtain ⟨_, _, hinside, -⟩ := bind_ok.1 h
  obtain ⟨s₂, hbody, -⟩ := insideLoop_ok.1 hinside
  exact ⟨s₂, hbody⟩

/-- The body of a function is run with the loops on the stack that are around the function. -/
theorem functionBody_run {name : String} {params : List Param} {returns : Option Ty} {body : Block}
    {span : Span} (h : functionBody name params returns body span m s = .ok () s') :
    ∃ s₁ s₂, m { s₁ with function := some (functionStart name returns) } = .ok () s₂ ∧
      s.SameContext s₁ := by
  obtain ⟨⟨symbols, symbol⟩, s₁, hhead, hrest⟩ := bind_ok.1 h
  obtain ⟨_, s₂, henter, hrest⟩ := bind_ok.1 hrest
  obtain ⟨_, s₃, hparams, hrest⟩ := bind_ok.1 hrest
  obtain ⟨_, _, hinside, -⟩ := bind_ok.1 hrest
  obtain ⟨s₄, hbody, -⟩ := insideFunction_ok.1 hinside
  refine ⟨s₃, s₄, hbody, ?_⟩
  exact ((restores_functionHead name params returns span).sameContext hhead).trans
    (((restores_enterBlock _).sameContext henter).trans
      ((restores_defineAll symbols).sameContext hparams))

end Check

/-! ## Accepted jumps -/

open Check in
mutual

/-- Where the walk gets through a statement, the jumps in it are in loops. -/
theorem Stmt.jumps_inLoop : (stmt : Stmt) → ∀ {inside s s'}, stmt.check s = .ok () s' →
    s.Tracks inside → ∀ jump ∈ stmt.jumps inside, jump.InLoop
  | .breakLoop span, _, _, _, h, htracks => by
    rw [Stmt.check] at h
    obtain ⟨loop, outer, hloops, -⟩ := breakLoop_ok.1 h
    exact List.forall_mem_singleton.2 (htracks.exists_loop (by simp [hloops]))
  | .continueLoop span, _, _, _, h, htracks => by
    rw [Stmt.check] at h
    exact List.forall_mem_singleton.2 (htracks.exists_loop (continueLoop_ok.1 h).1)
  | .function name _ _ (.mk statements _) _, _, _, _, h, htracks => by
    rw [Stmt.check_function] at h
    obtain ⟨s₁, s₂, hbody, hsame⟩ := functionBody_run h
    -- the context of the function is a new one, but the loops are still those around it
    exact allJumps_inLoop statements hbody ((htracks.of_sameContext hsame).function name)
  | .whileLoop _ body span, _, _, _, h, htracks => by
    rw [Stmt.check_whileLoop] at h
    obtain ⟨_, _, hcondition, hloop⟩ := bind_ok.1 h
    obtain ⟨-, rfl⟩ := condition_ok.1 hcondition
    obtain ⟨s₁, hbody⟩ := loopBody_run hloop
    exact body.jumps_inLoop hbody (htracks.loop span)
  | .ifChain branches none _, _, _, _, h, htracks => by
    rw [Stmt.check] at h
    obtain ⟨_, _, hconditions, hrest⟩ := bind_ok.1 h
    obtain ⟨-, rfl⟩ := conditions_ok.1 hconditions
    obtain ⟨_, _, hbranches, -⟩ := bind_ok.1 hrest
    exact branchJumps_inLoop branches hbranches htracks
  | .ifChain branches (some otherwise) _, _, _, _, h, htracks => by
    rw [Stmt.check] at h
    obtain ⟨_, _, hconditions, hrest⟩ := bind_ok.1 h
    obtain ⟨-, rfl⟩ := conditions_ok.1 hconditions
    obtain ⟨_, _, hbranches, hotherwise⟩ := bind_ok.1 hrest
    have hsame := (checkBranches_walk restores_walk branches).of_ok hbranches
    rw [Stmt.jumps, List.forall_mem_append]
    exact ⟨branchJumps_inLoop branches hbranches htracks,
      otherwise.jumps_inLoop hotherwise (htracks.of_sameContext hsame)⟩
  | .block body, _, _, _, h, htracks => by
    rw [Stmt.check] at h
    exact body.jumps_inLoop h htracks
  | .needs .., _, _, _, _, _ | .declare .., _, _, _, _, _ | .define .., _, _, _, _, _
  | .assign .., _, _, _, _, _ | .ret .., _, _, _, _, _ | .expression .., _, _, _, _, _
  | .error .., _, _, _, _, _ => nofun

theorem Block.jumps_inLoop : (body : Block) → ∀ {inside s s'}, body.check s = .ok () s' →
    s.Tracks inside → ∀ jump ∈ body.jumps inside, jump.InLoop
  | .mk statements _, _, _, _, h, htracks => by
    rw [Block.check_eq] at h
    obtain ⟨s₁, s₂, hbody, hsame⟩ := insideBlock_run h
    exact allJumps_inLoop statements hbody (htracks.of_sameContext hsame)

theorem allJumps_inLoop : (statements : List Stmt) → ∀ {inside s s'},
    checkAll statements s = .ok () s' → s.Tracks inside →
      ∀ jump ∈ allJumps inside statements, jump.InLoop
  | [], _, _, _, _, _ => nofun
  | stmt :: statements, _, _, _, h, htracks => by
    obtain ⟨s₁, hstmt, hrest⟩ := checkAll_cons_ok.1 h
    have hsame := (stmt.check_walk restores_walk).of_ok hstmt
    rw [allJumps, List.forall_mem_append]
    exact ⟨stmt.jumps_inLoop hstmt htracks,
      allJumps_inLoop statements hrest (htracks.of_sameContext hsame)⟩

theorem branchJumps_inLoop : (branches : List Branch) → ∀ {inside s s'},
    checkBranches branches s = .ok () s' → s.Tracks inside →
      ∀ jump ∈ branchJumps inside branches, jump.InLoop
  | [], _, _, _, _, _ => nofun
  | .mk _ body _ :: branches, _, _, _, h, htracks => by
    rw [checkBranches] at h
    obtain ⟨_, s₁, hbody, hrest⟩ := bind_ok.1 h
    have hsame := (body.check_walk restores_walk).of_ok hbody
    rw [branchJumps, List.forall_mem_append]
    exact ⟨body.jumps_inLoop hbody htracks,
      branchJumps_inLoop branches hrest (htracks.of_sameContext hsame)⟩

end

/-! ## Functions at the top level -/

/-- Between a jump and `inside` there are only loops. -/
def Jump.OnlyLoopsTo (inside : List Enclosure) (jump : Jump) : Prop :=
  ∃ loops : List Span, jump.inside = loops.map .loop ++ inside

mutual

/-- Without a function in it, a statement adds only loops to what is around its jumps. -/
theorem Stmt.jumps_onlyLoops : (stmt : Stmt) → stmt.functionFree = true →
    ∀ inside, ∀ jump ∈ stmt.jumps inside, jump.OnlyLoopsTo inside
  | .breakLoop _, _, _ | .continueLoop _, _, _ => List.forall_mem_singleton.2 ⟨[], rfl⟩
  | .whileLoop _ body span, h, inside => by
    intro jump hjump
    obtain ⟨loops, hloops⟩ := body.jumps_onlyLoops h (.loop span :: inside) jump hjump
    exact ⟨loops ++ [span], by simp [hloops]⟩
  | .ifChain branches none _, h, inside => branchJumps_onlyLoops branches h inside
  | .ifChain branches (some otherwise) _, h, inside => by
    rw [Stmt.functionFree, Bool.and_eq_true] at h
    rw [Stmt.jumps, List.forall_mem_append]
    exact ⟨branchJumps_onlyLoops branches h.1 inside, otherwise.jumps_onlyLoops h.2 inside⟩
  | .block body, h, inside => body.jumps_onlyLoops h inside
  | .function .., h, _ => by cases h
  | .needs .., _, _ | .declare .., _, _ | .define .., _, _ | .assign .., _, _ | .ret .., _, _
  | .expression .., _, _ | .error .., _, _ => nofun

theorem Block.jumps_onlyLoops : (body : Block) → body.functionFree = true →
    ∀ inside, ∀ jump ∈ body.jumps inside, jump.OnlyLoopsTo inside
  | .mk statements _, h, inside => allJumps_onlyLoops statements h inside

theorem allJumps_onlyLoops : (statements : List Stmt) → allFunctionFree statements = true →
    ∀ inside, ∀ jump ∈ allJumps inside statements, jump.OnlyLoopsTo inside
  | [], _, _ => nofun
  | stmt :: statements, h, inside => by
    rw [allFunctionFree, Bool.and_eq_true] at h
    rw [allJumps, List.forall_mem_append]
    exact ⟨stmt.jumps_onlyLoops h.1 inside, allJumps_onlyLoops statements h.2 inside⟩

theorem branchJumps_onlyLoops : (branches : List Branch) → branchesFunctionFree branches = true →
    ∀ inside, ∀ jump ∈ branchJumps inside branches, jump.OnlyLoopsTo inside
  | [], _, _ => nofun
  | .mk _ body _ :: branches, h, inside => by
    rw [branchesFunctionFree, Bool.and_eq_true] at h
    rw [branchJumps, List.forall_mem_append]
    exact ⟨body.jumps_onlyLoops h.1 inside, branchJumps_onlyLoops branches h.2 inside⟩

end

/-- A jump with only loops up to the definition of its function, or up to the end, has one of
these if it is in any. -/
theorem Jump.OnlyLoopsTo.inOwnLoop {jump : Jump} {inside : List Enclosure}
    (h : jump.OnlyLoopsTo inside) (hinside : ∀ span, .loop span ∉ inside) (hloop : jump.InLoop) :
    jump.InOwnLoop := by
  obtain ⟨loops, hloops⟩ := h
  obtain ⟨span, hmem⟩ := hloop
  cases loops with
  | nil =>
    rw [hloops] at hmem
    exact absurd hmem (hinside span)
  | cons innermost loops => exact ⟨innermost, by rw [hloops]; rfl⟩

/-- A statement of a program whose functions are all at the top level. -/
theorem Stmt.jumps_inOwnLoop {stmt : Stmt} (htop : stmt.functionsAtTop = true)
    (hloop : ∀ jump ∈ stmt.jumps [], jump.InLoop) :
    ∀ jump ∈ stmt.jumps [], jump.InOwnLoop := by
  intro jump hjump
  cases stmt with
  | function name params returns body span =>
    have honly := body.jumps_onlyLoops htop [.function name] jump hjump
    exact honly.inOwnLoop (by simp) (hloop jump hjump)
  | _ =>
    have honly := Stmt.jumps_onlyLoops _ htop [] jump hjump
    exact honly.inOwnLoop nofun (hloop jump hjump)

theorem allJumps_inOwnLoop : (statements : List Stmt) →
    statements.all Stmt.functionsAtTop = true →
      (∀ jump ∈ allJumps [] statements, jump.InLoop) →
        ∀ jump ∈ allJumps [] statements, jump.InOwnLoop
  | [], _, _ => nofun
  | stmt :: statements, htop, hloop => by
    rw [List.all_cons, Bool.and_eq_true] at htop
    rw [allJumps, List.forall_mem_append] at hloop ⊢
    exact ⟨stmt.jumps_inOwnLoop htop.1 hloop.1, allJumps_inOwnLoop statements htop.2 hloop.2⟩

/-- In a program that is read, functions are at the top level. -/
theorem functionsAtTop_of_parse {tokens : List Token} {p : Program} (h : parse tokens = .ok p) :
    p.functionsAtTop = true := by
  rw [← Parser.tracedParse_parse] at h
  unfold Parser.tracedParse at h
  cases hlast : tokens.getLast? with
  | none =>
    rw [hlast] at h
    cases h
    rfl
  | some last =>
    rw [hlast] at h
    have hlevels := Parser.Trace.levels_programStatements (Parser.budgetFor tokens.length)
      (r := ⟨{ rest := tokens, last, depth := 0 }, []⟩) ⟨.refl _, nofun⟩ rfl
    unfold wp at hlevels
    dsimp only at h
    split at hlevels
    · next statements r hrun =>
      rw [hrun] at h
      cases h
      exact hlevels.2.2
    · next failure r hrun =>
      rw [hrun] at h
      cases h

/-! ## Accepted programs -/

/-- In an accepted program each jump is in a loop of its own function, or else in a function
that is defined inside of a loop. The latter cannot be where functions are defined at the top
level only, so not in a program that is read. -/
theorem Program.jumps_in_loops {p : Program} {t : Table} (h : p.analyze = .ok t) :
    (∀ jump ∈ p.jumps, jump.InOwnLoop ∨ jump.Borrows) ∧
      (p.functionsAtTop = true → ∀ jump ∈ p.jumps, jump.InOwnLoop) ∧
      ∀ tokens, parse tokens = .ok p → ∀ jump ∈ p.jumps, jump.InOwnLoop := by
  obtain ⟨s, hcheck, -⟩ := analyze_eq_ok.1 h
  have hloop : ∀ jump ∈ p.jumps, jump.InLoop := allJumps_inLoop p.statements hcheck rfl
  have htop : p.functionsAtTop = true → ∀ jump ∈ p.jumps, jump.InOwnLoop :=
    fun htop => allJumps_inOwnLoop p.statements htop hloop
  exact ⟨fun jump hjump => (hloop jump hjump).own_or_borrows, htop,
    fun tokens hparse => htop (functionsAtTop_of_parse hparse)⟩

namespace Program

/-- The span of one character on the line. -/
private def lineOf (line : Nat) : Span := ⟨⟨line, 1, 0⟩, ⟨line, 2, 0⟩⟩

/-- A loop that ends with a `continue`, around the definition of a function with a `break`. -/
def borrowedLoop : Program :=
  ⟨[.whileLoop (.literal (.bool true) (lineOf 1))
    (.mk [.function "f" [] none (.mk [.breakLoop (lineOf 3)] (lineOf 2)) (lineOf 2),
      .continueLoop (lineOf 4)] (lineOf 1)) (lineOf 1)]⟩

/-- The tokens of `fn f() { while (true) { break; } }`. -/
def loopInFunction : List Token :=
  [⟨.keyword .fnKw, "fn", default⟩, ⟨.identifier, "f", default⟩,
    ⟨.mark .leftParen, "(", default⟩, ⟨.mark .rightParen, ")", default⟩,
    ⟨.mark .leftBrace, "\x7b", default⟩, ⟨.keyword .whileKw, "while", default⟩,
    ⟨.mark .leftParen, "(", default⟩, ⟨.keyword .trueKw, "true", default⟩,
    ⟨.mark .rightParen, ")", default⟩, ⟨.mark .leftBrace, "\x7b", default⟩,
    ⟨.keyword .breakKw, "break", default⟩, ⟨.mark .semicolon, ";", default⟩,
    ⟨.mark .rightBrace, "\x7d", default⟩, ⟨.mark .rightBrace, "\x7d", default⟩]

/-- The program read from tokens has its `break` in a loop of the function; in the one that
cannot be read, the function takes the loop around it. -/
theorem jumps_in_loops_readAndBorrowed :
    (∃ p t, parse loopInFunction = .ok p ∧ p.analyze = .ok t ∧
      ∃ jump ∈ p.jumps, jump.InOwnLoop) ∧
    ∃ t, borrowedLoop.analyze = .ok t ∧ ∃ jump ∈ borrowedLoop.jumps, jump.Borrows := by
  constructor
  · have hread : (parse loopInFunction).toOption.any
        (fun p => p.analyze.toBool && !p.jumps.isEmpty) = true := by decide +kernel
    cases hparse : parse loopInFunction with
    | error d => simp [hparse, Except.toOption] at hread
    | ok p =>
      simp only [hparse, Except.toOption, Option.any_some, Bool.and_eq_true, Bool.not_eq_true',
        List.isEmpty_eq_false_iff_exists_mem] at hread
      obtain ⟨haccepted, jump, hjump⟩ := hread
      obtain ⟨t, ht⟩ := exists_analyze haccepted
      have hown := (jumps_in_loops ht).2.2 loopInFunction hparse jump hjump
      exact ⟨p, t, rfl, ht, jump, hjump, hown⟩
  · have haccepted : borrowedLoop.analyze.toBool = true := by decide +kernel
    obtain ⟨t, ht⟩ := exists_analyze haccepted
    have hmem : ⟨lineOf 3, [.function "f", .loop (lineOf 1)]⟩ ∈ borrowedLoop.jumps :=
      List.mem_cons_self
    obtain ⟨span, ⟨⟩⟩ | hborrows := (jumps_in_loops ht).1 _ hmem
    exact ⟨t, ht, _, hmem, hborrows⟩

/-- A `break` is accepted although its function has no loop. -/
theorem break_beyond_function : ∃ t, borrowedLoop.analyze = .ok t ∧
    ∃ jump ∈ borrowedLoop.jumps, ¬ jump.InOwnLoop := by
  have haccepted : borrowedLoop.analyze.toBool = true := by decide +kernel
  obtain ⟨t, ht⟩ := exists_analyze haccepted
  refine ⟨t, ht, ⟨lineOf 3, [.function "f", .loop (lineOf 1)]⟩, List.mem_cons_self, ?_⟩
  rintro ⟨span, ⟨⟩⟩

end Program

end Slate
