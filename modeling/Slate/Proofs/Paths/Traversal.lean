-- SUMMARY: The ways in which control can pass through a block, and what the verdict on its paths says about them.
import Slate.Proofs.Paths.Recursion

/-!
# Ways through a block

`Block.Runs` lists the ways in which control can pass through a block, with every
condition turning out as it likes. Each way has an exit, and detours: loops that
are passed by, and iterations that `break` or `continue` cut short. The verdict on
the paths of a block takes no notice of detours. It is exact where there are no
loops, and with loops it speaks for the ways whose detours lie in loops that are
not settled as returning. A `break` in a loop that is leads past the returns.
-/

namespace Slate

/-! ## Statements outside of loops -/

/-- Statements that decide where control goes. All others hand it on to the next. -/
def Stmt.steers : Stmt → Bool
  | .ifChain .. | .whileLoop .. | .block _ | .ret .. | .breakLoop _ | .continueLoop _ => true
  | _ => false

def Stmt.isLoop : Stmt → Bool
  | .whileLoop .. => true
  | _ => false

/-- Whether a statement leaves an iteration of the loop around it. -/
def Stmt.isJump : Stmt → Bool
  | .breakLoop _ | .continueLoop _ => true
  | _ => false

mutual

/-- Whether a statement is free of statements of a kind, those inside of its loops
and functions left aside. -/
def Stmt.avoids (kind : Stmt → Bool) : Stmt → Bool
  | .block body => body.avoids kind
  | .ifChain branches none _ => branchesAvoid kind branches
  | .ifChain branches (some otherwise) _ => branchesAvoid kind branches && otherwise.avoids kind
  | stmt => !kind stmt

def Block.avoids (kind : Stmt → Bool) : Block → Bool
  | .mk statements _ => allAvoid kind statements

def allAvoid (kind : Stmt → Bool) : List Stmt → Bool
  | [] => true
  | stmt :: statements => stmt.avoids kind && allAvoid kind statements

def branchesAvoid (kind : Stmt → Bool) : List Branch → Bool
  | [] => true
  | .mk _ body _ :: branches => body.avoids kind && branchesAvoid kind branches

end

/-! ## Ways of control -/

namespace Paths

/-- How control leaves a statement: through its end, or by a statement that says so. -/
inductive Exit where
  | through
  | ret
  | breakLoop
  | continueLoop
deriving DecidableEq, Repr

/-- Where control does not go all the way through the body of a loop that it has reached. -/
inductive Detour where
  /-- The loop is passed without entering its body. -/
  | skipped (body : Block)
  /-- An iteration ends with a `break` or `continue`. -/
  | cut (body : Block)

/-- The body of the loop in question. -/
def Detour.body : Detour → Block
  | skipped body | cut body => body

end Paths

open Paths (Exit Detour)

mutual

/-- The ways through a statement. `stmt.Runs detours exit`: control can pass through it
with these detours, and leave it by this exit. -/
inductive Stmt.Runs : Stmt → List Detour → Exit → Prop where
  | plain {stmt : Stmt} : stmt.steers = false → Stmt.Runs stmt [] .through
  | ret {value : Option Expr} {span : Span} : Stmt.Runs (.ret value span) [] .ret
  | breakLoop {span : Span} : Stmt.Runs (.breakLoop span) [] .breakLoop
  | continueLoop {span : Span} : Stmt.Runs (.continueLoop span) [] .continueLoop
  | block {body : Block} {detours : List Detour} {exit : Exit} :
      body.Runs detours exit → Stmt.Runs (.block body) detours exit
  | branch {branches : List Branch} {otherwise : Option Block} {span : Span} {branch : Branch}
      {detours : List Detour} {exit : Exit} :
      branch ∈ branches → branch.body.Runs detours exit →
      Stmt.Runs (.ifChain branches otherwise span) detours exit
  | otherwise {branches : List Branch} {body : Block} {span : Span} {detours : List Detour}
      {exit : Exit} :
      body.Runs detours exit → Stmt.Runs (.ifChain branches (some body) span) detours exit
  | noBranch {branches : List Branch} {span : Span} :
      Stmt.Runs (.ifChain branches none span) [] .through
  | skip {test : Expr} {body : Block} {span : Span} :
      Stmt.Runs (.whileLoop test body span) [.skipped body] .through
  | enter {test : Expr} {body : Block} {span : Span} {detours : List Detour} {exit : Exit} :
      body.Repeats detours exit → Stmt.Runs (.whileLoop test body span) detours exit

inductive Block.Runs : Block → List Detour → Exit → Prop where
  | mk {statements : List Stmt} {span : Span} {detours : List Detour} {exit : Exit} :
      RunsAll statements detours exit → Block.Runs (.mk statements span) detours exit

/-- The ways through statements one behind the other: what is behind a statement is reached
only through its end. -/
inductive RunsAll : List Stmt → List Detour → Exit → Prop where
  | nil : RunsAll [] [] .through
  | next {stmt : Stmt} {statements : List Stmt} {detours more : List Detour} {exit : Exit} :
      stmt.Runs detours .through → RunsAll statements more exit →
      RunsAll (stmt :: statements) (detours ++ more) exit
  | leave {stmt : Stmt} {statements : List Stmt} {detours : List Detour} {exit : Exit} :
      stmt.Runs detours exit → exit ≠ .through → RunsAll (stmt :: statements) detours exit

/-- The iterations of a loop that lead back to its test. -/
inductive Block.Iterates : Block → List Detour → Prop where
  | whole {body : Block} {detours : List Detour} :
      body.Runs detours .through → Block.Iterates body detours
  | continueLoop {body : Block} {detours : List Detour} :
      body.Runs detours .continueLoop → Block.Iterates body (detours ++ [.cut body])

/-- The ways through a loop whose body is entered. -/
inductive Block.Repeats : Block → List Detour → Exit → Prop where
  | last {body : Block} {detours : List Detour} :
      body.Iterates detours → Block.Repeats body detours .through
  | again {body : Block} {detours more : List Detour} {exit : Exit} :
      body.Iterates detours → body.Repeats more exit → Block.Repeats body (detours ++ more) exit
  | breakLoop {body : Block} {detours : List Detour} :
      body.Runs detours .breakLoop → Block.Repeats body (detours ++ [.cut body]) .through
  | ret {body : Block} {detours : List Detour} :
      body.Runs detours .ret → Block.Repeats body detours .ret

end

/-! ## Branches -/

theorem branchesAvoid_eq (kind : Stmt → Bool) (branches : List Branch) :
    branchesAvoid kind branches = branches.all (·.body.avoids kind) := by
  induction branches with
  | nil => rfl
  | cons branch branches ih =>
    obtain ⟨test, body, span⟩ := branch
    rw [branchesAvoid, ih]
    rfl

theorem Branch.body_alwaysReturns {branch : Branch} {branches : List Branch}
    (hmem : branch ∈ branches) (h : allBranchesReturn branches = true) :
    branch.body.alwaysReturns = true := by
  rw [allBranchesReturn_eq] at h
  exact List.all_eq_true.1 h branch hmem

theorem Branch.body_avoids {kind : Stmt → Bool} {branch : Branch} {branches : List Branch}
    {otherwise : Option Block} {span : Span} (hmem : branch ∈ branches)
    (h : (Stmt.ifChain branches otherwise span).avoids kind = true) :
    branch.body.avoids kind = true := by
  have hbranches : branchesAvoid kind branches = true := by
    cases otherwise with
    | none => exact h
    | some otherwise =>
      rw [Stmt.avoids, Bool.and_eq_true] at h
      exact h.1
  rw [branchesAvoid_eq] at hbranches
  exact List.all_eq_true.1 hbranches branch hmem

theorem Stmt.avoids_otherwise {kind : Stmt → Bool} {branches : List Branch} {body : Block}
    {span : Span} (h : (Stmt.ifChain branches (some body) span).avoids kind = true) :
    body.avoids kind = true := by
  rw [Stmt.avoids, Bool.and_eq_true] at h
  exact h.2

/-! ## Blocks settled as returning -/

/-- One of the detours is in a loop that is settled as returning. -/
def LeadsPastReturn (detours : List Detour) : Prop :=
  ∃ detour ∈ detours, detour.body.alwaysReturns = true

theorem LeadsPastReturn.append_left {detours : List Detour} (h : LeadsPastReturn detours)
    (more : List Detour) : LeadsPastReturn (detours ++ more) := by
  obtain ⟨detour, hmem, hreturns⟩ := h
  exact ⟨detour, List.mem_append_left more hmem, hreturns⟩

theorem LeadsPastReturn.append_right {more : List Detour} (h : LeadsPastReturn more)
    (detours : List Detour) : LeadsPastReturn (detours ++ more) := by
  obtain ⟨detour, hmem, hreturns⟩ := h
  exact ⟨detour, List.mem_append_right detours hmem, hreturns⟩

theorem leadsPastReturn_cut {body : Block} (h : body.alwaysReturns = true)
    (detours : List Detour) : LeadsPastReturn (detours ++ [.cut body]) :=
  ⟨.cut body, by simp, h⟩

mutual

/-- The end of a statement that is settled as returning is reached only past a return. -/
theorem Stmt.Runs.leadsPastReturn : ∀ {stmt : Stmt} {detours : List Detour} {exit : Exit},
    stmt.Runs detours exit → exit = .through → stmt.alwaysReturns = true →
    LeadsPastReturn detours
  | stmt, _, _, .plain hplain, _, hreturns => by
    cases stmt <;> simp_all [Stmt.steers, Stmt.alwaysReturns]
  | _, _, _, .block run, hexit, hreturns => run.leadsPastReturn hexit hreturns
  | .ifChain branches (some otherwise) _, _, _, .branch hmem run, hexit, hreturns => by
    rw [Stmt.alwaysReturns, Bool.and_eq_true] at hreturns
    exact run.leadsPastReturn hexit (Branch.body_alwaysReturns hmem hreturns.1)
  | .ifChain branches (some otherwise) _, _, _, .otherwise run, hexit, hreturns => by
    rw [Stmt.alwaysReturns, Bool.and_eq_true] at hreturns
    exact run.leadsPastReturn hexit hreturns.2
  | .whileLoop _ body _, _, _, .skip, _, hreturns => ⟨.skipped body, by simp, hreturns⟩
  | _, _, _, .enter repeats, hexit, hreturns => repeats.leadsPastReturn hexit hreturns

theorem Block.Runs.leadsPastReturn : ∀ {body : Block} {detours : List Detour} {exit : Exit},
    body.Runs detours exit → exit = .through → body.alwaysReturns = true →
    LeadsPastReturn detours
  | _, _, _, .mk runs, hexit, hreturns => runs.leadsPastReturn hexit hreturns

theorem RunsAll.leadsPastReturn : ∀ {statements : List Stmt} {detours : List Detour}
    {exit : Exit}, RunsAll statements detours exit → exit = .through →
    someReturns statements = true → LeadsPastReturn detours
  | _, _, _, .next run runs, hexit, hreturns => by
    rw [someReturns, Bool.or_eq_true] at hreturns
    cases hreturns with
    | inl hstmt => exact (run.leadsPastReturn rfl hstmt).append_left _
    | inr hrest => exact (runs.leadsPastReturn hexit hrest).append_right _
  | _, _, _, .leave _ hleave, hexit, _ => absurd hexit hleave

theorem Block.Iterates.leadsPastReturn : ∀ {body : Block} {detours : List Detour},
    body.Iterates detours → body.alwaysReturns = true → LeadsPastReturn detours
  | _, _, .whole run, hreturns => run.leadsPastReturn rfl hreturns
  | _, _, .continueLoop _, hreturns => leadsPastReturn_cut hreturns _

theorem Block.Repeats.leadsPastReturn : ∀ {body : Block} {detours : List Detour} {exit : Exit},
    body.Repeats detours exit → exit = .through → body.alwaysReturns = true →
    LeadsPastReturn detours
  | _, _, _, .last iteration, _, hreturns => iteration.leadsPastReturn hreturns
  | _, _, _, .again iteration _, _, hreturns =>
    (iteration.leadsPastReturn hreturns).append_left _
  | _, _, _, .breakLoop _, _, hreturns => leadsPastReturn_cut hreturns _

end

/-! ## Blocks without jumps, and without loops -/

mutual

/-- Control leaves a statement by `break` or `continue` only if one stands outside of its
loops. -/
theorem Stmt.Runs.exit_eq : ∀ {stmt : Stmt} {detours : List Detour} {exit : Exit},
    stmt.Runs detours exit → stmt.avoids Stmt.isJump = true → exit = .through ∨ exit = .ret
  | _, _, _, .plain _, _ | _, _, _, .noBranch, _ | _, _, _, .skip, _ => .inl rfl
  | _, _, _, .ret, _ => .inr rfl
  | _, _, _, .block run, hjumps => run.exit_eq hjumps
  | _, _, _, .branch hmem run, hjumps => run.exit_eq (Branch.body_avoids hmem hjumps)
  | _, _, _, .otherwise run, hjumps => run.exit_eq (Stmt.avoids_otherwise hjumps)
  | _, _, _, .enter repeats, _ => repeats.exit_eq

theorem Block.Runs.exit_eq : ∀ {body : Block} {detours : List Detour} {exit : Exit},
    body.Runs detours exit → body.avoids Stmt.isJump = true → exit = .through ∨ exit = .ret
  | _, _, _, .mk runs, hjumps => runs.exit_eq hjumps

theorem RunsAll.exit_eq : ∀ {statements : List Stmt} {detours : List Detour} {exit : Exit},
    RunsAll statements detours exit → allAvoid Stmt.isJump statements = true →
    exit = .through ∨ exit = .ret
  | _, _, _, .nil, _ => .inl rfl
  | _, _, _, .next _ runs, hjumps => by
    rw [allAvoid, Bool.and_eq_true] at hjumps
    exact runs.exit_eq hjumps.2
  | _, _, _, .leave run _, hjumps => by
    rw [allAvoid, Bool.and_eq_true] at hjumps
    exact run.exit_eq hjumps.1

theorem Block.Repeats.exit_eq : ∀ {body : Block} {detours : List Detour} {exit : Exit},
    body.Repeats detours exit → exit = .through ∨ exit = .ret
  | _, _, _, .last _ | _, _, _, .breakLoop _ => .inl rfl
  | _, _, _, .again _ repeats => repeats.exit_eq
  | _, _, _, .ret _ => .inr rfl

end

mutual

/-- Without loops there are no detours. -/
theorem Stmt.Runs.detours_eq_nil : ∀ {stmt : Stmt} {detours : List Detour} {exit : Exit},
    stmt.Runs detours exit → stmt.avoids Stmt.isLoop = true → detours = []
  | _, _, _, .plain _, _ | _, _, _, .ret, _ | _, _, _, .breakLoop, _ | _, _, _, .continueLoop, _
  | _, _, _, .noBranch, _ => rfl
  | _, _, _, .block run, hloops => run.detours_eq_nil hloops
  | _, _, _, .branch hmem run, hloops => run.detours_eq_nil (Branch.body_avoids hmem hloops)
  | _, _, _, .otherwise run, hloops => run.detours_eq_nil (Stmt.avoids_otherwise hloops)

theorem Block.Runs.detours_eq_nil : ∀ {body : Block} {detours : List Detour} {exit : Exit},
    body.Runs detours exit → body.avoids Stmt.isLoop = true → detours = []
  | _, _, _, .mk runs, hloops => runs.detours_eq_nil hloops

theorem RunsAll.detours_eq_nil : ∀ {statements : List Stmt} {detours : List Detour}
    {exit : Exit}, RunsAll statements detours exit → allAvoid Stmt.isLoop statements = true →
    detours = []
  | _, _, _, .nil, _ => rfl
  | _, _, _, .next run runs, hloops => by
    rw [allAvoid, Bool.and_eq_true] at hloops
    rw [run.detours_eq_nil hloops.1, runs.detours_eq_nil hloops.2]
    rfl
  | _, _, _, .leave run _, hloops => by
    rw [allAvoid, Bool.and_eq_true] at hloops
    exact run.detours_eq_nil hloops.1

end

mutual

/-- There is a way through the end of every statement without loops and jumps that is not
settled as returning. -/
theorem Stmt.runs_through : (stmt : Stmt) → stmt.avoids Stmt.isLoop = true →
    stmt.avoids Stmt.isJump = true → stmt.alwaysReturns = false → stmt.Runs [] .through
  | .block body, hloops, hjumps, hreturns => .block (body.runs_through hloops hjumps hreturns)
  | .ifChain branches none _, _, _, _ => .noBranch
  | .ifChain branches (some otherwise) _, hloops, hjumps, hreturns => by
    rw [Stmt.avoids, Bool.and_eq_true] at hloops hjumps
    rw [Stmt.alwaysReturns, Bool.and_eq_false_iff] at hreturns
    cases hreturns with
    | inl hbranches =>
      obtain ⟨branch, hmem, hruns⟩ := branch_runs_through branches hloops.1 hjumps.1 hbranches
      exact .branch hmem hruns
    | inr hotherwise => exact .otherwise (otherwise.runs_through hloops.2 hjumps.2 hotherwise)
  | .needs .., _, _, _ | .declare .., _, _, _ | .define .., _, _, _ | .assign .., _, _, _
  | .function .., _, _, _ | .expression .., _, _, _ | .error .., _, _, _ => .plain rfl

theorem Block.runs_through : (body : Block) → body.avoids Stmt.isLoop = true →
    body.avoids Stmt.isJump = true → body.alwaysReturns = false → body.Runs [] .through
  | .mk statements _, hloops, hjumps, hreturns =>
    .mk (runsAll_through statements hloops hjumps hreturns)

theorem runsAll_through : (statements : List Stmt) → allAvoid Stmt.isLoop statements = true →
    allAvoid Stmt.isJump statements = true → someReturns statements = false →
    RunsAll statements [] .through
  | [], _, _, _ => .nil
  | stmt :: statements, hloops, hjumps, hreturns => by
    rw [allAvoid, Bool.and_eq_true] at hloops hjumps
    rw [someReturns, Bool.or_eq_false_iff] at hreturns
    exact .next (stmt.runs_through hloops.1 hjumps.1 hreturns.1)
      (runsAll_through statements hloops.2 hjumps.2 hreturns.2)

theorem branch_runs_through : (branches : List Branch) →
    branchesAvoid Stmt.isLoop branches = true → branchesAvoid Stmt.isJump branches = true →
    allBranchesReturn branches = false →
    ∃ branch ∈ branches, branch.body.Runs [] .through
  | .mk test body span :: branches, hloops, hjumps, hreturns => by
    rw [branchesAvoid, Bool.and_eq_true] at hloops hjumps
    rw [allBranchesReturn, Bool.and_eq_false_iff] at hreturns
    cases hreturns with
    | inl hbody =>
      exact ⟨_, List.mem_cons_self, body.runs_through hloops.1 hjumps.1 hbody⟩
    | inr hrest =>
      obtain ⟨branch, hmem, hruns⟩ := branch_runs_through branches hloops.2 hjumps.2 hrest
      exact ⟨branch, List.mem_cons_of_mem _ hmem, hruns⟩

end

/-! ## Verdicts on paths -/

/-- Control leaves a block that is settled as returning by a return, if it enters every loop
that it reaches and each `break` and `continue` stays inside the block; unless one of them
cuts short an iteration of a loop that is settled as returning itself. -/
theorem returns_unless_cut_short {body : Block} {detours : List Detour} {exit : Exit}
    (hjumps : body.avoids Stmt.isJump = true) (hreturns : body.returnsOnAllPaths = true)
    (hruns : body.Runs detours exit) (hentered : ∀ inner, Detour.skipped inner ∉ detours) :
    exit = .ret ∨ ∃ inner, Detour.cut inner ∈ detours ∧ inner.returnsOnAllPaths = true := by
  cases hruns.exit_eq hjumps with
  | inr hret => exact .inl hret
  | inl hthrough =>
    rw [body.returnsOnAllPaths_eq] at hreturns
    obtain ⟨detour, hmem, hinner⟩ := hruns.leadsPastReturn hthrough hreturns
    cases detour with
    | skipped inner => exact absurd hmem (hentered inner)
    | cut inner => exact .inr ⟨inner, hmem, by rwa [inner.returnsOnAllPaths_eq]⟩

/-- The body of a loop, with a `break` in an inner loop and a `continue` before the return. -/
def continuedBody (span : Span) : Block :=
  .mk [.whileLoop (.ident "b" span) (.mk [.breakLoop span] span) span,
    .ifChain [.mk (.ident "c" span) (.mk [.continueLoop span] span) span] none span,
    .ret none span] span

/-- A way through the loop that leaves the inner loop, which does not count as returning, and
then ends the iteration before the return. -/
theorem returns_unless_cut_short_continuedBody :
    let body : Block :=
      .mk [.whileLoop (.ident "a" default) (continuedBody default) default] default
    let detours := [Detour.cut (.mk [.breakLoop default] default), .cut (continuedBody default)]
    body.avoids Stmt.isJump = true ∧ body.returnsOnAllPaths = true ∧
      body.Runs detours .through ∧ (∀ inner, Detour.skipped inner ∉ detours) ∧
      ∃ inner, Detour.cut inner ∈ detours ∧ inner.returnsOnAllPaths = true := by
  intro body detours
  have hjumps : body.avoids Stmt.isJump = true := by decide
  have hreturns : body.returnsOnAllPaths = true := by decide
  have hentered : ∀ inner, Detour.skipped inner ∉ detours := by simp [detours]
  have hinner : (Stmt.whileLoop (.ident "b" default) (.mk [.breakLoop default] default)
      default).Runs [.cut (.mk [.breakLoop default] default)] .through :=
    .enter (.breakLoop (.mk (.leave .breakLoop nofun)))
  have hiteration : (continuedBody default).Runs
      [.cut (.mk [.breakLoop default] default)] .continueLoop := by
    refine .mk (.next hinner (.leave (.branch List.mem_cons_self ?_) nofun))
    exact .mk (.leave .continueLoop nofun)
  have hruns : body.Runs detours .through :=
    .mk (.next (.enter (.last (.continueLoop hiteration))) .nil)
  obtain hret | hcut := returns_unless_cut_short hjumps hreturns hruns hentered
  · cases hret
  · exact ⟨hjumps, hreturns, hruns, hentered, hcut⟩

/-- The body of a loop that may be left before its return. -/
def brokenBody (span : Span) : Block :=
  .mk [.ifChain [.mk (.ident "a" span) (.mk [.breakLoop span] span) span] none span,
    .ret (some (.literal (.int 1) span)) span] span

/-- A block is settled as returning, and control gets to its end all the same: it enters the
only loop, where a `break` takes it past the return. -/
theorem returning_block_left_through_end :
    let body : Block :=
      .mk [.whileLoop (.literal (.bool true) default) (brokenBody default) default] default
    let detours := [Detour.cut (brokenBody default)]
    body.avoids Stmt.isJump = true ∧ body.returnsOnAllPaths = true ∧
      body.Runs detours .through ∧ ∀ inner, Detour.skipped inner ∉ detours := by
  intro body detours
  have hiteration : (brokenBody default).Runs [] .breakLoop :=
    .mk (.leave (.branch List.mem_cons_self (.mk (.leave .breakLoop nofun))) nofun)
  have hruns : body.Runs detours .through := .mk (.next (.enter (.breakLoop hiteration)) .nil)
  exact ⟨by decide, by decide, hruns, by simp [detours]⟩

/-- A block without loops, and so without `break` and `continue`, is settled as returning
exactly if no way of control leads to its end. -/
theorem returnsOnAllPaths_iff_not_runs_through {body : Block}
    (hloops : body.avoids Stmt.isLoop = true) (hjumps : body.avoids Stmt.isJump = true) :
    body.returnsOnAllPaths = true ↔ ∀ detours, ¬ body.Runs detours .through := by
  rw [body.returnsOnAllPaths_eq]
  constructor
  · intro hreturns detours hruns
    obtain ⟨detour, hmem, -⟩ := hruns.leadsPastReturn rfl hreturns
    rw [hruns.detours_eq_nil hloops] at hmem
    cases hmem
  · intro hnone
    cases hreturns : body.alwaysReturns with
    | true => rfl
    | false => exact absurd (body.runs_through hloops hjumps hreturns) (hnone [])

/-- A chain in which one branch of two opens a block that may be left at its end. -/
def openBranch (span : Span) : Block :=
  .mk [.ifChain [.mk (.ident "a" span) (.mk [.ret none span] span) span,
      .mk (.ident "b" span) (.mk [.block (.mk
        [.ifChain [.mk (.ident "c" span) (.mk [.ret none span] span) span] none span] span)] span)
        span]
    (some (.mk [.ret none span, .assign "x" (.ident "a" span) span] span)) span] span

theorem returnsOnAllPaths_iff_not_runs_through_openBranch :
    (openBranch default).avoids Stmt.isLoop = true ∧
      (openBranch default).avoids Stmt.isJump = true ∧
      ¬ ∀ detours, ¬ (openBranch default).Runs detours .through := by
  have hloops : (openBranch default).avoids Stmt.isLoop = true := by decide
  have hjumps : (openBranch default).avoids Stmt.isJump = true := by decide
  refine ⟨hloops, hjumps, fun hnone => ?_⟩
  have hreturns := (returnsOnAllPaths_iff_not_runs_through hloops hjumps).2 hnone
  exact absurd hreturns (by decide)

end Slate
