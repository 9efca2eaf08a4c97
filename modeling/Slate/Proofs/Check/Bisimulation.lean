-- SUMMARY: Two walks over the same statements, from tables that the statements cannot tell apart, do the same.
import Slate.Proofs.Check.Function
import Slate.Proofs.Check.Looks
import Slate.Proofs.Folding.Dependence

/-!
# Two walks side by side

A walk sees of a table what the names of its statements stand for, how many scopes there
are, and which of them is the current one. A relation between tables that says as much,
and that entering, leaving and binding keep, makes walks from related tables alike: they
report the same, fail alike, and end in related tables. What was reported before makes no
difference either.
-/

namespace Slate

variable {N : String → Prop} {T : Table → Table → Prop}

/-! ## Related tables -/

/-- Both give a table, and the tables are related, or both give the same diagnostic. -/
inductive EndAlike (T : Table → Table → Prop) :
    Except Diagnostic Table → Except Diagnostic Table → Prop
  | ok {t t' : Table} (related : T t t') : EndAlike T (.ok t) (.ok t')
  | error (d : Diagnostic) : EndAlike T (.error d) (.error d)

/-- Related tables cannot be told apart by the names in `N`, and stay related whatever is
done to both of them with such names. -/
structure Table.Bisimulation (N : String → Prop) (T : Table → Table → Prop) : Prop where
  agree : ∀ {t t'}, T t t' → t.Agree N t'
  count : ∀ {t t'}, T t t' → t'.scopes.length = t.scopes.length
  current : ∀ {t t'}, T t t' → t'.current = t.current
  enter : ∀ {t t'}, T t t' → ∀ block, T (t.enter block) (t'.enter block)
  exit : ∀ {t t'}, T t t' → EndAlike T t.exit t'.exit
  define : ∀ {t t'}, T t t' → ∀ {symbol : Symbol}, N symbol.name →
    EndAlike T (t.define symbol) (t'.define symbol)

theorem Table.Bisimulation.interchangeable (bisim : Table.Bisimulation N T) {t t' : Table}
    (h : T t t') {e : Expr} (he : ∀ name ∈ e.names, N name) : e.Interchangeable t t' e :=
  e.interchangeable_of_agree (bisim.agree h) he

/-! ## Related states -/

/-- Related tables, the same context, and the same reports, behind those that the second
walk made before. -/
structure CheckState.Related (T : Table → Table → Prop) (before : Array Event)
    (s s' : CheckState) : Prop where
  table : T s.table s'.table
  function : s'.function = s.function
  loops : s'.loops = s.loops
  events : s'.events = before ++ s.events

/-- Both runs yield the same value or stop with the same diagnostic, in related states. -/
inductive RunsAlike (T : Table → Table → Prop) (before : Array Event) {α : Type} :
    EStateM.Result Diagnostic CheckState α → EStateM.Result Diagnostic CheckState α → Prop
  | ok (a : α) {s s' : CheckState} (related : s.Related T before s') :
      RunsAlike T before (.ok a s) (.ok a s')
  | error (d : Diagnostic) {s s' : CheckState} (related : s.Related T before s') :
      RunsAlike T before (.error d s) (.error d s')

namespace Check

/-- From related states, a part of the walk does the same. -/
def Alike (T : Table → Table → Prop) (before : Array Event) {α : Type} (m : CheckM α) : Prop :=
  ∀ ⦃s s'⦄, s.Related T before s' → RunsAlike T before (m s) (m s')

namespace Alike

variable {before : Array Event} {α β : Type} {m : CheckM α} {f : α → CheckM β}

theorem pure (a : α) : Alike T before (pure a) := fun _ _ h => .ok a h

theorem throw (d : Diagnostic) : Alike T before (throw d : CheckM α) := fun _ _ h => .error d h

theorem refuse (cause : Cause) (span : Span) : Alike T before (refuse cause span : CheckM α) :=
  .throw _

/-- Nothing behind a refusal is reached. -/
theorem refuse_bind (cause : Cause) (span : Span) (f : α → CheckM β) :
    Alike T before (Check.refuse cause span >>= f) := fun _ _ h => .error _ h

theorem require (r : Except Diagnostic α) : Alike T before (require r) := by
  cases r with
  | ok a => exact .pure a
  | error d => exact .throw d

/-- Of a value that is handed on, it is known which run it came from. -/
theorem bind_of_run (hm : Alike T before m)
    (hf : ∀ a s s₁, m s = .ok a s₁ → Alike T before (f a)) : Alike T before (m >>= f) := by
  intro s s' h
  have hrun := hm h
  simp only [Bind.bind, EStateM.bind]
  cases hm₁ : m s with
  | ok a s₁ =>
    rw [hm₁] at hrun
    cases hm₂ : m s' with
    | ok a' s₂ =>
      rw [hm₂] at hrun
      cases hrun with
      | ok a related => exact hf a s s₁ hm₁ related
    | error d s₂ => rw [hm₂] at hrun; cases hrun
  | error d s₁ =>
    rw [hm₁] at hrun
    cases hm₂ : m s' with
    | ok a' s₂ => rw [hm₂] at hrun; cases hrun
    | error d' s₂ =>
      rw [hm₂] at hrun
      cases hrun with
      | error d related => exact .error d related

theorem bind (hm : Alike T before m) (hf : ∀ a, Alike T before (f a)) :
    Alike T before (m >>= f) :=
  hm.bind_of_run fun a _ _ _ => hf a

/-- What goes on behind a look at the state is the same, for it looks the same in both. -/
theorem get_bind {f : CheckState → CheckM β} (same : ∀ ⦃s s'⦄, s.Related T before s' → f s' = f s)
    (hf : ∀ s, Alike T before (f s)) : Alike T before (get >>= f) := by
  intro s s' h
  have hrun := hf s h
  rw [← congrFun (same h) s'] at hrun
  exact hrun

theorem modify {g : CheckState → CheckState}
    (hg : ∀ ⦃s s'⦄, s.Related T before s' → (g s).Related T before (g s')) :
    Alike T before (modify g : CheckM Unit) := fun _ _ h => .ok () (hg h)

end Alike

/-! ## Steps that bind nothing -/

section Steps

variable {before : Array Event} {name : String} {span : Span} {e : Expr}

theorem alike_emit (event : Event) : Alike T before (emit event) :=
  .modify fun _ _ h => { h with events := by rw [h.events, Array.push_append] }

theorem alike_reportLoop (loop : Option LoopContext) :
    Alike T before (reportLoop loop) := by
  cases loop with
  | none => exact .pure ()
  | some loop => exact alike_emit _

theorem alike_breakLoop (span : Span) : Alike T before (breakLoop span) := by
  refine .get_bind (fun s s' h => by rw [h.loops]) fun s => ?_
  split
  · exact .refuse _ _
  · exact .modify fun _ _ h => { h with loops := rfl }

theorem alike_continueLoop (span : Span) : Alike T before (continueLoop span) := by
  refine .get_bind (fun s s' h => by rw [h.loops]) fun s => ?_
  split
  · exact .refuse _ _
  · exact .pure ()

theorem alike_insideLoop {m : CheckM Unit} (hm : Alike T before m) (span : Span) :
    Alike T before (insideLoop span m) := by
  intro s s' h
  have hinside : CheckState.Related T before
      { s with loops := { span, hasBreak := false } :: s.loops }
      { s' with loops := { span, hasBreak := false } :: s'.loops } :=
    { h with loops := by rw [h.loops] }
  have hrun := hm hinside
  unfold insideLoop
  generalize m { s with loops := { span, hasBreak := false } :: s.loops } = r,
    m { s' with loops := { span, hasBreak := false } :: s'.loops } = r' at hrun
  cases hrun with
  | error d related => exact .error d { related with loops := by rw [related.loops] }
  | ok _ related =>
    have hloops := related.loops
    dsimp only
    rw [hloops]
    exact .ok _ { related with loops := rfl }

theorem alike_insideFunction {m : CheckM Unit} (hm : Alike T before m)
    (context : FunctionContext) : Alike T before (insideFunction context m) := by
  intro s s' h
  have hinside : CheckState.Related T before { s with function := some context }
      { s' with function := some context } := { h with function := rfl }
  have hrun := hm hinside
  unfold insideFunction
  dsimp only
  generalize m { s with function := some context } = r,
    m { s' with function := some context } = r' at hrun
  cases hrun with
  | error d related => exact .error d { related with function := h.function }
  | ok _ related =>
    have hfunction := related.function
    dsimp only
    rw [hfunction]
    exact .ok _ { related with function := h.function }

theorem alike_loopBody {m : CheckM Unit} (hm : Alike T before m) (span : Span) :
    Alike T before (loopBody span m) :=
  (alike_insideLoop hm span).bind alike_reportLoop

variable (bisim : Table.Bisimulation N T)
include bisim

theorem alike_enterBlock (start : Location) : Alike T before (enterBlock start) := by
  intro s s' h
  have hevents :
      s'.events.push (.enterScope s'.table.scopes.length s'.table.current) =
        before ++ s.events.push (.enterScope s.table.scopes.length s.table.current) := by
    rw [bisim.count h.table, bisim.current h.table, h.events, Array.push_append]
  exact .ok () { h with table := bisim.enter h.table (some start), events := hevents }

theorem alike_exitBlock : Alike T before exitBlock := by
  intro s s' h
  have hcurrent := bisim.current h.table
  have hexit := bisim.exit h.table
  change RunsAlike T before ((require s.table.exit >>= fun outer => _) s)
    ((require s'.table.exit >>= fun outer => _) s')
  generalize s.table.exit = r, s'.table.exit = r' at hexit ⊢
  cases hexit with
  | error d => exact .error d h
  | @ok outer outer' related =>
    have hevents :
        s'.events.push (.exitScope s'.table.current outer'.current) =
          before ++ s.events.push (.exitScope s.table.current outer.current) := by
      rw [hcurrent, bisim.current related, h.events, Array.push_append]
    exact .ok () { h with table := related, events := hevents }

theorem alike_define {symbol : Symbol} (hname : N symbol.name) :
    Alike T before (define symbol) := by
  intro s s' h
  have hdefine := bisim.define h.table hname
  change RunsAlike T before ((require (s.table.define symbol) >>= fun table => _) s)
    ((require (s'.table.define symbol) >>= fun table => _) s')
  generalize s.table.define symbol = r, s'.table.define symbol = r' at hdefine ⊢
  cases hdefine with
  | error d => exact .error d h
  | ok related => exact .ok () { h with table := related }

theorem alike_defineAll :
    ∀ {symbols : List Symbol}, (∀ symbol ∈ symbols, N symbol.name) →
      Alike T before (defineAll symbols)
  | [], _ => .pure ()
  | symbol :: symbols, hN => by
    rw [List.forall_mem_cons] at hN
    exact (alike_define bisim hN.1).bind fun _ => alike_defineAll hN.2

theorem alike_requireFresh (hname : N name) (span : Span) :
    Alike T before (requireFresh name span) := by
  refine .get_bind (fun s s' h => by rw [bisim.agree h.table hname]) fun s => ?_
  split
  · exact .throw _
  · exact .pure ()

theorem alike_resolve (he : ∀ name ∈ e.names, N name) : Alike T before (resolve e) :=
  .get_bind (fun s s' h => by rw [(bisim.interchangeable h.table he).resolve]) fun s => .require _

theorem alike_requireValue (he : ∀ name ∈ e.names, N name) (ty : Ty) (span : Span) :
    Alike T before (requireValue ty e span) := by
  refine (alike_resolve bisim he).bind fun _ => .get_bind (fun s s' h => ?_) fun s => ?_
  · dsimp only
    rw [(bisim.interchangeable h.table he).fits, (bisim.interchangeable h.table he).type?]
  · dsimp only
    split
    · exact .pure ()
    · exact .refuse _ _

theorem alike_condition (he : ∀ name ∈ e.names, N name) (construct : Construct) (span : Span) :
    Alike T before (condition construct e span) := by
  refine (alike_resolve bisim he).bind fun _ => .get_bind (fun s s' h => ?_) fun s => ?_
  · rw [(bisim.interchangeable h.table he).fits]
  · split
    · exact .pure ()
    · exact .refuse _ _

theorem alike_elseConditions :
    ∀ {branches : List Branch}, (∀ name ∈ branchNames branches, N name) →
      Alike T before (elseConditions branches)
  | [], _ => .pure ()
  | .mk test body span :: branches, hN => by
    simp only [branchNames, List.forall_mem_append] at hN
    exact (alike_condition bisim hN.1 _ _).bind fun _ => alike_elseConditions hN.2.2

theorem alike_conditions {branches : List Branch} (hN : ∀ name ∈ branchNames branches, N name) :
    Alike T before (conditions branches) := by
  cases branches with
  | nil => exact .pure ()
  | cons branch branches =>
    obtain ⟨test, body, span⟩ := branch
    simp only [branchNames, List.forall_mem_append] at hN
    exact (alike_condition bisim hN.1 _ _).bind fun _ => alike_elseConditions bisim hN.2.2

theorem alike_assignment (hname : N name) (he : ∀ name ∈ e.names, N name) (span : Span) :
    Alike T before (assignment name e span) := by
  rw [assignment_eq]
  refine .get_bind (fun s s' h => by rw [bisim.agree h.table hname]) fun s => ?_
  split
  · exact .refuse _ _
  · exact .refuse _ _
  · exact alike_requireValue bisim he _ span

theorem alike_expressionStatement (he : ∀ name ∈ e.names, N name) (span : Span) :
    Alike T before (expressionStatement e span) := by
  refine (alike_resolve bisim he).bind fun _ => .get_bind (fun s s' h => ?_) fun s => ?_
  · rw [(bisim.interchangeable h.table he).type?]
  · split
    · exact .refuse _ _
    · exact .pure ()

theorem alike_ret {value : Option Expr} (hvalue : ∀ e, value = some e → ∀ name ∈ e.names, N name)
    (span : Span) : Alike T before (ret value span) := by
  refine .get_bind (fun s s' h => by rw [h.function]) fun s => ?_
  split
  · exact .refuse _ _
  · next context _ =>
    have hinspect : Alike T before (modify fun s => { s with
        function := some { context with
          returns := context.returns.inspect s.table value span } }) :=
      .modify fun s s' h => { h with
        function := by rw [context.returns.inspect_eq (bisim.agree h.table) value span hvalue] }
    cases value with
    | none => exact hinspect
    | some e => exact (alike_resolve bisim (hvalue e rfl)).bind fun _ => hinspect

/-! ## Declarations -/

theorem alike_declaration (hname : N name) (ty : Ty) (span : Span) :
    Alike T before (declaration name ty span) := by
  refine (alike_requireFresh bisim hname span).bind fun _ => ?_
  split
  · exact .refuse _ _
  · next symbol hsymbol =>
    rw [← (declared?_at hsymbol).1] at hname
    exact (alike_emit _).bind fun _ => alike_define bisim hname

theorem alike_bindValue (hname : N name) (he : ∀ name ∈ e.names, N name) (ty : Ty) (span : Span) :
    Alike T before (bindValue name ty e span) := by
  refine .get_bind (fun s s' h => by rw [(bisim.interchangeable h.table he).fold?]) fun s => ?_
  split
  · exact .refuse _ _
  · exact (alike_emit _).bind fun _ => alike_define bisim hname

theorem alike_typedDefinition (hname : N name) (he : ∀ name ∈ e.names, N name) (ty : Ty)
    (span : Span) : Alike T before (typedDefinition name ty e span) := by
  refine (alike_requireFresh bisim hname span).bind fun _ => ?_
  dsimp only
  split
  · exact .refuse_bind _ _ _
  · exact (alike_requireValue bisim he ty span).bind fun _ =>
      alike_bindValue bisim hname he ty span

theorem alike_inferredDefinition (hname : N name) (he : ∀ name ∈ e.names, N name) (span : Span) :
    Alike T before (inferredDefinition name e span) := by
  refine (alike_requireFresh bisim hname span).bind fun _ => (alike_resolve bisim he).bind fun _ =>
    .get_bind (fun s s' h => ?_) fun s => ?_
  · simp only [(bisim.interchangeable h.table he).type?, (bisim.interchangeable h.table he).fits]
  · dsimp only
    split
    · exact .refuse _ _
    · split
      · exact .refuse_bind _ _ _
      · split
        · exact alike_bindValue bisim hname he _ span
        · exact .refuse_bind _ _ _

/-! ## Blocks and functions -/

theorem alike_insideBlock {m : CheckM Unit} (hm : Alike T before m) (start : Location) :
    Alike T before (insideBlock start m) :=
  (alike_enterBlock bisim start).bind fun _ => hm.bind fun _ => alike_exitBlock bisim

theorem alike_functionHead (hname : N name) (params : List Param) (returns : Option Ty)
    (span : Span) : Alike T before (functionHead name params returns span) := by
  unfold functionHead
  dsimp only
  split
  · exact .refuse_bind _ _ _
  · refine (alike_requireFresh bisim hname span).bind fun _ =>
      (Alike.require _).bind fun symbols => (alike_emit _).bind fun _ => ?_
    split
    · refine (alike_define bisim ?_).bind fun _ => .pure _
      exact hname
    · exact .pure _

theorem alike_functionTail {symbol : Symbol} (hname : N symbol.name) (name : String)
    (returns : Option Ty) (body : Block) (span : Span) (context : Option FunctionContext) :
    Alike T before (functionTail name returns body span symbol context) := by
  have hbind : Alike T before (if returns.isNone then define symbol else pure ()) := by
    split
    · exact alike_define bisim hname
    · exact .pure ()
  cases context with
  | none => exact .throw _
  | some context =>
    refine (alike_emit _).bind fun _ => (Alike.require _).bind fun _ => ?_
    dsimp only
    split
    · exact .refuse_bind _ _ _
    · exact hbind

theorem alike_functionBody {params : List Param} {m : CheckM Unit} (hname : N name)
    (hparams : ∀ name ∈ params.map Param.name, N name) (hm : Alike T before m)
    (returns : Option Ty) (body : Block) (span : Span) :
    Alike T before (functionBody name params returns body span m) := by
  refine (alike_functionHead bisim hname params returns span).bind_of_run fun head s s₁ hhead => ?_
  obtain ⟨-, -, hsymbols, hsymbol, -⟩ := functionHead_ok.1 hhead
  have hnames : ∀ symbol ∈ head.1, N symbol.name := by
    rw [← (paramSymbols_entities hsymbols).1] at hparams
    exact List.forall_mem_map.1 hparams
  have hown : N head.2.name := by
    rw [hsymbol]
    exact hname
  exact (alike_enterBlock bisim _).bind fun _ => (alike_defineAll bisim hnames).bind fun _ =>
    (alike_insideFunction hm _).bind fun _ => (alike_exitBlock bisim).bind fun _ =>
      alike_functionTail bisim hown _ _ _ _ _

end Steps

end Check

/-! ## Statements -/

open Check in
mutual

/-- A statement does the same from related states, if the relation speaks of all names that
the statement mentions. -/
theorem Stmt.check_alike (bisim : Table.Bisimulation N T) {before : Array Event} :
    (stmt : Stmt) → (∀ name ∈ stmt.names, N name) → Alike T before stmt.check
  | .needs .., _ => by
    rw [Stmt.check]
    exact alike_emit _
  | .declare name ty span, hN => by
    rw [Stmt.check]
    exact alike_declaration bisim (hN name List.mem_cons_self) ty span
  | .define name (some ty) value span, hN => by
    rw [Stmt.names, List.forall_mem_cons] at hN
    rw [Stmt.check]
    exact alike_typedDefinition bisim hN.1 hN.2 ty span
  | .define name none value span, hN => by
    rw [Stmt.names, List.forall_mem_cons] at hN
    rw [Stmt.check]
    exact alike_inferredDefinition bisim hN.1 hN.2 span
  | .assign name value span, hN => by
    rw [Stmt.names, List.forall_mem_cons] at hN
    rw [Stmt.check]
    exact alike_assignment bisim hN.1 hN.2 span
  | .function name params returns (.mk statements bodySpan) span, hN => by
    simp only [Stmt.names, Block.names, List.forall_mem_cons, List.forall_mem_append] at hN
    rw [Stmt.check_function]
    exact alike_functionBody bisim hN.1 hN.2.1 (checkAll_alike bisim statements hN.2.2) _ _ _
  | .ifChain branches none _, hN => by
    rw [Stmt.names] at hN
    rw [Stmt.check]
    exact (alike_conditions bisim hN).bind fun _ =>
      (checkBranches_alike bisim branches hN).bind fun _ => .pure ()
  | .ifChain branches (some body) _, hN => by
    rw [Stmt.names, List.forall_mem_append] at hN
    rw [Stmt.check]
    exact (alike_conditions bisim hN.1).bind fun _ =>
      (checkBranches_alike bisim branches hN.1).bind fun _ => body.check_alike bisim hN.2
  | .whileLoop test body span, hN => by
    rw [Stmt.names, List.forall_mem_append] at hN
    rw [Stmt.check_whileLoop]
    exact (alike_condition bisim hN.1 _ _).bind fun _ =>
      alike_loopBody (body.check_alike bisim hN.2) span
  | .block body, hN => by
    rw [Stmt.check]
    exact body.check_alike bisim hN
  | .ret none span, _ => by
    rw [Stmt.check]
    exact alike_ret bisim (by simp) span
  | .ret (some value) span, hN => by
    rw [Stmt.check]
    refine alike_ret bisim (fun _ he => ?_) span
    cases he
    exact hN
  | .breakLoop span, _ => by
    rw [Stmt.check]
    exact alike_breakLoop span
  | .continueLoop span, _ => by
    rw [Stmt.check]
    exact alike_continueLoop span
  | .expression value span, hN => by
    rw [Stmt.check]
    exact alike_expressionStatement bisim hN span
  | .error text reason span, _ => by
    rw [Stmt.check]
    exact .refuse _ _

theorem Block.check_alike (bisim : Table.Bisimulation N T) {before : Array Event} :
    (body : Block) → (∀ name ∈ body.names, N name) → Alike T before body.check
  | .mk statements span, hN => by
    rw [Block.check_eq]
    exact alike_insideBlock bisim (checkAll_alike bisim statements hN) _

theorem checkAll_alike (bisim : Table.Bisimulation N T) {before : Array Event} :
    (statements : List Stmt) → (∀ name ∈ statementNames statements, N name) →
      Alike T before (checkAll statements)
  | [], _ => by
    rw [checkAll]
    exact .pure ()
  | stmt :: statements, hN => by
    rw [statementNames, List.forall_mem_append] at hN
    rw [checkAll]
    exact (stmt.check_alike bisim hN.1).bind fun _ => checkAll_alike bisim statements hN.2

theorem checkBranches_alike (bisim : Table.Bisimulation N T) {before : Array Event} :
    (branches : List Branch) → (∀ name ∈ branchNames branches, N name) →
      Alike T before (checkBranches branches)
  | [], _ => by
    rw [checkBranches]
    exact .pure ()
  | .mk test body span :: branches, hN => by
    simp only [branchNames, List.forall_mem_append] at hN
    rw [checkBranches]
    exact (body.check_alike bisim hN.2.1).bind fun _ => checkBranches_alike bisim branches hN.2.2

end

end Slate
