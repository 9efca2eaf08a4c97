-- SUMMARY: For each step of the checker, exactly when it succeeds and what state it then leaves.
import Slate.Proofs.Check.Walk
import Slate.Proofs.Typing.Resolution

/-!
# Success

A step of the checker either succeeds or stops the walk. Each lemma here says of
one step from which states it succeeds and which state it leaves, so that nothing
else about the step has to be looked at again. Resolution drops out wherever an
expression has to have a type anyway.
-/

namespace Slate

namespace Check

variable {α : Type} {s s' : CheckState} {u : Unit}

/-! ## Primitive steps -/

@[simp] theorem refuse_ok {cause : Cause} {span : Span} {a : α} :
    ¬ (refuse cause span : CheckM α) s = .ok a s' := throw_ok

@[simp] theorem require_ok {r : Except Diagnostic α} {a : α} :
    require r s = .ok a s' ↔ r = .ok a ∧ s' = s := by
  cases r with
  | ok b => simp [require, eq_comm]
  | error d => simp [require]

@[simp] theorem emit_ok {event : Event} :
    emit event s = .ok u s' ↔ s' = { s with events := s.events.push event } := modify_ok

@[simp] theorem resolve_ok {e : Expr} :
    resolve e s = .ok u s' ↔ e.resolve s.table = .ok () ∧ s' = s := by
  rw [resolve, get_bind_ok, require_ok]

@[simp] theorem requireFresh_ok {name : String} {span : Span} :
    requireFresh name span s = .ok u s' ↔ s.table.lookup? name = none ∧ s' = s := by
  rw [requireFresh, get_bind_ok]
  cases s.table.lookup? name with
  | some existing => simp
  | none => simp

@[simp] theorem define_ok {symbol : Symbol} :
    define symbol s = .ok u s' ↔
      ∃ table, s.table.define symbol = .ok table ∧ s' = { s with table } := by
  rw [define, get_bind_ok]
  simp [bind_ok, and_assoc]

theorem defineAll_cons_ok {symbol : Symbol} {symbols : List Symbol} :
    defineAll (symbol :: symbols) s = .ok u s' ↔
      ∃ table, s.table.define symbol = .ok table ∧
        defineAll symbols { s with table } = .ok u s' := by
  have hcons : defineAll (symbol :: symbols) = (define symbol >>= fun _ => defineAll symbols) := rfl
  rw [hcons]
  simp only [bind_ok, define_ok]
  constructor
  · rintro ⟨_, _, ⟨table, hdefine, rfl⟩, h⟩
    exact ⟨table, hdefine, h⟩
  · rintro ⟨table, hdefine, h⟩
    exact ⟨(), _, ⟨table, hdefine, rfl⟩, h⟩

@[simp] theorem enterBlock_ok {start : Location} :
    enterBlock start s = .ok u s' ↔
      s' = { s with
        table := s.table.enter (some start)
        events := s.events.push (.enterScope s.table.scopes.length s.table.current) } := by
  rw [enterBlock, get_bind_ok]
  simp [bind_ok]

@[simp] theorem exitBlock_ok :
    exitBlock s = .ok u s' ↔
      ∃ outer, s.table.exit = .ok outer ∧ s' = { s with
        table := outer
        events := s.events.push (.exitScope s.table.current outer.current) } := by
  rw [exitBlock, get_bind_ok]
  simp [bind_ok, and_assoc]

/-! ## Expressions in their place -/

@[simp] theorem requireValue_ok {ty : Ty} {e : Expr} {span : Span} :
    requireValue ty e span s = .ok u s' ↔ e.fits s.table ty = true ∧ s' = s := by
  simp only [requireValue, bind_ok, resolve_ok]
  by_cases hfit : e.fits s.table ty = true
  · simp [hfit, Expr.resolve_of_fits hfit, and_assoc]
  · simp [hfit, and_assoc]

@[simp] theorem condition_ok {construct : Construct} {e : Expr} {span : Span} :
    condition construct e span s = .ok u s' ↔ e.fits s.table .bool = true ∧ s' = s := by
  simp only [condition, bind_ok, resolve_ok]
  by_cases hfit : e.fits s.table .bool = true
  · simp [hfit, Expr.resolve_of_fits hfit, and_assoc]
  · simp [hfit, and_assoc]

theorem elseConditions_ok {branches : List Branch} :
    elseConditions branches s = .ok u s' ↔
      (∀ b ∈ branches, b.condition.fits s.table .bool = true) ∧ s' = s := by
  induction branches with
  | nil => simp [elseConditions]
  | cons branch branches ih =>
    obtain ⟨test, body, span⟩ := branch
    simp [elseConditions, bind_ok, ih, Branch.condition, and_assoc]

@[simp] theorem conditions_ok {branches : List Branch} :
    conditions branches s = .ok u s' ↔
      (∀ b ∈ branches, b.condition.fits s.table .bool = true) ∧ s' = s := by
  cases branches with
  | nil => simp [conditions]
  | cons branch branches =>
    obtain ⟨test, body, span⟩ := branch
    simp [conditions, bind_ok, elseConditions_ok, Branch.condition, and_assoc]

/-! ## Declarations and assignments -/

@[simp] theorem declaration_ok {name : String} {ty : Ty} {span : Span} :
    declaration name ty span s = .ok u s' ↔
      s.table.lookup? name = none ∧ ∃ symbol, Symbol.declared? ty name span = some symbol ∧
        ∃ table, s.table.define symbol = .ok table ∧
          s' = { s with table, events := s.events.push (.declare name ty) } := by
  simp only [declaration, bind_ok, requireFresh_ok]
  cases Symbol.declared? ty name span with
  | none => simp
  | some symbol =>
    simp only [bind_ok, define_ok, emit_ok]
    constructor
    · rintro ⟨_, _, ⟨hfresh, rfl⟩, _, _, rfl, table, hdefine, rfl⟩
      exact ⟨hfresh, symbol, rfl, table, hdefine, rfl⟩
    · rintro ⟨hfresh, _, ⟨⟩, table, hdefine, rfl⟩
      exact ⟨(), s, ⟨hfresh, rfl⟩, (), _, rfl, table, hdefine, rfl⟩

/-- Folding an initializer yields a value of the type it is folded at. -/
theorem fold?_ty {t : Table} {e : Expr} {ty : Ty} {folded : Folded Value}
    (h : e.fold? t ty = some folded) : folded.value.ty = ty := by
  cases ty <;> cases h <;> rfl

theorem bindValue_ok {name : String} {ty : Ty} {e : Expr} {span : Span} :
    bindValue name ty e span s = .ok u s' ↔
      ∃ folded, e.fold? s.table ty = some folded ∧
        ∃ table, s.table.define (.initialized name span folded.value folded.known) = .ok table ∧
          s' = { s with
            table
            events := s.events.push (.define name ty
              (Symbol.initialized name span folded.value folded.known).knownValue?) } := by
  rw [bindValue, get_bind_ok]
  cases e.fold? s.table ty with
  | none => simp
  | some folded => simp [bind_ok]

@[simp] theorem typedDefinition_ok {name : String} {ty : Ty} {e : Expr} {span : Span} :
    typedDefinition name ty e span s = .ok u s' ↔
      s.table.lookup? name = none ∧ e.fits s.table ty = true ∧
        bindValue name ty e span s = .ok u s' := by
  simp only [typedDefinition, bind_ok, requireFresh_ok]
  by_cases hvoid : ty = .void
  · -- a definition with type `void` is refused outright, and nothing would fit that type either
    subst hvoid
    have hfit : ¬ e.fits s.table .void = true := fun h => ((Expr.fits_iff_type? _ _ _).1 h).1 rfl
    simp [bind_ok, hfit, and_assoc]
  · simp [bind_ok, hvoid, and_assoc]

@[simp] theorem inferredDefinition_ok {name : String} {e : Expr} {span : Span} :
    inferredDefinition name e span s = .ok u s' ↔
      s.table.lookup? name = none ∧ ∃ ty, e.type? s.table = some ty ∧ ty ≠ .void ∧
        bindValue name ty e span s = .ok u s' := by
  simp only [inferredDefinition, bind_ok, requireFresh_ok, resolve_ok]
  cases hty : e.type? s.table with
  | none => simp [hty, and_assoc]
  | some ty =>
    by_cases hvoid : ty = .void
    · simp [hty, hvoid, bind_ok, e.resolve_of_type? hty, and_assoc]
    · -- the second check, against the type just inferred, cannot fail
      have hfit : e.fits s.table ty = true := (Expr.fits_iff_type? _ _ _).2 ⟨hvoid, hty⟩
      simp [hty, hvoid, hfit, e.resolve_of_type? hty, and_assoc]

@[simp] theorem assignment_ok {name : String} {e : Expr} {span : Span} :
    assignment name e span s = .ok u s' ↔
      ∃ v, s.table.boundVariable? name = some v ∧ e.fits s.table v.value.ty = true ∧ s' = s := by
  rw [assignment_eq, get_bind_ok, Table.boundVariable?]
  cases s.table.lookup? name with
  | none => simp
  | some symbol => cases symbol <;> simp

@[simp] theorem expressionStatement_ok {e : Expr} {span : Span} :
    expressionStatement e span s = .ok u s' ↔ (∃ ty, e.type? s.table = some ty) ∧ s' = s := by
  simp only [expressionStatement, bind_ok, resolve_ok]
  cases hty : e.type? s.table with
  | none => simp [hty, and_assoc]
  | some ty => simp [hty, e.resolve_of_type? hty, and_assoc]

/-! ## Jumps -/

@[simp] theorem ret_ok {value : Option Expr} {span : Span} :
    ret value span s = .ok u s' ↔
      ∃ context, s.function = some context ∧
        (∀ e, value = some e → e.resolve s.table = .ok ()) ∧
        s' = { s with function := some { context with
          returns := context.returns.inspect s.table value span } } := by
  rw [ret, get_bind_ok]
  cases s.function with
  | none => simp
  | some context => cases value <;> simp [bind_ok, and_assoc]

@[simp] theorem breakLoop_ok {span : Span} :
    breakLoop span s = .ok u s' ↔
      ∃ loop outer, s.loops = loop :: outer ∧
        s' = { s with loops := { loop with hasBreak := true } :: outer } := by
  rw [breakLoop, get_bind_ok]
  cases s.loops with
  | nil => simp
  | cons loop outer => simp [and_assoc]

@[simp] theorem continueLoop_ok {span : Span} :
    continueLoop span s = .ok u s' ↔ s.loops ≠ [] ∧ s' = s := by
  rw [continueLoop, get_bind_ok]
  cases s.loops with
  | nil => simp
  | cons loop outer => simp

/-! ## Loops and functions around a body -/

theorem insideLoop_ok {span : Span} {body : CheckM Unit} {loop : Option LoopContext} :
    insideLoop span body s = .ok loop s' ↔
      ∃ s₁, body { s with loops := { span, hasBreak := false } :: s.loops } = .ok () s₁ ∧
        loop = s₁.loops.head? ∧ s' = { s₁ with loops := s₁.loops.tail } := by
  unfold insideLoop
  cases body { s with loops := { span, hasBreak := false } :: s.loops } <;> simp [eq_comm]

theorem insideFunction_ok {context : FunctionContext} {body : CheckM Unit}
    {after : Option FunctionContext} :
    insideFunction context body s = .ok after s' ↔
      ∃ s₁, body { s with function := some context } = .ok () s₁ ∧
        after = s₁.function ∧ s' = { s₁ with function := s.function } := by
  unfold insideFunction
  cases body { s with function := some context } <;> simp [eq_comm]

theorem reportLoop_ok {loop : Option LoopContext} (h : reportLoop loop s = .ok u s') :
    ∃ events, s' = { s with events } := by
  cases loop with
  | none => exact ⟨s.events, (pure_ok.1 h).2⟩
  | some loop => exact ⟨_, emit_ok.1 h⟩

theorem exists_reportLoop (loop : Option LoopContext) (s : CheckState) :
    ∃ s', reportLoop loop s = .ok () s' := by
  cases loop with
  | none => exact ⟨_, rfl⟩
  | some loop => exact ⟨_, rfl⟩

theorem paramSymbols_cons_ok {function : String} {p : Param} {params : List Param}
    {symbols : List Symbol} :
    paramSymbols function (p :: params) = .ok symbols ↔
      ∃ symbol rest, Symbol.parameter? p.ty p.name p.span = some symbol ∧
        paramSymbols function params = .ok rest ∧ symbols = symbol :: rest := by
  rw [paramSymbols]
  cases Symbol.parameter? p.ty p.name p.span with
  | none => simp
  | some symbol => cases paramSymbols function params <;> simp [Except.map, eq_comm]

theorem functionHead_ok {name : String} {params : List Param} {returns : Option Ty} {span : Span}
    {head : List Symbol × Symbol} :
    functionHead name params returns span s = .ok head s' ↔
      Builtin.isName name = false ∧ s.table.lookup? name = none ∧
        paramSymbols name params = .ok head.1 ∧
        head.2 = .function name span head.1 (returns.getD .void) ∧
        ∃ table, (if returns.isSome then s.table.define head.2 else .ok s.table) = .ok table ∧
          s' = { s with
            table
            events := s.events.push (.defineFunction name {
              params := head.1.filterMap Symbol.valueType?
              returns := returns.getD .void }) } := by
  obtain ⟨symbols, symbol⟩ := head
  cases hbuiltin : Builtin.isName name with
  | true => simp [functionHead, hbuiltin, bind_ok]
  | false =>
    -- with a written return type the function is bound before its body, without one after it
    cases returns with
    | none =>
      simp only [functionHead, hbuiltin, Bool.false_eq_true, ↓reduceIte, Option.isSome_none,
        bind_ok, requireFresh_ok, require_ok, emit_ok, pure_ok]
      constructor
      · rintro ⟨_, _, ⟨hfresh, rfl⟩, _, _, ⟨hsymbols, rfl⟩, _, _, rfl, ⟨⟩, rfl⟩
        exact ⟨trivial, hfresh, hsymbols, rfl, _, rfl, rfl⟩
      · rintro ⟨-, hfresh, hsymbols, rfl, _, ⟨⟩, rfl⟩
        exact ⟨(), _, ⟨hfresh, rfl⟩, symbols, _, ⟨hsymbols, rfl⟩, (), _, rfl, rfl, rfl⟩
    | some ty =>
      simp only [functionHead, hbuiltin, Bool.false_eq_true, ↓reduceIte, Option.isSome_some,
        bind_ok, requireFresh_ok, require_ok, emit_ok, define_ok, pure_ok]
      constructor
      · rintro ⟨_, _, ⟨hfresh, rfl⟩, _, _, ⟨hsymbols, rfl⟩, _, _, rfl, _, _,
          ⟨table, hdefine, rfl⟩, ⟨⟩, rfl⟩
        exact ⟨trivial, hfresh, hsymbols, rfl, table, hdefine, rfl⟩
      · rintro ⟨-, hfresh, hsymbols, rfl, table, hdefine, rfl⟩
        exact ⟨(), _, ⟨hfresh, rfl⟩, symbols, _, ⟨hsymbols, rfl⟩, (), _, rfl, (), _,
          ⟨table, hdefine, rfl⟩, rfl, rfl⟩

theorem Returns.finish_ok {r : Returns} {x : Unit} : r.finish = .ok x ↔ r.mismatch = none := by
  unfold Returns.finish
  cases r.mismatch <;> simp

theorem functionTail_ok {name : String} {returns : Option Ty} {body : Block} {span : Span}
    {symbol : Symbol} {context : Option FunctionContext} :
    functionTail name returns body span symbol context s = .ok u s' ↔
      ∃ c, context = some c ∧ c.returns.mismatch = none ∧
        (returns.getD .void ≠ .void → body.returnsOnAllPaths = true) ∧
        ∃ table, (if returns.isNone then s.table.define symbol else .ok s.table) = .ok table ∧
          s' = { s with
            table
            events := s.events.push (.functionChecked c.name c.returns.inspected) } := by
  cases context with
  | none => simp [functionTail]
  | some c =>
    have hfinish : ∀ x, c.returns.finish = .ok x ↔ c.returns.mismatch = none :=
      fun x => Returns.finish_ok
    cases returns with
    | none => simp [functionTail, hfinish, bind_ok, and_assoc]
    | some ty =>
      by_cases hty : ty = .void
      · simp [functionTail, hfinish, hty, bind_ok]
      · cases hpaths : body.returnsOnAllPaths <;>
          simp [functionTail, hfinish, hty, hpaths, bind_ok]

end Check

/-! ## Statements and programs -/

theorem checkAll_nil_ok {s s' : CheckState} {u : Unit} :
    checkAll [] s = .ok u s' ↔ s' = s := by
  rw [checkAll, pure_ok]
  exact and_iff_right rfl

theorem checkAll_cons_ok {stmt : Stmt} {statements : List Stmt} {s s' : CheckState} {u : Unit} :
    checkAll (stmt :: statements) s = .ok u s' ↔
      ∃ s₁, stmt.check s = .ok () s₁ ∧ checkAll statements s₁ = .ok u s' := by
  rw [checkAll, bind_ok]
  constructor
  · rintro ⟨_, s₁, h₁, h₂⟩
    exact ⟨s₁, h₁, h₂⟩
  · rintro ⟨s₁, h₁, h₂⟩
    exact ⟨(), s₁, h₁, h₂⟩

theorem checkAll_append_ok {statements more : List Stmt} {s s' : CheckState} {u : Unit} :
    checkAll (statements ++ more) s = .ok u s' ↔
      ∃ s₁, checkAll statements s = .ok () s₁ ∧ checkAll more s₁ = .ok u s' := by
  induction statements generalizing s with
  | nil => simp [checkAll_nil_ok]
  | cons stmt statements ih =>
    simp only [List.cons_append, checkAll_cons_ok, ih]
    constructor
    · rintro ⟨s₁, h₁, s₂, h₂, h₃⟩
      exact ⟨s₂, ⟨s₁, h₁, h₂⟩, h₃⟩
    · rintro ⟨s₂, ⟨s₁, h₁, h₂⟩, h₃⟩
      exact ⟨s₁, h₁, s₂, h₂, h₃⟩

namespace Program

variable {program : Program}

theorem check_ok {s s' : CheckState} :
    program.check s = .ok () s' ↔
      ∃ s₁, checkAll program.statements s = .ok () s₁ ∧ s' = { s₁ with
        events := s₁.events.push (.programChecked s₁.table.scopes.length s₁.table.globals) } := by
  simp only [Program.check, bind_ok, Check.emit_ok]
  constructor
  · rintro ⟨_, s₁, h₁, _, _, hget, rfl⟩
    cases hget
    exact ⟨s₁, h₁, rfl⟩
  · rintro ⟨s₁, h₁, rfl⟩
    exact ⟨(), s₁, h₁, s₁, s₁, rfl, rfl⟩

/-- The table of an accepted program is that of the walk over its statements. -/
theorem analyze_eq_ok {t : Table} :
    program.analyze = .ok t ↔
      ∃ s, checkAll program.statements (.start .empty) = .ok () s ∧ s.table = t := by
  simp only [Program.analyze, Program.outcome, Program.checkFrom]
  constructor
  · intro h
    cases hcheck : program.check (.start .empty) with
    | ok u s' =>
      simp only [hcheck, Except.ok.injEq] at h
      obtain ⟨s₁, hs₁, rfl⟩ := check_ok.1 hcheck
      exact ⟨s₁, hs₁, h⟩
    | error d s' => simp [hcheck] at h
  · rintro ⟨s, hs, rfl⟩
    simp only [check_ok.2 ⟨s, hs, rfl⟩]

theorem exists_analyze (h : program.analyze.toBool = true) : ∃ t, program.analyze = .ok t := by
  cases hanalyze : program.analyze with
  | ok t => exact ⟨t, rfl⟩
  | error d =>
    rw [hanalyze] at h
    cases h

end Program

end Slate
