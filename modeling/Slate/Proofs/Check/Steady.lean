-- SUMMARY: What every part of a walk over a program keeps: the frames around it, the loops, the function, and old mismatches.
import Slate.Proofs.Check.Success
import Slate.Proofs.Check.Walk
import Slate.Proofs.Check.WellFormed

/-!
# Steady walks

A part of the walk that succeeds leaves the environment as it was but for the
innermost frame, is inside the same loops and the same function as before, and
never forgets a return that disagrees with the type of its function. So if no
return disagrees at the end of a walk, none did anywhere on the way.
-/

namespace Slate

/-! ## States in order -/

namespace CheckState

/-- What is around the point that the walk has reached. -/
def surroundings (s : CheckState) : Surroundings where
  inLoop := !s.loops.isEmpty
  returns := s.function.map (·.returns.declared)

/-- The environment at the point that the walk has reached. -/
def env (s : CheckState) : Env := s.table.env

/-- No return met so far disagrees with the type of its function. -/
def Agrees (s : CheckState) : Prop := ∀ c, s.function = some c → c.returns.mismatch = none

/-- The table is coherent and the returns agree. -/
structure InOrder (s : CheckState) : Prop where
  coherent : s.table.Coherent
  agrees : s.Agrees

/-- What every part of a walk keeps. -/
structure Steady (s s' : CheckState) : Prop where
  coherent : s'.table.Coherent
  outer : s'.env.tail = s.env.tail
  loops : s'.loops.length = s.loops.length
  declared : s'.surroundings.returns = s.surroundings.returns
  agreed : s'.Agrees → s.Agrees

variable {s s' s'' : CheckState}

theorem Steady.refl (h : s.table.Coherent) : Steady s s :=
  { coherent := h, outer := rfl, loops := rfl, declared := rfl, agreed := id }

theorem Steady.trans (h : Steady s s') (h' : Steady s' s'') : Steady s s'' where
  coherent := h'.coherent
  outer := h'.outer.trans h.outer
  loops := h'.loops.trans h.loops
  declared := h'.declared.trans h.declared
  agreed := h.agreed ∘ h'.agreed

theorem Steady.surroundings (h : Steady s s') : s'.surroundings = s.surroundings := by
  have hinLoop : s'.surroundings.inLoop = s.surroundings.inLoop := by
    have hloops := h.loops
    simp only [CheckState.surroundings]
    cases hs : s.loops <;> cases hs' : s'.loops <;> simp_all
  rw [Surroundings.ext_iff]
  exact ⟨hinLoop, h.declared⟩

/-- A step that only reports. -/
theorem Steady.events (h : s.table.Coherent) (events : Array Event) : Steady s { s with events } :=
  { coherent := h, outer := rfl, loops := rfl, declared := rfl, agreed := id }

/-- A step that binds a symbol. -/
theorem Steady.define {symbol : Symbol} {table : Table} (h : s.table.Coherent)
    (hdefine : s.table.define symbol = .ok table) (events : Array Event) :
    Steady s { s with table, events } where
  coherent := h.define hdefine
  outer := by
    rw [env, h.env_define hdefine, env]
    cases s.table.env <;> rfl
  loops := rfl
  declared := rfl
  agreed := id

end CheckState

/-- A return agrees with the account of its function if all before it do and it does. -/
theorem Returns.inspect_mismatch {r : Returns} {t : Table} {value : Option Expr} {span : Span} :
    (r.inspect t value span).mismatch = none ↔
      r.mismatch = none ∧ Returns.agrees t r.declared value = true := by
  unfold Returns.inspect
  cases r.mismatch with
  | none => simp
  | some first => simp

/-- A step that takes account of a return. -/
theorem CheckState.Steady.inspect {s : CheckState} {c : FunctionContext} (h : s.table.Coherent)
    (hc : s.function = some c) (value : Option Expr) (span : Span) :
    Steady s { s with function := some { c with
      returns := c.returns.inspect s.table value span } } where
  coherent := h
  outer := rfl
  loops := rfl
  declared := by
    simp only [CheckState.surroundings, hc]
    rfl
  agreed := by
    intro hagrees c' hc'
    cases hc.symm.trans hc'
    exact (Returns.inspect_mismatch.1 (hagrees _ rfl)).1

/-! ## Walks are steady -/

namespace Check

open CheckState (Steady)

/-- A part of the walk that keeps what every part keeps, wherever it starts. -/
def Steadily (m : CheckM Unit) : Prop :=
  ∀ s s', m s = .ok () s' → s.table.Coherent → Steady s s'

theorem keeps_of_steadily {m : CheckM Unit} (h : Steadily m) :
    Keeps (fun s s' => s.table.Coherent → Steady s s') (fun _ _ _ => True) m :=
  keeps_of_ok fun s s' hm => h s s' hm

theorem steadily_of_keeps {m : CheckM Unit}
    (h : Keeps (fun s s' => s.table.Coherent → Steady s s') (fun _ _ _ => True) m) : Steadily m :=
  fun _ _ hm => h.of_ok hm

/-- Statements without statements inside. -/
theorem steadily_simple (stmt : Stmt) (h : stmt.isSimple = true) : Steadily stmt.check := by
  intro s s' hm hs
  cases stmt with
  | needs module span =>
    rw [Stmt.check, emit_ok] at hm
    subst hm
    exact .events hs _
  | declare name ty span =>
    rw [Stmt.check, declaration_ok] at hm
    obtain ⟨-, symbol, -, table, hdefine, rfl⟩ := hm
    exact .define hs hdefine _
  | define name ty value span =>
    have hbind : ∃ ty, bindValue name ty value span s = .ok () s' := by
      cases ty with
      | some ty =>
        rw [Stmt.check, typedDefinition_ok] at hm
        exact ⟨ty, hm.2.2⟩
      | none =>
        rw [Stmt.check, inferredDefinition_ok] at hm
        obtain ⟨-, ty, -, -, hbind⟩ := hm
        exact ⟨ty, hbind⟩
    obtain ⟨ty, hbind⟩ := hbind
    obtain ⟨folded, -, table, hdefine, rfl⟩ := bindValue_ok.1 hbind
    exact .define hs hdefine _
  | assign name value span =>
    rw [Stmt.check, assignment_ok] at hm
    obtain ⟨v, -, -, rfl⟩ := hm
    exact .refl hs
  | ret value span =>
    rw [Stmt.check, ret_ok] at hm
    obtain ⟨c, hc, -, rfl⟩ := hm
    exact .inspect hs hc value span
  | breakLoop span =>
    rw [Stmt.check, breakLoop_ok] at hm
    obtain ⟨loop, outer, hloops, rfl⟩ := hm
    refine { coherent := hs, outer := rfl, loops := ?_, declared := rfl, agreed := id }
    simp [hloops]
  | continueLoop span =>
    rw [Stmt.check, continueLoop_ok] at hm
    rw [hm.2]
    exact .refl hs
  | expression value span =>
    rw [Stmt.check, expressionStatement_ok] at hm
    rw [hm.2]
    exact .refl hs
  | error text reason span =>
    rw [Stmt.check] at hm
    exact absurd hm refuse_ok
  | function | ifChain | whileLoop | block => cases h

theorem enterBlock_env {start : Location} {s s' : CheckState} (hs : s.table.Coherent)
    (h : enterBlock start s = .ok () s') :
    s'.table.Coherent ∧ s'.env = s.env.enter ∧ s'.loops = s.loops ∧ s'.function = s.function := by
  obtain rfl := enterBlock_ok.1 h
  exact ⟨hs.enter _, hs.env_enter _, rfl, rfl⟩

/-- A block leaves the environment as it was. -/
theorem insideBlock_env {start : Location} {m : CheckM Unit} {s s' : CheckState} (hm : Steadily m)
    (hs : s.table.Coherent) (h : insideBlock start m s = .ok () s') :
    Steady s s' ∧ s'.env = s.env := by
  simp only [insideBlock, bind_ok, enterBlock_ok, exitBlock_ok] at h
  obtain ⟨_, s₁, rfl, _, s₂, h₂, outer, hexit, rfl⟩ := h
  have hsteady := hm _ s₂ h₂ (hs.enter _)
  have henv : outer.env = s.env := by
    rw [hsteady.coherent.env_exit hexit]
    exact hsteady.outer.trans (by rw [CheckState.env, hs.env_enter]; rfl)
  refine ⟨?_, henv⟩
  exact { coherent := hsteady.coherent.exit hexit, outer := congrArg List.tail henv
          loops := hsteady.loops, declared := hsteady.declared, agreed := hsteady.agreed }

theorem steadily_loopBody {span : Span} {m : CheckM Unit} (hm : Steadily m) :
    Steadily (loopBody span m) := by
  intro s s' h hs
  simp only [loopBody, bind_ok, insideLoop_ok] at h
  obtain ⟨loop, s₂, ⟨s₁, h₁, -, rfl⟩, hreport⟩ := h
  obtain ⟨events, rfl⟩ := reportLoop_ok hreport
  have hsteady := hm _ s₁ h₁ hs
  exact { coherent := hsteady.coherent, outer := hsteady.outer
          loops := by simp [hsteady.loops], declared := hsteady.declared
          agreed := hsteady.agreed }

end Check

end Slate
