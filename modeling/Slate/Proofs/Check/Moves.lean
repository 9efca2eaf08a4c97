-- SUMMARY: The few ways in which a simple statement that binds nothing changes the state of the checker.
import Slate.Proofs.Check.Looks

/-!
# Moves of simple statements

A simple statement that does not declare anything looks first and then makes at most one
move: it enters a return into the account of its function, or marks its loop. The table
stays as it is. An error leaves nothing behind but reports, and points at a span of the
statement.
-/

namespace Slate

namespace Check

variable {P : Span → Prop}

/-- What a simple statement may do to the state besides reporting and binding. -/
inductive Moves (P : Span → Prop) (s : CheckState) : CheckState → Prop
  | look (events : Array Event) : Moves P s { s with events }
  | inspect {context : FunctionContext} (inside : s.function = some context)
      (value : Option Expr) {span : Span} (pointed : P span) :
      Moves P s { s with function := some { context with
        returns := context.returns.inspect s.table value span } }
  | mark {loop : LoopContext} {outer : List LoopContext} (inside : s.loops = loop :: outer) :
      Moves P s { s with loops := { loop with hasBreak := true } :: outer }

theorem Moves.table_eq {s s' : CheckState} (h : Moves P s s') : s'.table = s.table := by
  cases h <;> rfl

/-- A part of the walk that makes at most one move, or leaves nothing but reports and an
error that points into `P`. -/
def MakesMove (P : Span → Prop) (m : CheckM Unit) : Prop :=
  ∀ s, wp m (fun _ s' => Moves P s s')
    (fun d s' => (∃ events, s' = { s with events }) ∧ d.PointsAt P) s

theorem Looks.makesMove {Q : Table → Unit → Prop} {m : CheckM Unit} (hm : Looks P Q m) :
    MakesMove P m := by
  intro s
  apply wp_mono (hm s)
  · rintro _ s' ⟨⟨events, rfl⟩, -⟩
    exact .look events
  · intro d s' hd
    exact hd

theorem makesMove_ret {value : Option Expr} {span : Span} (hspan : P span)
    (hvalue : ∀ e, value = some e → ∀ span ∈ e.spans, P span) : MakesMove P (ret value span) := by
  intro s
  rw [ret, wp_bind, wp_get]
  split
  · exact ⟨⟨s.events, rfl⟩, pointsAt_spanned rfl hspan⟩
  · next context hcontext =>
    cases value with
    | none => exact .inspect hcontext none hspan
    | some e =>
      rw [wp_bind]
      have hresolve : wp (resolve e) (fun _ s' => s' = s)
          (fun d s' => s' = s ∧ d.PointsAt P) s := by
        rw [resolve, wp_bind, wp_get, wp_require]
        exact ⟨fun _ _ => rfl, fun d hd => ⟨rfl, e.resolve_pointsAt (hvalue e rfl) hd⟩⟩
      apply wp_mono hresolve
      · rintro _ _ rfl
        exact .inspect hcontext (some e) hspan
      · rintro d _ ⟨rfl, hd⟩
        exact ⟨⟨_, rfl⟩, hd⟩

theorem makesMove_breakLoop {span : Span} (hspan : P span) : MakesMove P (breakLoop span) := by
  intro s
  rw [breakLoop, wp_bind, wp_get]
  split
  · exact ⟨⟨s.events, rfl⟩, pointsAt_spanned rfl hspan⟩
  · next hloops => exact .mark hloops

theorem looks_continueLoop {span : Span} (hspan : P span) :
    Looks P (fun _ _ => True) (continueLoop span) := by
  refine looks_get.andThen fun s => ?_
  split
  · exact looks_refuse rfl hspan
  · exact looks_pure fun _ => trivial

theorem looks_assignment {name : String} {e : Expr} {span : Span}
    (he : ∀ span ∈ e.spans, P span) (hspan : P span) :
    Looks P (fun _ _ => True) (assignment name e span) := by
  rw [assignment_eq]
  refine looks_get.andThen fun s => ?_
  split
  · exact looks_refuse rfl hspan
  · exact looks_refuse rfl hspan
  · exact looks_requireValue he hspan

theorem looks_expressionStatement {e : Expr} {span : Span}
    (he : ∀ span ∈ e.spans, P span) (hspan : P span) :
    Looks P (fun _ _ => True) (expressionStatement e span) := by
  refine (looks_resolve he).andThen fun _ => looks_get.andThen fun s => ?_
  split
  · exact looks_refuse rfl hspan
  · exact looks_pure fun _ => trivial

end Check

open Check in
/-- A simple statement that declares nothing makes at most one move, and its error points
at one of its spans. -/
theorem Stmt.makesMove {P : Span → Prop} {stmt : Stmt} (h : stmt.isSimple = true)
    (hintroduction : stmt.introduction? = none) (hP : ∀ span ∈ stmt.spans, P span) :
    MakesMove P stmt.check := by
  cases stmt with
  | needs module span =>
    rw [Stmt.check]
    exact (looks_emit _).makesMove
  | declare name ty span => cases hintroduction
  | define name ty value span => cases ty <;> cases hintroduction
  | assign name value span =>
    rw [Stmt.spans, List.forall_mem_cons] at hP
    rw [Stmt.check]
    exact (looks_assignment hP.2 hP.1).makesMove
  | ret value span =>
    rw [Stmt.check]
    cases value with
    | none => exact makesMove_ret (hP span List.mem_cons_self) (by simp)
    | some e =>
      rw [Stmt.spans, List.forall_mem_cons] at hP
      refine makesMove_ret hP.1 fun _ he => ?_
      cases he
      exact hP.2
  | breakLoop span =>
    rw [Stmt.check]
    exact makesMove_breakLoop (hP span List.mem_cons_self)
  | continueLoop span =>
    rw [Stmt.check]
    exact (looks_continueLoop (hP span List.mem_cons_self)).makesMove
  | expression value span =>
    rw [Stmt.spans, List.forall_mem_cons] at hP
    rw [Stmt.check]
    exact (looks_expressionStatement hP.2 hP.1).makesMove
  | error text reason span =>
    rw [Stmt.check]
    exact Looks.makesMove (Q := fun _ _ => True)
      (looks_refuse rfl (hP span List.mem_cons_self))
  | function | ifChain | whileLoop | block => cases h

end Slate
