-- SUMMARY: Whatever becomes of a walk, it ends inside the same loops and the same function as it began.
import Slate.Proofs.Check.Moves

/-!
# The context of a walk

The loops and the function around the place that the walk has reached are changed by hand
where a body begins, and put back where it ends. They are put back on every way out of the
body, the one by an error too. So behind any part of a walk the same loops are around as
before it, and the same function, whose account of returns has at most been added to.
-/

namespace Slate

/-! ## The same context -/

/-- The same function, of whose returns none that was met has been forgotten. -/
structure FunctionContext.Continues (c c' : FunctionContext) : Prop where
  name : c'.name = c.name
  declared : c'.returns.declared = c.returns.declared
  inspected : c.returns.inspected ≤ c'.returns.inspected
  mismatch : ∀ m, c.returns.mismatch = some m → c'.returns.mismatch = some m

namespace FunctionContext.Continues

variable {c c' c'' : FunctionContext}

theorem refl (c : FunctionContext) : c.Continues c :=
  { name := rfl, declared := rfl, inspected := Nat.le_refl _, mismatch := fun _ => id }

theorem trans (h : c.Continues c') (h' : c'.Continues c'') : c.Continues c'' where
  name := h'.name.trans h.name
  declared := h'.declared.trans h.declared
  inspected := Nat.le_trans h.inspected h'.inspected
  mismatch m hm := h'.mismatch m (h.mismatch m hm)

theorem inspect (c : FunctionContext) (t : Table) (value : Option Expr) (span : Span) :
    c.Continues { c with returns := c.returns.inspect t value span } where
  name := rfl
  declared := rfl
  inspected := Nat.le_succ _
  mismatch m hm := by
    simp only [Returns.inspect, hm]

end FunctionContext.Continues

/-- The same loops are around, and the same function or none. -/
structure CheckState.SameContext (s s' : CheckState) : Prop where
  loops : s'.loops.map LoopContext.span = s.loops.map LoopContext.span
  function : Option.Rel FunctionContext.Continues s.function s'.function

namespace CheckState.SameContext

variable {s s' s'' : CheckState}

theorem of_eq (hloops : s'.loops = s.loops) (hfunction : s'.function = s.function) :
    s.SameContext s' where
  loops := by rw [hloops]
  function := by
    rw [hfunction]
    cases s.function with
    | none => exact .none
    | some c => exact .some (.refl c)

theorem refl (s : CheckState) : s.SameContext s := .of_eq rfl rfl

theorem trans (h : s.SameContext s') (h' : s'.SameContext s'') : s.SameContext s'' where
  loops := h'.loops.trans h.loops
  function := by
    have hfunction := h.function
    have hfunction' := h'.function
    generalize s.function = f, s'.function = f', s''.function = f'' at hfunction hfunction'
    cases hfunction with
    | none => exact hfunction'
    | some hc =>
      cases hfunction' with
      | some hc' => exact .some (hc.trans hc')

end CheckState.SameContext

namespace Check

open CheckState (SameContext)

variable {α β : Type}

/-- A part of the walk that ends in the context in which it began, also if it fails. -/
def Restores (m : CheckM α) : Prop :=
  ∀ s, wp m (fun _ s' => s.SameContext s') (fun _ s' => s.SameContext s') s

variable {m : CheckM α} {f : α → CheckM β}

/-! ## Steps -/

theorem Restores.bind (hm : Restores m) (hf : ∀ a, Restores (f a)) : Restores (m >>= f) := by
  intro s
  rw [wp_bind]
  apply wp_mono (hm s)
  · intro a s₁ h₁
    apply wp_mono (hf a s₁)
    · intro _ s₂ h₂
      exact h₁.trans h₂
    · intro d s₂ h₂
      exact h₁.trans h₂
  · intro d s₁ h₁
    exact h₁

theorem restores_pure (a : α) : Restores (pure a) := fun s => .refl s

theorem restores_throw (d : Diagnostic) : Restores (throw d : CheckM α) := fun s => .refl s

theorem restores_require (r : Except Diagnostic α) : Restores (require r) := by
  cases r with
  | ok a => exact restores_pure a
  | error d => exact restores_throw d

theorem restores_emit (event : Event) : Restores (emit event) := fun _ => .of_eq rfl rfl

theorem restores_enterBlock (start : Location) : Restores (enterBlock start) :=
  fun _ => .of_eq rfl rfl

theorem restores_exitBlock : Restores exitBlock := by
  intro s
  rw [wp_exitBlock]
  exact ⟨fun _ _ => .of_eq rfl rfl, fun _ _ => .refl s⟩

theorem restores_define (symbol : Symbol) : Restores (define symbol) := by
  intro s
  rw [wp_define]
  exact ⟨fun _ _ => .of_eq rfl rfl, fun _ _ => .refl s⟩

theorem restores_defineAll : ∀ symbols, Restores (defineAll symbols)
  | [] => restores_pure _
  | symbol :: symbols => (restores_define symbol).bind fun _ => restores_defineAll symbols

/-- A look changes nothing but the reports. -/
theorem Looks.restores {P : Span → Prop} {Q : Table → α → Prop} (hm : Looks P Q m) :
    Restores m := by
  intro s
  apply wp_mono (hm s)
  · rintro a s' ⟨⟨events, rfl⟩, -⟩
    exact .of_eq rfl rfl
  · rintro d s' ⟨⟨events, rfl⟩, -⟩
    exact .of_eq rfl rfl

theorem Moves.sameContext {P : Span → Prop} {s s' : CheckState} (h : Moves P s s') :
    s.SameContext s' := by
  cases h with
  | look events => exact .of_eq rfl rfl
  | inspect inside value _ =>
    refine { loops := rfl, function := ?_ }
    rw [inside]
    exact .some (.inspect _ s.table value _)
  | mark inside =>
    refine { loops := ?_, function := (SameContext.refl s).function }
    rw [inside]
    rfl

theorem MakesMove.restores {P : Span → Prop} {m : CheckM Unit} (hm : MakesMove P m) :
    Restores m := by
  intro s
  apply wp_mono (hm s)
  · intro _ s' hmoves
    exact hmoves.sameContext
  · rintro d s' ⟨⟨events, rfl⟩, -⟩
    exact .of_eq rfl rfl

theorem restores_simple {stmt : Stmt} (h : stmt.isSimple = true) : Restores stmt.check := by
  cases hintroduction : stmt.introduction? with
  | some m =>
    rw [Stmt.check_introduction hintroduction]
    exact (looks_introduction (P := fun _ => True) hintroduction fun _ _ => trivial).restores.bind
      restores_define
  | none =>
    exact (Stmt.makesMove (P := fun _ => True) h hintroduction fun _ _ => trivial).restores

theorem restores_functionHead (name : String) (params : List Param) (returns : Option Ty)
    (span : Span) : Restores (functionHead name params returns span) := by
  rw [functionHead_eq]
  have hlook : Looks (fun _ => True) (HeadFound (fun _ => True) name params span returns)
      (functionSymbols name params returns span) :=
    looks_functionSymbols trivial fun _ _ => trivial
  refine hlook.restores.bind fun head => ?_
  dsimp only
  split
  · exact (restores_define _).bind fun _ => restores_pure _
  · exact restores_pure _

theorem restores_functionTail (name : String) (returns : Option Ty) (body : Block) (span : Span)
    (symbol : Symbol) (context : Option FunctionContext) :
    Restores (functionTail name returns body span symbol context) := by
  have hverdict : Restores (functionVerdict name returns body span context) := by
    unfold functionVerdict
    split
    · exact restores_throw _
    · refine (restores_emit _).bind fun _ => (restores_require _).bind fun _ => ?_
      dsimp only
      split
      · exact restores_throw _
      · exact restores_pure _
  rw [functionTail_eq]
  refine hverdict.bind fun _ => ?_
  split
  · exact restores_define _
  · exact restores_pure _

/-! ## Bodies -/

/-- The loop that was put on top is taken off again. -/
theorem restores_loopBody {span : Span} {m : CheckM Unit} (hm : Restores m) :
    Restores (loopBody span m) := by
  have hinside : Restores (insideLoop span m) := by
    intro s
    rw [wp_insideLoop]
    have hpop : ∀ s' : CheckState,
        SameContext { s with loops := { span, hasBreak := false } :: s.loops } s' →
          s.SameContext { s' with loops := s'.loops.tail } := by
      intro s' h
      refine { loops := ?_, function := h.function }
      rw [List.map_tail, h.loops, List.map_cons, List.tail_cons]
    exact wp_mono (hm _) (fun _ => hpop) fun _ => hpop
  refine hinside.bind fun loop => ?_
  cases loop with
  | none => exact restores_pure ()
  | some loop => exact restores_emit _

/-- The function that was around is put back, with the account that it had. -/
theorem restores_insideFunction {context : FunctionContext} {m : CheckM Unit}
    (hm : Restores m) : Restores (insideFunction context m) := by
  intro s
  rw [wp_insideFunction]
  have hback : ∀ s' : CheckState, SameContext { s with function := some context } s' →
      s.SameContext { s' with function := s.function } :=
    fun s' h => { loops := h.loops, function := (SameContext.refl s).function }
  exact wp_mono (hm _) (fun _ => hback) fun _ => hback

theorem restores_insideBlock {start : Location} {m : CheckM Unit} (hm : Restores m) :
    Restores (insideBlock start m) :=
  (restores_enterBlock start).bind fun _ => hm.bind fun _ => restores_exitBlock

theorem restores_functionBody {name : String} {params : List Param} {returns : Option Ty}
    {body : Block} {span : Span} {m : CheckM Unit} (hm : Restores m) :
    Restores (functionBody name params returns body span m) :=
  (restores_functionHead name params returns span).bind fun _ =>
    (restores_enterBlock _).bind fun _ => (restores_defineAll _).bind fun _ =>
      (restores_insideFunction hm).bind fun _ => restores_exitBlock.bind fun _ =>
        restores_functionTail _ _ _ _ _ _

/-- Walks end in the context in which they began. -/
theorem restores_walk :
    Walk (fun s s' => s.SameContext s') (fun s _ s' => s.SameContext s') where
  refl s := .refl s
  trans h h' := h.trans h'
  fails h h' := h.trans h'
  simple h := restores_simple h
  condition _ _ _ := (looks_condition (P := fun _ => True) (fun _ _ => trivial) trivial).restores
  block hm := restores_insideBlock hm
  loop hm := restores_loopBody hm
  function hm := restores_functionBody hm

end Check

end Slate
