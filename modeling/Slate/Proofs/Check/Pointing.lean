-- SUMMARY: The error of a walk is never a defect and always points at a span of the program.
import Slate.Proofs.Check.Growth

/-!
# Where errors of the checker point

Every error of the checker points at a span of the program, so the errors that are
defects never come up: what was entered can be left, and the account of a function is
there when its body is done. An error may be raised long after its place was passed,
for a return that disagrees is only told at the end of its function. The account has to
point into the program as well for that.
-/

namespace Slate

/-- The return that the function around the place reached will be refused for, if there
is one, lies in `P`. -/
def CheckState.PointsAt (P : Span → Prop) (s : CheckState) : Prop :=
  ∀ context, s.function = some context →
    ∀ mismatch, context.returns.mismatch = some mismatch → P mismatch.span

theorem Returns.inspect_pointsAt {P : Span → Prop} {r : Returns} {t : Table}
    {value : Option Expr} {span : Span} (hspan : P span)
    (h : ∀ mismatch, r.mismatch = some mismatch → P mismatch.span) :
    ∀ mismatch, (r.inspect t value span).mismatch = some mismatch → P mismatch.span := by
  intro mismatch hm
  unfold Returns.inspect at hm
  cases hfirst : r.mismatch with
  | some first =>
    simp only [hfirst, Option.some.injEq] at hm
    exact hm ▸ h first hfirst
  | none =>
    simp only [hfirst] at hm
    split at hm
    · cases hm
    · cases hm
      exact hspan

namespace Check

open CheckState (PointsAt)

variable {α β : Type} {P : Span → Prop}

/-- What a part of the walk hands on: the function around it is still there, and its
account points into `P`. -/
def Kept (P : Span → Prop) (s s' : CheckState) : Prop :=
  s.PointsAt P → s'.PointsAt P ∧ s'.function.isSome = s.function.isSome

/-- A part of the walk whose error points into `P`. -/
def Pointing (P : Span → Prop) (m : CheckM α) : Prop :=
  ∀ s, wp m (fun _ s' => Kept P s s') (fun d _ => s.PointsAt P → d.PointsAt P) s

variable {m : CheckM α} {f : α → CheckM β} {s s' s'' : CheckState}

theorem Kept.trans (h : Kept P s s') (h' : Kept P s' s'') : Kept P s s'' := by
  intro hs
  obtain ⟨hs', hsome⟩ := h hs
  obtain ⟨hs'', hsome'⟩ := h' hs'
  exact ⟨hs'', hsome'.trans hsome⟩

theorem kept_of_eq (h : s'.function = s.function) : Kept P s s' := by
  intro hs
  refine ⟨?_, by rw [h]⟩
  intro context hcontext
  exact hs context (h ▸ hcontext)

theorem Pointing.bind (hm : Pointing P m) (hf : ∀ a, Pointing P (f a)) :
    Pointing P (m >>= f) := by
  intro s
  rw [wp_bind]
  apply wp_mono (hm s)
  · intro a s₁ h₁
    apply wp_mono (hf a s₁)
    · intro _ s₂ h₂
      exact h₁.trans h₂
    · intro d s₂ h₂ hs
      exact h₂ (h₁ hs).1
  · intro d s₁ h₁
    exact h₁

theorem pointing_pure (a : α) : Pointing P (pure a) := fun _ => kept_of_eq rfl

theorem Looks.pointing {Q : Table → α → Prop} (hm : Looks P Q m) : Pointing P m := by
  intro s
  apply wp_mono (hm s)
  · rintro a s' ⟨⟨events, rfl⟩, -⟩
    exact kept_of_eq rfl
  · rintro d s' ⟨-, hd⟩ _
    exact hd

theorem MakesMove.pointing {m : CheckM Unit} (hm : MakesMove P m) : Pointing P m := by
  intro s
  apply wp_mono (hm s)
  · intro _ s' hmoves
    cases hmoves with
    | look | mark => exact kept_of_eq rfl
    | inspect inside value pointed =>
      intro hs
      refine ⟨?_, by rw [inside]; rfl⟩
      intro context hcontext
      cases hcontext
      exact Returns.inspect_pointsAt pointed (hs _ inside)
  · rintro d s' ⟨-, hd⟩ _
    exact hd

theorem pointing_define {symbol : Symbol} (h : P symbol.span) : Pointing P (define symbol) := by
  intro s
  rw [wp_define]
  exact ⟨fun _ _ => kept_of_eq rfl, fun d hd _ => Table.define_pointsAt h hd⟩

theorem pointing_simple {stmt : Stmt} (h : stmt.isSimple = true)
    (hP : ∀ span ∈ stmt.spans, P span) : Pointing P stmt.check := by
  cases hintroduction : stmt.introduction? with
  | some m =>
    rw [Stmt.check_introduction hintroduction]
    intro s
    rw [wp_bind]
    apply wp_mono (looks_introduction hintroduction hP s)
    · rintro symbol s₁ ⟨⟨events, rfl⟩, hfresh⟩
      exact pointing_define hfresh.2 _
    · rintro d s₁ ⟨-, hd⟩ _
      exact hd
  | none => exact (Stmt.makesMove h hintroduction hP).pointing

theorem pointing_defineAll : ∀ {symbols : List Symbol},
    (∀ span ∈ symbols.map Symbol.span, P span) → Pointing P (defineAll symbols)
  | [], _ => pointing_pure _
  | symbol :: symbols, h => by
    rw [List.map_cons, List.forall_mem_cons] at h
    exact (pointing_define h.1).bind fun _ => pointing_defineAll h.2

/-! ## Constructions -/

theorem pointing_insideBlock {start : Location} {m : CheckM Unit} (hgrowing : Growing m)
    (hm : Pointing P m) : Pointing P (insideBlock start m) := by
  intro s
  have hscope : wp (do enterBlock start; m; exitBlock; pure ()) (fun _ s' => Kept P s s')
      (fun d _ => s.PointsAt P → d.PointsAt P) s := by
    apply wp_inScope hgrowing
    apply wp_mono (hm _)
    · intro _ s₁ h₁ _
      exact h₁
    · intro d s₁ h₁ _
      exact h₁
  simpa only [insideBlock, bind_pure_unit] using hscope

theorem pointing_loopBody {span : Span} {m : CheckM Unit} (hm : Pointing P m) :
    Pointing P (loopBody span m) := by
  intro s
  rw [loopBody, wp_bind, wp_insideLoop]
  apply wp_mono (hm _)
  · intro _ s' h
    cases s'.loops.head? <;> exact h
  · intro d s' h
    exact h

/-- Behind its body a function has an account, and the account points into `P`. -/
theorem wp_insideFunction_pointing {name : String} {returns : Option Ty} {m : CheckM Unit}
    (hm : Pointing P m) (s : CheckState) :
    wp (insideFunction (functionStart name returns) m)
      (fun context s' => s'.function = s.function ∧ ∃ c, context = some c ∧
        ∀ mismatch, c.returns.mismatch = some mismatch → P mismatch.span)
      (fun d _ => d.PointsAt P) s := by
  have hstart : PointsAt P { s with function := some (functionStart name returns) } := by
    rintro _ ⟨⟩ mismatch hmismatch
    cases hmismatch
  rw [wp_insideFunction]
  apply wp_mono (hm _)
  · intro _ s' h
    obtain ⟨hs', hsome⟩ := h hstart
    obtain ⟨c, hc⟩ := Option.isSome_iff_exists.1 hsome
    exact ⟨rfl, c, hc, hs' c hc⟩
  · intro d s' hd
    exact hd hstart

theorem pointing_functionTail {name : String} {returns : Option Ty} {body : Block} {span : Span}
    {symbol : Symbol} {context : FunctionContext} (hspan : P span) (hsymbol : P symbol.span)
    (hcontext : ∀ mismatch, context.returns.mismatch = some mismatch → P mismatch.span) :
    Pointing P (functionTail name returns body span symbol (some context)) := by
  rw [functionTail_eq]
  refine (looks_functionVerdict hspan hcontext).pointing.bind fun _ => ?_
  split
  · exact pointing_define hsymbol
  · exact pointing_pure _

/-- What the head of a function yields points into `P`. -/
theorem wp_functionHead_pointing {name : String} {params : List Param} {returns : Option Ty}
    {span : Span} (hspan : P span) (hparams : ∀ span ∈ params.map Param.span, P span)
    (s : CheckState) :
    wp (functionHead name params returns span)
      (fun head s' => s'.function = s.function ∧
        (∀ span ∈ head.1.map Symbol.span, P span) ∧ P head.2.span)
      (fun d _ => d.PointsAt P) s := by
  rw [functionHead_eq, wp_bind]
  apply wp_mono (looks_functionSymbols hspan hparams s)
  · rintro head s₁ ⟨⟨events, rfl⟩, hfound⟩
    have hhead : (∀ span ∈ head.1.map Symbol.span, P span) ∧ P head.2.span :=
      ⟨paramSymbols_spans hfound.params ▸ hparams, hfound.fresh.2⟩
    dsimp only
    split
    · rw [wp_bind, wp_define]
      exact ⟨fun _ _ => ⟨rfl, hhead⟩, fun d hd => Table.define_pointsAt hhead.2 hd⟩
    · exact ⟨rfl, hhead⟩
  · rintro d s₁ ⟨-, hd⟩
    exact hd

theorem pointing_functionBody {name : String} {params : List Param} {returns : Option Ty}
    {body : Block} {span : Span} {m : CheckM Unit} (hspan : P span)
    (hparams : ∀ span ∈ params.map Param.span, P span) (hgrowing : Growing m)
    (hm : Pointing P m) : Pointing P (functionBody name params returns body span m) := by
  intro s
  rw [functionBody, wp_bind]
  apply wp_mono (wp_functionHead_pointing hspan hparams s)
  · rintro ⟨symbols, symbol⟩ s₁ ⟨hfunction₁, hsymbols, hsymbol⟩
    have hinner : Growing (do
        defineAll symbols
        insideFunction (functionStart name returns) m) :=
      (growing_defineAll symbols).bind fun _ => growing_insideFunction hgrowing
    have hscope : wp (do
        enterBlock body.span.start
        let context ← (do
          defineAll symbols
          insideFunction (functionStart name returns) m)
        exitBlock
        functionTail name returns body span symbol context)
        (fun _ s' => Kept P s₁ s') (fun d _ => s₁.PointsAt P → d.PointsAt P) s₁ := by
      apply wp_inScope hinner
      rw [wp_bind]
      apply wp_mono (pointing_defineAll hsymbols _)
      · intro _ s₂ h₂
        apply wp_mono (wp_insideFunction_pointing hm s₂)
        · rintro _ s₃ ⟨hfunction₃, context, rfl, hcontext⟩ _
          apply wp_mono (pointing_functionTail hspan hsymbol hcontext _)
          · intro _ s₄ h₄
            exact Kept.trans (Kept.trans h₂ (kept_of_eq hfunction₃)) h₄
          · intro d s₄ h₄ hs
            exact h₄ (Kept.trans h₂ (kept_of_eq hfunction₃) hs).1
        · intro d s₃ hd _ _
          exact hd
      · intro d s₂ hd _ hs
        exact hd hs
    simp only [bind_assoc] at hscope
    apply wp_mono hscope
    · intro _ s' h
      exact (kept_of_eq hfunction₁).trans h
    · intro d s' h hs
      exact h (kept_of_eq hfunction₁ hs).1
  · intro d s₁ hd _
    exact hd

end Check

/-! ## All walks -/

open Check in
mutual

/-- The error of a statement points into whatever its spans are in. -/
theorem Stmt.check_pointing {P : Span → Prop} :
    (stmt : Stmt) → (∀ span ∈ stmt.spans, P span) → Pointing P stmt.check
  | .function name params returns body@(.mk statements bodySpan) span, h => by
    simp only [Stmt.spans, Block.spans, List.forall_mem_cons, List.forall_mem_append] at h
    obtain ⟨hspan, hparams, -, hbody⟩ := h
    rw [Stmt.check_function]
    exact pointing_functionBody hspan hparams (checkAll_growing statements)
      (checkAll_pointing statements hbody)
  | .ifChain branches none _, h => by
    simp only [Stmt.spans, List.forall_mem_cons] at h
    rw [Stmt.check]
    exact (looks_conditions h.2).pointing.bind fun _ =>
      (checkBranches_pointing branches h.2).bind fun _ => pointing_pure _
  | .ifChain branches (some body) _, h => by
    simp only [Stmt.spans, List.forall_mem_cons, List.forall_mem_append] at h
    rw [Stmt.check]
    exact (looks_conditions h.2.1).pointing.bind fun _ =>
      (checkBranches_pointing branches h.2.1).bind fun _ => body.check_pointing h.2.2
  | .whileLoop test body span, h => by
    simp only [Stmt.spans, List.forall_mem_cons, List.forall_mem_append] at h
    rw [Stmt.check_whileLoop]
    exact (looks_condition h.2.1 h.1).pointing.bind fun _ =>
      pointing_loopBody (body.check_pointing h.2.2)
  | .block body, h => by
    rw [Stmt.spans] at h
    rw [Stmt.check]
    exact body.check_pointing h
  | .needs .., h | .declare .., h | .define .., h | .assign .., h | .ret .., h | .breakLoop _, h
  | .continueLoop _, h | .expression .., h | .error .., h => pointing_simple rfl h

theorem Block.check_pointing {P : Span → Prop} :
    (body : Block) → (∀ span ∈ body.spans, P span) → Pointing P body.check
  | .mk statements span, h => by
    rw [Block.spans, List.forall_mem_cons] at h
    rw [Block.check_eq]
    exact pointing_insideBlock (checkAll_growing statements) (checkAll_pointing statements h.2)

theorem checkAll_pointing {P : Span → Prop} :
    (statements : List Stmt) → (∀ span ∈ statementSpans statements, P span) →
      Pointing P (checkAll statements)
  | [], _ => pointing_pure _
  | stmt :: statements, h => by
    rw [statementSpans, List.forall_mem_append] at h
    rw [checkAll]
    exact (stmt.check_pointing h.1).bind fun _ => checkAll_pointing statements h.2

theorem checkBranches_pointing {P : Span → Prop} :
    (branches : List Branch) → (∀ span ∈ branchSpans branches, P span) →
      Pointing P (checkBranches branches)
  | [], _ => pointing_pure _
  | .mk _ body _ :: branches, h => by
    simp only [branchSpans, List.forall_mem_cons, List.forall_mem_append] at h
    rw [checkBranches]
    exact (body.check_pointing h.2.2.1).bind fun _ => checkBranches_pointing branches h.2.2.2

end

/-! ## Programs -/

/-- The error of a program, checked on top of any table, is no defect and points at one
of its spans. -/
theorem Program.checkFrom_pointsAt {p : Program} {t : Table} {d : Diagnostic}
    (h : (p.checkFrom t).error = some d) : d.PointsAt (· ∈ p.spans) := by
  have hpointing : Check.Pointing (· ∈ p.spans) p.check :=
    (checkAll_pointing p.statements fun _ hspan => hspan).bind fun _ =>
      Check.Pointing.bind (fun _ => Check.kept_of_eq rfl) fun _ => (Check.looks_emit _).pointing
  have hstart : (CheckState.start t).PointsAt (· ∈ p.spans) := nofun
  unfold Program.checkFrom at h
  split at h
  · cases h
  · next d' s' hcheck =>
    cases h
    exact wp_of_error (hpointing _) hcheck hstart

end Slate
