-- SUMMARY: Diagnostics that set a found type against an expected one always name two different types.
import Slate.Proofs.Check.Walk
import Slate.Proofs.Typing.Resolution

/-!
# Mismatches

Three causes tell what type was expected and what was found instead: an argument,
the right-hand side of a declaration or assignment, and the value of a return.
Each is raised only after `Expr.fits` has said no, and the type found is then
asked of `Expr.type?`. As the two agree, no walk over a program ever ends in a
diagnostic that says it expected what it found.
-/

namespace Slate

/-! ## Honest causes -/

/-- The type that the wording of a cause asks for and the one that it reports in
its place, where it speaks of both. A `void` function that returns a value is
told so without naming a type. -/
def Cause.contrast? : Cause → Option (Ty × Option Ty)
  | .wrongArgument _ _ expected found => some (expected, found)
  | .wrongValue expected found => some (expected, found)
  | .wrongReturn .void _ => none
  | .wrongReturn expected found => some (expected, found)
  | _ => none

/-- A cause never reports the type it asks for. -/
def Cause.Honest (c : Cause) : Prop :=
  ∀ expected found, c.contrast? = some (expected, found) → found ≠ some expected

theorem Cause.honest_of_silent {c : Cause} (h : c.contrast? = none) : c.Honest := by
  intro expected found hc
  rw [h] at hc
  cases hc

theorem Cause.honest_wrongValue {t : Table} {e : Expr} {ty : Ty} (hty : ty ≠ .void)
    (h : e.fits t ty = false) : (Cause.wrongValue ty (e.type? t)).Honest := by
  intro expected found hc
  simp only [Cause.contrast?, Option.some.injEq, Prod.mk.injEq] at hc
  obtain ⟨rfl, rfl⟩ := hc
  exact Expr.type?_ne_of_not_fits hty h

theorem Cause.honest_wrongArgument {t : Table} {e : Expr} {ty : Ty} {position : Nat}
    {callee : String} (hty : ty ≠ .void) (h : e.fits t ty = false) :
    (Cause.wrongArgument position callee ty (e.type? t)).Honest := by
  intro expected found hc
  simp only [Cause.contrast?, Option.some.injEq, Prod.mk.injEq] at hc
  obtain ⟨rfl, rfl⟩ := hc
  exact Expr.type?_ne_of_not_fits hty h

theorem Cause.honest_wrongReturn {t : Table} {declared : Ty} {value : Option Expr}
    (h : Returns.agrees t declared value = false) :
    (Cause.wrongReturn declared (Returns.carried t value)).Honest := by
  by_cases hvoid : declared = .void
  · subst hvoid
    exact honest_of_silent rfl
  · intro expected found hc
    have hc : some (declared, Returns.carried t value) = some (expected, found) := by
      cases declared
      case void => exact absurd rfl hvoid
      all_goals exact hc
    simp only [Option.some.injEq, Prod.mk.injEq] at hc
    obtain ⟨rfl, rfl⟩ := hc
    cases value with
    | none =>
      intro hfound
      exact hvoid (Option.some.inj hfound).symm
    | some e =>
      refine Expr.type?_ne_of_not_fits hvoid ?_
      simpa [Returns.agrees, hvoid] using h

/-! ## Resolution -/

/-- Of what resolution reports, only a wrong argument sets one type against another. -/
theorem Expr.resolve_honest {t : Table} {d : Diagnostic} {e : Expr}
    (h : e.resolve t = .error d) : d.cause.Honest := by
  obtain ⟨before, part, after, -, -, hoffends⟩ := Expr.resolve_eq_error.1 h
  cases hoffends with
  | wrongArgument hsignature _ hparams _ _ hfit =>
    exact Cause.honest_wrongArgument (Table.params_ne_void hsignature _ (by simp [hparams])) hfit
  | _ => exact Cause.honest_of_silent rfl

theorem Table.define_honest {t : Table} {symbol : Symbol} {d : Diagnostic}
    (h : t.define symbol = .error d) : d.cause.Honest := by
  unfold Table.define at h
  split at h <;> cases h
  exact Cause.honest_of_silent rfl

theorem Table.exit_honest {t : Table} {d : Diagnostic} (h : t.exit = .error d) :
    d.cause.Honest := by
  unfold Table.exit at h
  split at h <;> cases h
  exact Cause.honest_of_silent rfl

/-! ## Returns -/

/-- The mismatch that an account of returns keeps is an honest one. -/
def Returns.Honest (r : Returns) : Prop := ∀ m, r.mismatch = some m → m.cause.Honest

theorem Returns.honest_start (ty : Ty) : (Returns.start ty).Honest := by
  intro m hm
  simp [Returns.start] at hm

theorem Returns.honest_inspect {r : Returns} {t : Table} {value : Option Expr} {span : Span}
    (h : r.Honest) : (r.inspect t value span).Honest := by
  intro m hm
  unfold Returns.inspect at hm
  cases hfirst : r.mismatch with
  | some first =>
    simp only [hfirst, Option.some.injEq] at hm
    exact hm ▸ h first hfirst
  | none =>
    simp only [hfirst] at hm
    split at hm
    · cases hm
    · next hagrees =>
      simp only [Option.some.injEq] at hm
      subst hm
      exact Cause.honest_wrongReturn (by simpa using hagrees)

theorem Returns.finish_honest {r : Returns} {d : Diagnostic} (h : r.Honest)
    (hd : r.finish = .error d) : d.cause.Honest := by
  unfold Returns.finish at hd
  split at hd
  · next m hm => cases hd; exact h m hm
  · cases hd

/-! ## Steps that leave the function alone -/

namespace Check

variable {α β : Type}

/-- A part of the walk that fails only with honest causes and does not touch the
account of returns. -/
def Fair (m : CheckM α) : Prop :=
  ∀ s, wp m (fun _ s' => s'.function = s.function) (fun d _ => d.cause.Honest) s

theorem fair_bind {m : CheckM α} {f : α → CheckM β} (hm : Fair m) (hf : ∀ a, Fair (f a)) :
    Fair (m >>= f) := by
  intro s
  rw [wp_bind]
  apply wp_mono (hm s)
  · intro a s₁ h₁
    apply wp_mono (hf a s₁)
    · intro _ s₂ h₂
      exact h₂.trans h₁
    · intro d s₂ h₂
      exact h₂
  · intro d s₁ h₁
    exact h₁

theorem fair_pure (a : α) : Fair (pure a) := fun _ => rfl

theorem fair_get : Fair get := fun _ => rfl

theorem fair_emit (event : Event) : Fair (emit event) := fun _ => rfl

theorem fair_refuse {cause : Cause} {span : Span} (h : cause.contrast? = none) :
    Fair (refuse cause span : CheckM α) := fun _ => Cause.honest_of_silent h

/-- Nothing behind a refusal is reached. -/
theorem fair_refuse_bind {cause : Cause} {span : Span} {f : α → CheckM β}
    (h : cause.contrast? = none) : Fair (refuse cause span >>= f) := by
  intro s
  rw [wp_bind, wp_refuse]
  exact Cause.honest_of_silent h

theorem fair_require {r : Except Diagnostic α} (h : ∀ d, r = .error d → d.cause.Honest) :
    Fair (require r) := by
  intro s
  rw [wp_require]
  exact ⟨fun _ _ => rfl, h⟩

theorem fair_resolve (e : Expr) : Fair (resolve e) :=
  fair_bind fair_get fun _ => fair_require fun _ h => Expr.resolve_honest h

theorem fair_define (symbol : Symbol) : Fair (define symbol) := by
  intro s
  rw [wp_define]
  exact ⟨fun _ _ => rfl, fun _ h => Table.define_honest h⟩

theorem fair_defineAll : ∀ symbols, Fair (defineAll symbols)
  | [] => fair_pure _
  | symbol :: symbols => fair_bind (fair_define symbol) fun _ => fair_defineAll symbols

theorem fair_enterBlock (start : Location) : Fair (enterBlock start) := fun _ => rfl

theorem fair_exitBlock : Fair exitBlock := by
  intro s
  rw [wp_exitBlock]
  exact ⟨fun _ _ => rfl, fun _ h => Table.exit_honest h⟩

theorem fair_requireFresh (name : String) (span : Span) : Fair (requireFresh name span) := by
  intro s
  rw [wp_requireFresh]
  exact ⟨fun _ => rfl, fun _ _ => Cause.honest_of_silent rfl⟩

theorem fair_requireValue {ty : Ty} (e : Expr) (span : Span) (hty : ty ≠ .void) :
    Fair (requireValue ty e span) := by
  refine fair_bind (fair_resolve e) fun _ s => ?_
  rw [wp_bind, wp_get]
  dsimp only
  split
  · exact rfl
  · next hfit => exact Cause.honest_wrongValue hty (by simpa using hfit)

theorem fair_condition (construct : Construct) (e : Expr) (span : Span) :
    Fair (condition construct e span) := by
  refine fair_bind (fair_resolve e) fun _ => fair_bind fair_get fun s => ?_
  split
  · exact fair_pure _
  · exact fair_refuse rfl

/-! ## Declarations and assignments -/

theorem fair_declaration (name : String) (ty : Ty) (span : Span) :
    Fair (declaration name ty span) := by
  refine fair_bind (fair_requireFresh name span) fun _ => ?_
  split
  · exact fair_refuse rfl
  · exact fair_bind (fair_emit _) fun _ => fair_define _

theorem fair_bindValue (name : String) (ty : Ty) (e : Expr) (span : Span) :
    Fair (bindValue name ty e span) := by
  refine fair_bind fair_get fun s => ?_
  split
  · exact fair_refuse rfl
  · exact fair_bind (fair_emit _) fun _ => fair_define _

theorem fair_typedDefinition (name : String) (ty : Ty) (e : Expr) (span : Span) :
    Fair (typedDefinition name ty e span) := by
  refine fair_bind (fair_requireFresh name span) fun _ => ?_
  split
  · exact fair_refuse_bind rfl
  · next hty =>
    exact fair_bind (fair_requireValue e span hty) fun _ => fair_bindValue name ty e span

/-- `let name = e;` checked without asking, once the type is inferred, whether the
initializer fits it. -/
def inferredDefinitionOnce (name : String) (e : Expr) (span : Span) : CheckM Unit := do
  requireFresh name span
  resolve e
  match e.type? (← get).table with
  | none => refuse .untypedInitializer span
  | some ty =>
    if ty = .void then refuse (.voidInitializer name) span
    bindValue name ty e span

/-- The second check of an inferred definition asks what inference has just
answered, and never says no. -/
theorem inferredDefinition_eq_once (name : String) (e : Expr) (span : Span) :
    inferredDefinition name e span = inferredDefinitionOnce name e span := by
  unfold inferredDefinition inferredDefinitionOnce
  congr 1; funext _
  congr 1; funext _
  congr 1; funext s
  cases hty : e.type? s.table with
  | none => simp only [hty]
  | some ty =>
    simp only [hty]
    by_cases hvoid : ty = .void
    · subst hvoid
      rfl
    · have hfit := (Expr.fits_iff_type? s.table e ty).2 ⟨hvoid, hty⟩
      simp only [if_neg hvoid, if_pos hfit]

theorem fair_inferredDefinition (name : String) (e : Expr) (span : Span) :
    Fair (inferredDefinition name e span) := by
  rw [inferredDefinition_eq_once]
  refine fair_bind (fair_requireFresh name span) fun _ => fair_bind (fair_resolve e) fun _ =>
    fair_bind fair_get fun s => ?_
  split
  · exact fair_refuse rfl
  · next ty _ =>
    split
    · exact fair_refuse_bind rfl
    · exact fair_bindValue name ty e span

theorem fair_assignment (name : String) (e : Expr) (span : Span) :
    Fair (assignment name e span) := by
  rw [assignment_eq]
  refine fair_bind fair_get fun s => ?_
  split
  · exact fair_refuse rfl
  · exact fair_refuse rfl
  · next v _ => exact fair_requireValue e span v.value.ty_ne_void

theorem fair_expressionStatement (e : Expr) (span : Span) : Fair (expressionStatement e span) := by
  refine fair_bind (fair_resolve e) fun _ => fair_bind fair_get fun s => ?_
  split
  · exact fair_refuse rfl
  · exact fair_pure _

theorem fair_functionHead (name : String) (params : List Param) (returns : Option Ty)
    (span : Span) : Fair (functionHead name params returns span) := by
  have hparams : ∀ ps d, paramSymbols name ps = .error d → d.cause.Honest := by
    intro ps
    induction ps with
    | nil => intro d hd; cases hd
    | cons p ps ih =>
      intro d hd
      rw [paramSymbols] at hd
      split at hd
      · cases hd; exact Cause.honest_of_silent rfl
      · cases hrest : paramSymbols name ps with
        | ok symbols => rw [hrest] at hd; cases hd
        | error d' => rw [hrest] at hd; cases hd; exact ih d hrest
  unfold functionHead
  dsimp only
  split
  · exact fair_refuse_bind rfl
  · refine fair_bind (fair_requireFresh name span) fun _ =>
      fair_bind (fair_require (hparams params)) fun symbols => fair_bind (fair_emit _) fun _ => ?_
    split
    · exact fair_bind (fair_define _) fun _ => fair_pure _
    · exact fair_pure _

/-! ## Whole walks -/

end Check

/-- The function around the place reached keeps an honest account. -/
def CheckState.Honest (s : CheckState) : Prop :=
  ∀ context, s.function = some context → context.returns.Honest

namespace Check

/-- A part of the walk that keeps accounts honest and fails only with honest causes. -/
abbrev KeepsHonest (m : CheckM Unit) : Prop :=
  Keeps (fun s s' => s.Honest → s'.Honest) (fun s d _ => s.Honest → d.cause.Honest) m

theorem keepsHonest_of_fair {m : CheckM Unit} (hm : Fair m) : KeepsHonest m := by
  intro s
  apply wp_mono (hm s)
  · intro _ s' hfun hs context hc
    exact hs context (hfun ▸ hc)
  · intro d s' hd _
    exact hd

theorem honest_thread : Thread (fun s s' => s.Honest → s'.Honest)
    (fun s d _ => s.Honest → d.cause.Honest) where
  refl _ h := h
  trans h₁ h₂ h := h₂ (h₁ h)
  fails h₁ h₂ h := h₂ (h₁ h)

theorem ret_keepsHonest (value : Option Expr) (span : Span) : KeepsHonest (ret value span) := by
  intro s
  rw [ret, wp_bind, wp_get]
  split
  · intro _
    exact Cause.honest_of_silent rfl
  · next context hc =>
    have hnote : ∀ s' : CheckState, s'.function = s.function → s.Honest →
        CheckState.Honest { s' with function := some { context with
          returns := context.returns.inspect s'.table value span } } := by
      intro s' _ hs context' hc'
      cases hc'
      exact Returns.honest_inspect (hs context hc)
    cases value with
    | none => exact hnote s rfl
    | some e =>
      rw [wp_bind]
      apply wp_mono (fair_resolve e s)
      · intro _ s' hfun
        exact hnote s' hfun
      · intro d s' hd _
        exact hd

theorem functionTail_honest (name : String) (returns : Option Ty) (body : Block) (span : Span)
    (symbol : Symbol) {context : Option FunctionContext}
    (hc : ∀ c, context = some c → c.returns.Honest) :
    Fair (functionTail name returns body span symbol context) := by
  unfold functionTail
  split
  · exact fun s => Cause.honest_of_silent rfl
  · next context =>
    refine fair_bind (fair_emit _) fun _ =>
      fair_bind (fair_require fun d hd => Returns.finish_honest (hc context rfl) hd) fun _ => ?_
    dsimp only
    split
    · exact fair_refuse_bind rfl
    · split
      · exact fair_define _
      · exact fair_pure _

theorem honest_walk : Walk (fun s s' => s.Honest → s'.Honest)
    (fun s d _ => s.Honest → d.cause.Honest) where
  toThread := honest_thread
  simple {stmt} h := by
    cases stmt with
    | needs module span => exact keepsHonest_of_fair (fair_emit _)
    | declare name ty span => exact keepsHonest_of_fair (fair_declaration name ty span)
    | define name ty value span =>
      cases ty with
      | none => exact keepsHonest_of_fair (fair_inferredDefinition name value span)
      | some ty => exact keepsHonest_of_fair (fair_typedDefinition name ty value span)
    | assign name value span => exact keepsHonest_of_fair (fair_assignment name value span)
    | ret value span => exact ret_keepsHonest value span
    | breakLoop span =>
      intro s
      rw [Stmt.check, breakLoop, wp_bind, wp_get]
      split
      · exact fun _ => Cause.honest_of_silent rfl
      · exact fun hs => hs
    | continueLoop span =>
      intro s
      rw [Stmt.check, continueLoop, wp_bind, wp_get]
      split
      · exact fun _ => Cause.honest_of_silent rfl
      · exact fun hs => hs
    | expression value span => exact keepsHonest_of_fair (fair_expressionStatement value span)
    | error text reason span => exact keepsHonest_of_fair (fair_refuse rfl)
    | function | ifChain | whileLoop | block => cases h
  condition construct e span := keepsHonest_of_fair (fair_condition construct e span)
  block {start m} hm :=
    honest_thread.seq (keepsHonest_of_fair (fair_enterBlock start))
      (honest_thread.seq hm (keepsHonest_of_fair fair_exitBlock))
  loop {span m} hm := by
    intro s
    rw [loopBody, wp_bind, wp_insideLoop]
    apply wp_mono (hm _)
    · intro _ s' h
      cases s'.loops.head? <;> exact h
    · intro d s' h
      exact h
  function {name params returns body span m} hm := by
    intro s
    rw [functionBody, wp_bind]
    apply wp_mono (fair_functionHead name params returns span s)
    · rintro ⟨symbols, symbol⟩ s₁ h₁
      rw [wp_bind, wp_enterBlock, wp_bind]
      apply wp_mono (fair_defineAll symbols _)
      · intro _ s₂ h₂
        rw [wp_bind, wp_insideFunction]
        have hstart :
            CheckState.Honest { s₂ with function := some (functionStart name returns) } := by
          intro context hc
          cases hc
          exact Returns.honest_start _
        apply wp_mono (hm _)
        · intro _ s₃ h₃
          have hafter := fair_bind fair_exitBlock fun _ =>
            functionTail_honest name returns body span symbol (h₃ hstart)
          apply wp_mono (hafter _)
          · intro _ s₄ h₄ hs context hc
            exact hs context ((h₄.trans (h₂.trans h₁)) ▸ hc)
          · intro d s₄ hd _
            exact hd
        · intro d s₃ h₃ _
          exact h₃ hstart
      · intro d s₂ hd _
        exact hd
    · intro d s₁ hd _
      exact hd

end Check

/-- No program, checked on top of any table, ends in a diagnostic that reports the
type it asks for. -/
theorem Program.checkFrom_honest {p : Program} {t : Table} {d : Diagnostic}
    (h : (p.checkFrom t).error = some d) : d.cause.Honest := by
  have hstart : (CheckState.start t).Honest := by
    intro context hc
    cases hc
  have hwalk : Check.KeepsHonest p.check :=
    Check.honest_thread.seq (checkAll_walk Check.honest_walk p.statements)
      (Check.keepsHonest_of_fair
        (Check.fair_bind Check.fair_get fun _ => Check.fair_emit _))
  unfold Program.checkFrom at h
  split at h
  · cases h
  · next d' s' herror =>
    cases h
    exact wp_of_error (hwalk _) herror hstart

/-! ## Agreement and what follows from it -/

/-- Checking an expression against a type and inferring its type agree on every
table, expression and type. So an expression fits at most one type, an inferred
definition need not check its initializer again, and no diagnostic reports the
type it asks for. -/
theorem fits_type_agreement :
    (∀ (t : Table) (e : Expr) (ty : Ty),
      e.fits t ty = true ↔ ty ≠ .void ∧ e.type? t = some ty) ∧
    (∀ (t : Table) (e : Expr) (a b : Ty), e.fits t a = true → e.fits t b = true → a = b) ∧
    (∀ (name : String) (e : Expr) (span : Span),
      Check.inferredDefinition name e span = Check.inferredDefinitionOnce name e span) ∧
    (∀ (p : Program) (t : Table) (d : Diagnostic),
      (p.checkFrom t).error = some d → d.cause.Honest) :=
  ⟨Expr.fits_iff_type?, fun _ _ _ _ => Expr.fits_unique, Check.inferredDefinition_eq_once,
    fun _ _ _ => Program.checkFrom_honest⟩

/-- A definition with a value of the wrong type. -/
def mistypedDefinition (span : Span) : Program :=
  ⟨[.define "n" (some .int) (.binary (.literal (.string "a") span) .add
    (.literal (.string "b") span) span) span]⟩

/-- The wrong value is refused, and what is reported about it is honest. -/
theorem fits_type_agreement_mistyped :
    ((mistypedDefinition default).checkFrom .empty).error =
      some (.spanned (.wrongValue .int (some .string)) default) ∧
    (Cause.wrongValue .int (some .string)).Honest := by
  have h : ((mistypedDefinition default).checkFrom .empty).error =
      some (.spanned (.wrongValue .int (some .string)) default) := by decide +kernel
  exact ⟨h, fits_type_agreement.2.2.2 _ _ _ h⟩

end Slate
