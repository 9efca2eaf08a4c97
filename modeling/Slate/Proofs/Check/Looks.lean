-- SUMMARY: The parts of a walk that only look: they ask, report, and stop with an error that points at the statement.
import Slate.Proofs.Check.Success
import Slate.Proofs.Check.Walk
import Slate.Proofs.Syntax.Parts

/-!
# Looking before binding

Most of what the checker does only looks at the state: it asks, reports, and perhaps
refuses. Every declaration is such a look, which yields the symbol to be bound, and then
the binding. What is said here of a look is what it finds out about its symbols, and
where its error points.
-/

namespace Slate

/-! ## Diagnostics that point -/

/-- The diagnostic points at a span as in `P`, and its cause is no defect. -/
structure Diagnostic.PointsAt (P : Span → Prop) (d : Diagnostic) : Prop where
  span : ∃ span, d.span = some span ∧ P span
  cause : d.cause.kind ≠ .internal

section PointsAt

variable {P : Span → Prop} {d : Diagnostic}

theorem pointsAt_spanned {cause : Cause} {span : Span} (hcause : (cause.kind == .internal) = false)
    (hspan : P span) : (Diagnostic.spanned cause span).PointsAt P where
  span := ⟨span, rfl, hspan⟩
  cause := beq_eq_false_iff_ne.1 hcause

theorem pointsAt_redeclaration {name : String} {existing : Symbol} {span : Span}
    (hspan : P span) : (Table.redeclaration name existing span).PointsAt P :=
  pointsAt_spanned rfl hspan

theorem Table.define_pointsAt {t : Table} {symbol : Symbol} (hspan : P symbol.span)
    (h : t.define symbol = .error d) : d.PointsAt P := by
  unfold Table.define at h
  split at h <;> cases h
  exact pointsAt_redeclaration hspan

/-- An expression that cannot be resolved has itself, or a part of it, to blame. -/
theorem Expr.resolve_pointsAt {t : Table} (e : Expr) (hP : ∀ span ∈ e.spans, P span)
    (h : e.resolve t = .error d) : d.PointsAt P := by
  obtain ⟨before, part, after, hparts, -, hoffends⟩ := Expr.resolve_eq_error.1 h
  have hpart := e.spans_of_mem_parts hP part (by simp [hparts])
  cases hoffends with
  | wrongArgument _ _ _ harguments =>
    refine pointsAt_spanned rfl (hpart _ (List.mem_cons_of_mem _ ?_))
    exact mem_argumentSpans (by simp [harguments]) (Expr.span_mem_spans _)
  | _ => exact pointsAt_spanned rfl (hpart _ List.mem_cons_self)

end PointsAt

namespace Check

/-! ## Declarations up to their binding -/

/-- The symbol that `let name: ty;` is going to bind. -/
def declaredSymbol (name : String) (ty : Ty) (span : Span) : CheckM Symbol := do
  requireFresh name span
  match Symbol.declared? ty name span with
  | none => refuse .voidVariable span
  | some symbol =>
    emit (.declare name ty)
    return symbol

/-- The symbol of a variable that holds what its initializer is worth. -/
def valueSymbol (name : String) (ty : Ty) (e : Expr) (span : Span) : CheckM Symbol := do
  match e.fold? (← get).table ty with
  | none => refuse .voidVariable span
  | some folded =>
    let symbol := Symbol.initialized name span folded.value folded.known
    emit (.define name ty symbol.knownValue?)
    return symbol

/-- The symbol that `let name: ty = e;` is going to bind. -/
def typedSymbol (name : String) (ty : Ty) (e : Expr) (span : Span) : CheckM Symbol := do
  requireFresh name span
  if ty = .void then refuse .voidVariable span
  requireValue ty e span
  valueSymbol name ty e span

/-- The symbol that `let name = e;` is going to bind. -/
def inferredSymbol (name : String) (e : Expr) (span : Span) : CheckM Symbol := do
  requireFresh name span
  resolve e
  let table := (← get).table
  match e.type? table with
  | none => refuse .untypedInitializer span
  | some ty =>
    if ty = .void then refuse (.voidInitializer name) span
    unless e.fits table ty do refuse (.wrongValue ty (e.type? table)) span
    valueSymbol name ty e span

/-- The symbols of the parameters of a function and the one of the function itself, none
of them bound yet. -/
def functionSymbols (name : String) (params : List Param) (returns : Option Ty) (span : Span) :
    CheckM (List Symbol × Symbol) := do
  if Builtin.isName name then refuse (.builtinRedefined name) span
  requireFresh name span
  let symbols ← require (paramSymbols name params)
  let ty := returns.getD .void
  emit (.defineFunction name { params := symbols.filterMap Symbol.valueType?, returns := ty })
  return (symbols, .function name span symbols ty)

/-- What the whole body of a function shows, before a function without a written return
type is bound. -/
def functionVerdict (name : String) (returns : Option Ty) (body : Block) (span : Span)
    (context : Option FunctionContext) : CheckM Unit := do
  match context with
  | none => throw (.ofDefect (.lostFunction name))
  | some context =>
    emit (.functionChecked context.name context.returns.inspected)
    require context.returns.finish
    let ty := returns.getD .void
    if ty ≠ .void ∧ !body.returnsOnAllPaths then refuse (.missingReturn name ty) span

end Check

open Check in
/-- What a declaration of a variable does before it binds its symbol. -/
def Stmt.introduction? : Stmt → Option (CheckM Symbol)
  | .declare name ty span => some (declaredSymbol name ty span)
  | .define name (some ty) value span => some (typedSymbol name ty value span)
  | .define name none value span => some (inferredSymbol name value span)
  | _ => none

namespace Check

theorem declaration_eq (name : String) (ty : Ty) (span : Span) :
    declaration name ty span = declaredSymbol name ty span >>= define := by
  unfold declaration declaredSymbol
  rw [bind_assoc]
  congr 1; funext _
  cases Symbol.declared? ty name span <;> rfl

theorem bindValue_eq (name : String) (ty : Ty) (e : Expr) (span : Span) :
    bindValue name ty e span = valueSymbol name ty e span >>= define := by
  unfold bindValue valueSymbol
  rw [bind_assoc]
  congr 1; funext s
  cases e.fold? s.table ty <;> rfl

theorem typedDefinition_eq (name : String) (ty : Ty) (e : Expr) (span : Span) :
    typedDefinition name ty e span = typedSymbol name ty e span >>= define := by
  unfold typedDefinition typedSymbol
  simp only [bindValue_eq, bind_assoc]
  congr 1; funext _
  split
  · rfl
  · simp only [bind_assoc]

theorem inferredDefinition_eq (name : String) (e : Expr) (span : Span) :
    inferredDefinition name e span = inferredSymbol name e span >>= define := by
  unfold inferredDefinition inferredSymbol
  simp only [bindValue_eq, bind_assoc]
  congr 1; funext _
  congr 1; funext _
  congr 1; funext s
  cases e.type? s.table with
  | none => rfl
  | some ty =>
    dsimp only
    split
    · rfl
    · split <;> rfl

theorem functionHead_eq (name : String) (params : List Param) (returns : Option Ty)
    (span : Span) :
    functionHead name params returns span = (do
      let head ← functionSymbols name params returns span
      if returns.isSome then define head.2
      return head) := by
  unfold functionHead functionSymbols
  dsimp only
  split
  · rfl
  · simp only [bind_assoc, pure_bind]

theorem functionTail_eq (name : String) (returns : Option Ty) (body : Block) (span : Span)
    (symbol : Symbol) (context : Option FunctionContext) :
    functionTail name returns body span symbol context = (do
      functionVerdict name returns body span context
      if returns.isNone then define symbol) := by
  unfold functionTail functionVerdict
  cases context with
  | none => rfl
  | some context =>
    dsimp only
    split <;> simp only [bind_assoc, pure_bind]

end Check

theorem Stmt.check_introduction {stmt : Stmt} {m : CheckM Symbol}
    (h : stmt.introduction? = some m) : stmt.check = m >>= Check.define := by
  cases stmt with
  | declare name ty span =>
    cases h
    rw [Stmt.check, Check.declaration_eq]
  | define name ty value span =>
    cases ty with
    | none =>
      cases h
      rw [Stmt.check, Check.inferredDefinition_eq]
    | some ty =>
      cases h
      rw [Stmt.check, Check.typedDefinition_eq]
  | _ => cases h

namespace Check

/-! ## Steps that only look -/

variable {α β : Type} {P : Span → Prop}

/-- A part of the walk that does nothing to the state but report, and yields what is
in `Q` for the table there; its error points into `P`. -/
def Looks (P : Span → Prop) (Q : Table → α → Prop) (m : CheckM α) : Prop :=
  ∀ s, wp m (fun a s' => (∃ events, s' = { s with events }) ∧ Q s.table a)
    (fun d s' => (∃ events, s' = { s with events }) ∧ d.PointsAt P) s

variable {Q R : Table → α → Prop} {m : CheckM α}

theorem Looks.mono (hm : Looks P Q m) (h : ∀ t a, Q t a → R t a) : Looks P R m := by
  intro s
  apply wp_mono (hm s)
  · intro a s' ha
    exact ⟨ha.1, h _ _ ha.2⟩
  · intro d s' hd
    exact hd

theorem Looks.bind {Q : Table → β → Prop} {f : α → CheckM β} (hm : Looks P R m)
    (hf : ∀ a, Looks P Q (f a)) :
    Looks P (fun t b => (∃ a, R t a) ∧ Q t b) (m >>= f) := by
  intro s
  rw [wp_bind]
  apply wp_mono (hm s)
  · rintro a s₁ ⟨⟨events, rfl⟩, ha⟩
    apply wp_mono (hf a _)
    · rintro b s₂ ⟨⟨events, rfl⟩, hb⟩
      exact ⟨⟨events, rfl⟩, ⟨a, ha⟩, hb⟩
    · rintro d s₂ ⟨⟨events, rfl⟩, hd⟩
      exact ⟨⟨events, rfl⟩, hd⟩
  · intro d s₁ hd
    exact hd

/-- Nothing that was found out is needed behind the step. -/
theorem Looks.andThen {Q : Table → β → Prop} {f : α → CheckM β} (hm : Looks P R m)
    (hf : ∀ a, Looks P Q (f a)) : Looks P Q (m >>= f) :=
  (hm.bind hf).mono fun _ _ h => h.2

theorem looks_pure {a : α} (ha : ∀ t, Q t a) : Looks P Q (pure a) :=
  fun s => ⟨⟨s.events, rfl⟩, ha _⟩

theorem looks_get : Looks P (fun t s => s.table = t) get := fun s => ⟨⟨s.events, rfl⟩, rfl⟩

theorem looks_emit (event : Event) : Looks P (fun _ _ => True) (emit event) :=
  fun _ => ⟨⟨_, rfl⟩, trivial⟩

theorem looks_refuse {cause : Cause} {span : Span} (hcause : (cause.kind == .internal) = false)
    (hspan : P span) : Looks P Q (refuse cause span) :=
  fun s => ⟨⟨s.events, rfl⟩, pointsAt_spanned hcause hspan⟩

/-- Nothing behind a refusal is reached. -/
theorem looks_refuse_bind {Q : Table → β → Prop} {cause : Cause} {span : Span} {f : α → CheckM β}
    (hcause : (cause.kind == .internal) = false) (hspan : P span) :
    Looks P Q (refuse cause span >>= f) :=
  fun s => ⟨⟨s.events, rfl⟩, pointsAt_spanned hcause hspan⟩

theorem looks_require {r : Except Diagnostic α} (h : ∀ d, r = .error d → d.PointsAt P) :
    Looks P (fun _ a => r = .ok a) (require r) := by
  intro s
  rw [wp_require]
  exact ⟨fun a ha => ⟨⟨s.events, rfl⟩, ha⟩, fun d hd => ⟨⟨s.events, rfl⟩, h d hd⟩⟩

theorem looks_requireFresh {name : String} {span : Span} (hspan : P span) :
    Looks P (fun t _ => t.lookup? name = none) (requireFresh name span) := by
  intro s
  rw [wp_requireFresh]
  exact ⟨fun hfresh => ⟨⟨s.events, rfl⟩, hfresh⟩,
    fun existing _ => ⟨⟨s.events, rfl⟩, pointsAt_redeclaration hspan⟩⟩

theorem looks_resolve {e : Expr} (he : ∀ span ∈ e.spans, P span) :
    Looks P (fun _ _ => True) (resolve e) :=
  looks_get.andThen fun _ => (looks_require fun _ h => e.resolve_pointsAt he h).mono
    fun _ _ _ => trivial

theorem looks_requireValue {ty : Ty} {e : Expr} {span : Span} (he : ∀ span ∈ e.spans, P span)
    (hspan : P span) : Looks P (fun _ _ => True) (requireValue ty e span) := by
  refine (looks_resolve he).andThen fun _ => looks_get.andThen fun s => ?_
  dsimp only
  split
  · exact looks_pure fun _ => trivial
  · exact looks_refuse rfl hspan

theorem looks_condition {construct : Construct} {e : Expr} {span : Span}
    (he : ∀ span ∈ e.spans, P span) (hspan : P span) :
    Looks P (fun _ _ => True) (condition construct e span) := by
  refine (looks_resolve he).andThen fun _ => looks_get.andThen fun s => ?_
  split
  · exact looks_pure fun _ => trivial
  · exact looks_refuse rfl hspan

theorem looks_elseConditions :
    ∀ {branches : List Branch}, (∀ span ∈ branchSpans branches, P span) →
      Looks P (fun _ _ => True) (elseConditions branches)
  | [], _ => looks_pure fun _ => trivial
  | .mk test body span :: branches, h => by
    simp only [branchSpans, List.forall_mem_cons, List.forall_mem_append] at h
    obtain ⟨hspan, htest, -, hbranches⟩ := h
    exact (looks_condition htest hspan).andThen fun _ => looks_elseConditions hbranches

theorem looks_conditions {branches : List Branch} (h : ∀ span ∈ branchSpans branches, P span) :
    Looks P (fun _ _ => True) (conditions branches) := by
  cases branches with
  | nil => exact looks_pure fun _ => trivial
  | cons branch branches =>
    obtain ⟨test, body, span⟩ := branch
    simp only [branchSpans, List.forall_mem_cons, List.forall_mem_append] at h
    obtain ⟨hspan, htest, -, hbranches⟩ := h
    exact (looks_condition htest hspan).andThen fun _ => looks_elseConditions hbranches

/-! ## Declarations -/

/-- The symbol has a name that cannot be seen yet, and points into `P`. -/
def Fresh (P : Span → Prop) (t : Table) (symbol : Symbol) : Prop :=
  t.lookup? symbol.name = none ∧ P symbol.span

theorem declared?_at {ty : Ty} {name : String} {span : Span} {symbol : Symbol}
    (h : Symbol.declared? ty name span = some symbol) :
    symbol.name = name ∧ symbol.span = span := by
  cases ty <;> cases h <;> exact ⟨rfl, rfl⟩

/-- Behind the look-up of its name, a symbol of that name is fresh. -/
theorem fresh_of_named {name : String} {span : Span} {f : Unit → CheckM Symbol} (hspan : P span)
    (hf : Looks P (fun _ symbol => symbol.name = name ∧ symbol.span = span) (f ())) :
    Looks P (Fresh P) (requireFresh name span >>= f) := by
  refine ((looks_requireFresh hspan).bind fun _ => hf).mono ?_
  rintro t symbol ⟨⟨_, hfresh⟩, rfl, rfl⟩
  exact ⟨hfresh, hspan⟩

theorem looks_declaredSymbol {name : String} {ty : Ty} {span : Span} (hspan : P span) :
    Looks P (Fresh P) (declaredSymbol name ty span) := by
  refine fresh_of_named hspan ?_
  split
  · exact looks_refuse rfl hspan
  · next symbol hsymbol =>
    exact (looks_emit _).andThen fun _ => looks_pure fun _ => declared?_at hsymbol

theorem looks_valueSymbol {name : String} {ty : Ty} {e : Expr} {span : Span} (hspan : P span) :
    Looks P (fun _ symbol => symbol.name = name ∧ symbol.span = span)
      (valueSymbol name ty e span) := by
  refine looks_get.andThen fun s => ?_
  split
  · exact looks_refuse rfl hspan
  · exact (looks_emit _).andThen fun _ => looks_pure fun _ => ⟨rfl, rfl⟩

theorem looks_typedSymbol {name : String} {ty : Ty} {e : Expr} {span : Span}
    (he : ∀ span ∈ e.spans, P span) (hspan : P span) :
    Looks P (Fresh P) (typedSymbol name ty e span) := by
  refine fresh_of_named hspan ?_
  dsimp only
  split
  · exact looks_refuse_bind rfl hspan
  · exact (looks_requireValue he hspan).andThen fun _ => looks_valueSymbol hspan

theorem looks_inferredSymbol {name : String} {e : Expr} {span : Span}
    (he : ∀ span ∈ e.spans, P span) (hspan : P span) :
    Looks P (Fresh P) (inferredSymbol name e span) := by
  refine fresh_of_named hspan ((looks_resolve he).andThen fun _ => looks_get.andThen fun s => ?_)
  dsimp only
  split
  · exact looks_refuse rfl hspan
  · split
    · exact looks_refuse_bind rfl hspan
    · split
      · exact looks_valueSymbol hspan
      · exact looks_refuse_bind rfl hspan

theorem looks_introduction {stmt : Stmt} {m : CheckM Symbol} (h : stmt.introduction? = some m)
    (hP : ∀ span ∈ stmt.spans, P span) : Looks P (Fresh P) m := by
  cases stmt with
  | declare name ty span =>
    cases h
    exact looks_declaredSymbol (hP span List.mem_cons_self)
  | define name ty value span =>
    rw [Stmt.spans, List.forall_mem_cons] at hP
    cases ty with
    | none =>
      cases h
      exact looks_inferredSymbol hP.2 hP.1
    | some ty =>
      cases h
      exact looks_typedSymbol hP.2 hP.1
  | _ => cases h

/-! ## Functions -/

theorem paramSymbols_pointsAt {function : String} {d : Diagnostic} :
    ∀ {params : List Param}, (∀ span ∈ params.map Param.span, P span) →
      paramSymbols function params = .error d → d.PointsAt P
  | [], _, h => by cases h
  | p :: params, hP, h => by
    rw [List.map_cons, List.forall_mem_cons] at hP
    rw [paramSymbols] at h
    split at h
    · cases h
      exact pointsAt_spanned rfl hP.1
    · cases hrest : paramSymbols function params with
      | ok symbols => rw [hrest] at h; cases h
      | error d' => rw [hrest] at h; cases h; exact paramSymbols_pointsAt hP.2 hrest

/-- The symbols of parameters stand where the parameters do. -/
theorem paramSymbols_spans {function : String} :
    ∀ {params : List Param} {symbols : List Symbol}, paramSymbols function params = .ok symbols →
      symbols.map Symbol.span = params.map Param.span
  | [], _, h => by cases h; rfl
  | p :: params, _, h => by
    obtain ⟨symbol, rest, hsymbol, hrest, rfl⟩ := paramSymbols_cons_ok.1 h
    have hspan : symbol.span = p.span := by
      revert hsymbol
      cases p.ty <;> rintro ⟨⟩ <;> rfl
    rw [List.map_cons, List.map_cons, hspan, paramSymbols_spans hrest]

/-- What a head finds out: the function is fresh, and so is known what is going to be bound. -/
structure HeadFound (P : Span → Prop) (name : String) (params : List Param) (span : Span)
    (returns : Option Ty) (t : Table) (head : List Symbol × Symbol) : Prop where
  fresh : Fresh P t head.2
  symbol : head.2 = .function name span head.1 (returns.getD .void)
  params : paramSymbols name params = .ok head.1

theorem looks_functionSymbols {name : String} {params : List Param} {returns : Option Ty}
    {span : Span} (hspan : P span) (hparams : ∀ span ∈ params.map Param.span, P span) :
    Looks P (HeadFound P name params span returns) (functionSymbols name params returns span) := by
  unfold functionSymbols
  dsimp only
  split
  · exact looks_refuse_bind rfl hspan
  · refine Looks.mono (R := HeadFound P name params span returns)
      ((looks_requireFresh hspan).bind (Q := fun _ head =>
        head.2 = .function name span head.1 (returns.getD .void) ∧
          paramSymbols name params = .ok head.1) fun _ => ?_) ?_
    · intro s
      rw [wp_bind, wp_require]
      constructor
      · intro symbols hsymbols
        exact ⟨⟨_, rfl⟩, rfl, hsymbols⟩
      · intro d hd
        exact ⟨⟨s.events, rfl⟩, paramSymbols_pointsAt hparams hd⟩
    · rintro t head ⟨⟨_, hfresh⟩, hsymbol, hsymbols⟩
      refine { fresh := ?_, symbol := hsymbol, params := hsymbols }
      rw [Fresh, hsymbol]
      exact ⟨hfresh, hspan⟩

/-- The account of a function that is still there points into `P`. -/
theorem looks_functionVerdict {name : String} {returns : Option Ty} {body : Block} {span : Span}
    {context : FunctionContext} (hspan : P span)
    (hreturns : ∀ m, context.returns.mismatch = some m → P m.span) :
    Looks P (fun _ _ => True) (functionVerdict name returns body span (some context)) := by
  refine (looks_emit _).andThen fun _ => (looks_require (fun d hd => ?_)).andThen fun _ => ?_
  · unfold Returns.finish at hd
    split at hd
    · next m hm =>
      cases hd
      exact pointsAt_spanned (by cases m; rfl) (hreturns m hm)
    · cases hd
  · dsimp only
    split
    · exact looks_refuse rfl hspan
    · exact looks_pure fun _ => trivial

end Check

end Slate
