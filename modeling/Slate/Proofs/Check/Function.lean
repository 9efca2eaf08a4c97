-- SUMMARY: When the checker gets through a function, and the environments inside its body and behind it.
import Slate.Proofs.Check.Steady

/-!
# Functions

A function is checked in three parts: its head, its body, and what only the whole
body can show. Taken together, the checker gets through a function exactly if the
head is well formed by the rules, the body runs through from the environment that
the rules give it, and the returns of the body are in order.
-/

namespace Slate

namespace Check

open CheckState (Steady)

/-! ## Parameters -/

/-- Binding symbols one behind the other. -/
def bindAll (Γ : Env) (symbols : List Symbol) : Env :=
  symbols.foldl (fun Γ symbol => Γ.bind symbol.name symbol.entity) Γ

theorem defineAll_ok {symbols : List Symbol} {s s' : CheckState} (hs : s.table.Coherent)
    (h : defineAll symbols s = .ok () s') :
    s'.table.Coherent ∧ s'.env = bindAll s.env symbols ∧ s'.function = s.function ∧
      s'.loops = s.loops := by
  induction symbols generalizing s with
  | nil =>
    cases h
    exact ⟨hs, rfl, rfl, rfl⟩
  | cons symbol symbols ih =>
    obtain ⟨table, hdefine, h⟩ := defineAll_cons_ok.1 h
    obtain ⟨hcoherent, henv, hfunction, hloops⟩ := ih (hs.define hdefine) h
    refine ⟨hcoherent, ?_, hfunction, hloops⟩
    rw [henv, CheckState.env, hs.env_define hdefine]
    rfl

/-- Symbols can be bound one behind the other if their names are distinct and the
innermost frame binds none of them. -/
theorem exists_defineAll {symbols : List Symbol} {s : CheckState} {f : Frame} {Γ : Env}
    (hs : s.table.Coherent) (henv : s.env = f :: Γ) :
    (∃ s', defineAll symbols s = .ok () s') ↔
      (symbols.map Symbol.name).Nodup ∧ ∀ symbol ∈ symbols, f symbol.name = none := by
  induction symbols generalizing s f with
  | nil => exact ⟨fun _ => by simp, fun _ => ⟨s, rfl⟩⟩
  | cons symbol symbols ih =>
    -- each symbol narrows the innermost frame for those behind it
    have hstep : ∀ table, s.table.define symbol = .ok table →
        ((∃ s', defineAll symbols { s with table } = .ok () s') ↔
          (symbols.map Symbol.name).Nodup ∧
            ∀ other ∈ symbols, f.bind symbol.name symbol.entity other.name = none) := by
      intro table hdefine
      apply ih (hs.define hdefine)
      rw [CheckState.env, hs.env_define hdefine, show s.table.env = f :: Γ from henv, Env.bind]
    have hfresh : (∀ other ∈ symbols, f.bind symbol.name symbol.entity other.name = none) ↔
        symbol.name ∉ symbols.map Symbol.name ∧ ∀ other ∈ symbols, f other.name = none := by
      simp only [Frame.bind_eq_none, List.mem_map, not_exists, not_and]
      constructor
      · intro h
        exact ⟨fun other hother => (h other hother).1, fun other hother => (h other hother).2⟩
      · rintro ⟨hnew, hall⟩ other hother
        exact ⟨hnew other hother, hall other hother⟩
    simp only [defineAll_cons_ok, List.map_cons, List.nodup_cons, List.forall_mem_cons]
    constructor
    · rintro ⟨s', table, hdefine, hrest⟩
      obtain ⟨hnodup, hall⟩ := (hstep table hdefine).1 ⟨s', hrest⟩
      obtain ⟨hnew, hall⟩ := hfresh.1 hall
      exact ⟨⟨hnew, hnodup⟩, (hs.exists_define_env henv).1 ⟨table, hdefine⟩, hall⟩
    · rintro ⟨⟨hnew, hnodup⟩, hsymbol, hall⟩
      obtain ⟨table, hdefine⟩ := (hs.exists_define_env henv).2 hsymbol
      obtain ⟨s', hrest⟩ := (hstep table hdefine).2 ⟨hnodup, hfresh.2 ⟨hnew, hall⟩⟩
      exact ⟨s', table, hdefine, hrest⟩

theorem exists_parameter? (ty : Ty) (name : String) (span : Span) :
    (∃ symbol, Symbol.parameter? ty name span = some symbol) ↔ ty ≠ .void := by
  cases ty <;> simp [Symbol.parameter?, Ty.default?]

/-- The symbol of a parameter is a variable of its type. -/
theorem parameter?_entity {ty : Ty} {name : String} {span : Span} {symbol : Symbol}
    (h : Symbol.parameter? ty name span = some symbol) :
    symbol.name = name ∧ symbol.valueType? = some ty ∧ symbol.entity = .variable ty := by
  cases ty <;> cases h <;> exact ⟨rfl, rfl, rfl⟩

/-- Parameters have symbols if none is `void`. -/
theorem exists_paramSymbols (function : String) (params : List Param) :
    (∃ symbols, paramSymbols function params = .ok symbols) ↔ ∀ p ∈ params, p.ty ≠ .void := by
  induction params with
  | nil => simp [paramSymbols]
  | cons p params ih =>
    rw [List.forall_mem_cons, ← ih, ← exists_parameter? p.ty p.name p.span]
    simp only [paramSymbols_cons_ok]
    constructor
    · rintro ⟨_, symbol, rest, hsymbol, hrest, rfl⟩
      exact ⟨⟨symbol, hsymbol⟩, rest, hrest⟩
    · rintro ⟨⟨symbol, hsymbol⟩, rest, hrest⟩
      exact ⟨_, symbol, rest, hsymbol, hrest, rfl⟩

/-- What the symbols of parameters say about their names. -/
theorem paramSymbols_entities {function : String} {params : List Param} {symbols : List Symbol}
    (h : paramSymbols function params = .ok symbols) :
    symbols.map Symbol.name = params.map Param.name ∧
      symbols.filterMap Symbol.valueType? = params.map Param.ty ∧
      ∀ Γ, bindAll Γ symbols = Env.bindParams Γ params := by
  induction params generalizing symbols with
  | nil =>
    cases h
    exact ⟨rfl, rfl, fun _ => rfl⟩
  | cons p params ih =>
    obtain ⟨symbol, rest, hsymbol, hrest, rfl⟩ := paramSymbols_cons_ok.1 h
    obtain ⟨hname, hty, hentity⟩ := parameter?_entity hsymbol
    obtain ⟨hnames, htypes, hbind⟩ := ih hrest
    refine ⟨by simp [hname, hnames], by simp [hty, htypes], ?_⟩
    intro Γ
    have hrestEnv := hbind (Γ.bind symbol.name symbol.entity)
    rw [hname, hentity] at hrestEnv
    simpa [bindAll, Env.bindParams, hname, hentity] using hrestEnv

/-! ## Functions -/

section Function

variable {name : String} {params : List Param} {returns : Option Ty} {body : Block} {span : Span}
variable {m : CheckM Unit} {s s' s₁ : CheckState} {head : List Symbol × Symbol}

/-- What the rules ask of the head of a function. -/
structure HeadWellFormed (Γ : Env) (name : String) (params : List Param) : Prop where
  notBuiltin : Builtin.isName name = false
  fresh : Γ.lookup? name = none
  typed : ∀ p ∈ params, p.ty ≠ .void
  distinct : (params.map Param.name).Nodup

/-- The state `s'` in which the body of a function begins that is met in the state `s`. -/
structure AtBody (name : String) (params : List Param) (returns : Option Ty)
    (s s' : CheckState) : Prop where
  coherent : s'.table.Coherent
  env : s'.env = (s.env.aroundBody name params returns).enter.bindParams params
  loops : s'.loops = s.loops
  function : s'.function = s.function

/-- The symbol of a function says what its head writes down. -/
theorem functionHead_symbol (h : functionHead name params returns span s = .ok head s₁) :
    paramSymbols name params = .ok head.1 ∧ head.2.name = name ∧
      head.2.entity = .function (.written params returns) := by
  obtain ⟨-, -, hparams, hsymbol, -⟩ := functionHead_ok.1 h
  obtain ⟨-, htypes, -⟩ := paramSymbols_entities hparams
  refine ⟨hparams, by rw [hsymbol]; rfl, ?_⟩
  rw [hsymbol, Symbol.entity, htypes]
  rfl

/-- Behind the head of a function the function is bound if its return type is written. -/
theorem functionHead_env (hs : s.table.Coherent)
    (h : functionHead name params returns span s = .ok head s₁) :
    s₁.table.Coherent ∧ s₁.env = s.env.aroundBody name params returns ∧
      s₁.loops = s.loops ∧ s₁.function = s.function := by
  obtain ⟨-, hname, hentity⟩ := functionHead_symbol h
  obtain ⟨-, -, -, -, table, hdefine, rfl⟩ := functionHead_ok.1 h
  cases returns with
  | none =>
    cases hdefine
    exact ⟨hs, rfl, rfl, rfl⟩
  | some ty =>
    refine ⟨hs.define hdefine, ?_, rfl, rfl⟩
    rw [CheckState.env, hs.env_define hdefine, hname, hentity]
    rfl

theorem exists_functionHead (hs : s.table.Coherent) :
    (∃ head s₁, functionHead name params returns span s = .ok head s₁) ↔
      Builtin.isName name = false ∧ s.env.lookup? name = none ∧ ∀ p ∈ params, p.ty ≠ .void := by
  rw [CheckState.env, Table.lookup?_env, Option.map_eq_none_iff,
    ← exists_paramSymbols name params]
  constructor
  · rintro ⟨head, s₁, h⟩
    obtain ⟨hbuiltin, hfresh, hparams, -⟩ := functionHead_ok.1 h
    exact ⟨hbuiltin, hfresh, _, hparams⟩
  · rintro ⟨hbuiltin, hfresh, symbols, hparams⟩
    have hdefine : ∃ table, (if returns.isSome then
        s.table.define (.function name span symbols (returns.getD .void)) else .ok s.table) =
        .ok table := by
      cases returns with
      | none => exact ⟨_, rfl⟩
      | some ty =>
        apply hs.exists_define_of_fresh
        rw [Table.lookup?_env, show Symbol.name _ = name from rfl, hfresh]
        rfl
    obtain ⟨table, hdefine⟩ := hdefine
    exact ⟨(symbols, _), _, functionHead_ok.2 ⟨hbuiltin, hfresh, hparams, rfl, table, hdefine, rfl⟩⟩

/-- Behind its head, a function enters the scope of its body and binds its parameters
there. -/
theorem functionEntry {start : Location} {s₂ : CheckState} (hs : s.table.Coherent)
    (h : functionHead name params returns span s = .ok head s₁)
    (henter : enterBlock start s₁ = .ok () s₂) :
    ((∃ s₃, defineAll head.1 s₂ = .ok () s₃) ↔ (params.map Param.name).Nodup) ∧
      ∀ s₃, defineAll head.1 s₂ = .ok () s₃ → AtBody name params returns s s₃ := by
  obtain ⟨hparams, -, -⟩ := functionHead_symbol h
  obtain ⟨hnames, -, hbind⟩ := paramSymbols_entities hparams
  obtain ⟨hcoherent₁, henv₁, hloops₁, hfunction₁⟩ := functionHead_env hs h
  obtain ⟨hcoherent₂, henv₂, hloops₂, hfunction₂⟩ := enterBlock_env hcoherent₁ henter
  constructor
  · rw [exists_defineAll hcoherent₂ henv₂, hnames]
    simp [Frame.empty]
  · intro s₃ h₃
    obtain ⟨hcoherent₃, henv₃, hfunction₃, hloops₃⟩ := defineAll_ok hcoherent₂ h₃
    have henv : s₃.env = (s.env.aroundBody name params returns).enter.bindParams params := by
      rw [henv₃, hbind, henv₂, henv₁]
    exact
      { coherent := hcoherent₃
        env := henv
        loops := hloops₃.trans (hloops₂.trans hloops₁)
        function := hfunction₃.trans (hfunction₂.trans hfunction₁) }

theorem Env.tail_bindParams (Γ : Env) (params : List Param) :
    (Γ.bindParams params).tail = Γ.tail := by
  induction params generalizing Γ with
  | nil => rfl
  | cons p params ih =>
    rw [Env.bindParams, List.foldl_cons]
    refine (ih _).trans ?_
    cases Γ <;> rfl

/-- Behind the body of a function its scope is left. -/
theorem functionExit {s₃ s₄ : CheckState} {context : FunctionContext} {outer : Table}
    (hat : AtBody name params returns s s₃)
    (hsteady : Steady { s₃ with function := some context } s₄) (hexit : s₄.table.exit = .ok outer) :
    outer.env = s.env.aroundBody name params returns := by
  rw [hsteady.coherent.env_exit hexit]
  refine hsteady.outer.trans ?_
  show s₃.env.tail = _
  rw [hat.env, Env.tail_bindParams]
  rfl

/-- Behind the whole function it is bound, whether its return type is written or not. -/
theorem functionTail_env {outer table : Table}
    (h : functionHead name params returns span s = .ok head s₁) (houter : outer.Coherent)
    (henv : outer.env = s.env.aroundBody name params returns)
    (hdefine : (if returns.isNone then outer.define head.2 else .ok outer) = .ok table) :
    table.Coherent ∧ table.env = s.env.bind name (.function (.written params returns)) := by
  obtain ⟨-, hname, hentity⟩ := functionHead_symbol h
  cases returns with
  | none =>
    refine ⟨houter.define hdefine, ?_⟩
    rw [houter.env_define hdefine, hname, hentity, henv]
    rfl
  | some ty =>
    cases hdefine
    exact ⟨houter, henv⟩

/-- A function whose body is checked leaves behind it the environment with the function,
and everything else as it was. -/
theorem functionBody_ok (hm : Steadily m) (hs : s.table.Coherent)
    (h : functionBody name params returns body span m s = .ok () s') :
    HeadWellFormed s.env name params ∧
      ∃ s₃ s₄, AtBody name params returns s s₃ ∧
        m { s₃ with function := some (functionStart name returns) } = .ok () s₄ ∧ s₄.InOrder ∧
        (returns.getD .void ≠ .void → body.alwaysReturns = true) ∧ s'.table.Coherent ∧
        s'.env = s.env.bind name (.function (.written params returns)) ∧
        s'.loops = s₄.loops ∧ s'.function = s.function := by
  simp only [functionBody, bind_ok] at h
  obtain ⟨head, s₁, h₁, _, s₂, h₂, _, s₃, h₃, context, s₅, h₅, _, s₆, h₆, h₇⟩ := h
  obtain ⟨hbuiltin, hfresh, htyped⟩ := (exists_functionHead hs).1 ⟨head, s₁, h₁⟩
  obtain ⟨hdistinct, hstart⟩ := functionEntry hs h₁ h₂
  have hat := hstart s₃ h₃
  obtain ⟨s₄, h₄, rfl, rfl⟩ := insideFunction_ok.1 h₅
  obtain ⟨outer, hexit, rfl⟩ := exitBlock_ok.1 h₆
  obtain ⟨c, hc, hmismatch, hpaths, table, hdefine, rfl⟩ := functionTail_ok.1 h₇
  have hsteady := hm _ s₄ h₄ hat.coherent
  have hagrees : s₄.Agrees := by
    intro c' hc'
    cases hc.symm.trans hc'
    exact hmismatch
  refine ⟨⟨hbuiltin, hfresh, htyped, hdistinct.1 ⟨s₃, h₃⟩⟩, s₃, s₄, hat, h₄,
    ⟨hsteady.coherent, hagrees⟩, fun hty => body.returnsOnAllPaths_eq ▸ hpaths hty, ?_⟩
  have houter := functionExit hat hsteady hexit
  obtain ⟨hcoherent, henv⟩ := functionTail_env h₁ (hsteady.coherent.exit hexit) houter hdefine
  exact ⟨hcoherent, henv, rfl, hat.function⟩

theorem steadily_functionBody (hm : Steadily m) :
    Steadily (functionBody name params returns body span m) := by
  intro s s' h hs
  obtain ⟨-, s₃, s₄, hat, h₄, -, -, hcoherent, henv, hloops, hfunction⟩ := functionBody_ok hm hs h
  have hsteady := hm _ s₄ h₄ hat.coherent
  refine { coherent := hcoherent, outer := ?_, loops := ?_, declared := ?_, agreed := ?_ }
  · rw [henv]
    cases s.env <;> rfl
  · rw [hloops, hsteady.loops]
    exact congrArg List.length hat.loops
  · simp only [CheckState.surroundings, hfunction]
  · intro hagrees c hc
    exact hagrees c (hfunction.trans hc)

/-- A function with a well-formed head is checked if its body is, from the state in
which that begins. -/
theorem exists_functionBody (hm : Steadily m) (hs : s.table.Coherent)
    (hhead : HeadWellFormed s.env name params) :
    ∃ s₃, AtBody name params returns s s₃ ∧
      ∀ s₄, m { s₃ with function := some (functionStart name returns) } = .ok () s₄ →
        s₄.InOrder → (returns.getD .void ≠ .void → body.alwaysReturns = true) →
        ∃ s', functionBody name params returns body span m s = .ok () s' := by
  obtain ⟨head, s₁, h₁⟩ : ∃ head s₁, functionHead name params returns span s = .ok head s₁ :=
    (exists_functionHead hs).2 ⟨hhead.notBuiltin, hhead.fresh, hhead.typed⟩
  obtain ⟨s₂, h₂⟩ : ∃ s₂, enterBlock body.span.start s₁ = .ok () s₂ := ⟨_, rfl⟩
  obtain ⟨hdistinct, hstart⟩ := functionEntry hs h₁ h₂
  obtain ⟨s₃, h₃⟩ := hdistinct.2 hhead.distinct
  have hat := hstart s₃ h₃
  refine ⟨s₃, hat, ?_⟩
  intro s₄ h₄ hinOrder hpaths
  have hsteady := hm _ s₄ h₄ hat.coherent
  obtain ⟨f, Γ, henv⟩ := hs.exists_env
  have haround : s.env.aroundBody name params returns ≠ [] := by
    rw [CheckState.env, henv]
    cases returns <;> exact List.cons_ne_nil _ _
  obtain ⟨outer, hexit⟩ : ∃ outer, s₄.table.exit = .ok outer := by
    apply hsteady.coherent.exists_exit_env
    rw [show s₄.table.env.tail = s₃.env.tail from hsteady.outer, hat.env, Env.tail_bindParams]
    exact haround
  have houter := functionExit hat hsteady hexit
  -- the surroundings of the body are kept, so the account of the function is still there
  obtain ⟨c, hc⟩ : ∃ c, s₄.function = some c := by
    have hdeclared := hsteady.declared
    cases hc : s₄.function with
    | none => simp [CheckState.surroundings, hc] at hdeclared
    | some c => exact ⟨c, rfl⟩
  obtain ⟨table, hdefine⟩ : ∃ table,
      (if returns.isNone then outer.define head.2 else .ok outer) = .ok table := by
    cases returns with
    | none =>
      apply (hsteady.coherent.exit hexit).exists_define_of_fresh
      -- without a written return type the function is bound only now, around its own body
      rw [houter, (functionHead_symbol h₁).2.1]
      exact hhead.fresh
    | some ty => exact ⟨outer, rfl⟩
  have h₅ := insideFunction_ok.2 ⟨s₄, h₄, rfl, rfl⟩
  obtain ⟨s₆, h₆, htable⟩ : ∃ s₆, exitBlock { s₄ with function := s₃.function } = .ok () s₆ ∧
      s₆.table = outer := ⟨_, exitBlock_ok.2 ⟨outer, hexit, rfl⟩, rfl⟩
  subst htable
  obtain ⟨s', h₇⟩ : ∃ s', functionTail name returns body span head.2 s₄.function s₆ = .ok () s' :=
    ⟨_, functionTail_ok.2 ⟨c, hc, hinOrder.agrees c hc,
      fun hty => body.returnsOnAllPaths_eq ▸ hpaths hty, table, hdefine, rfl⟩⟩
  refine ⟨s', ?_⟩
  simp only [functionBody, bind_ok]
  exact ⟨head, s₁, h₁, (), s₂, h₂, (), s₃, h₃, _, _, h₅, (), s₆, h₆, h₇⟩

end Function

/-! ## All walks -/

/-- All walks are steady. -/
theorem steady_walk :
    Walk (fun s s' => s.table.Coherent → Steady s s') (fun _ _ _ => True) where
  refl s h := .refl h
  trans h h' hs := (h hs).trans (h' (h hs).coherent)
  fails _ _ := trivial
  simple h := keeps_of_steadily (steadily_simple _ h)
  condition construct e span := by
    apply keeps_of_steadily
    intro s s' hm hs
    rw [(condition_ok.1 hm).2]
    exact .refl hs
  block hm := keeps_of_steadily fun s s' h hs =>
    (insideBlock_env (steadily_of_keeps hm) hs h).1
  loop hm := keeps_of_steadily (steadily_loopBody (steadily_of_keeps hm))
  function hm := keeps_of_steadily (steadily_functionBody (steadily_of_keeps hm))

end Check

theorem checkAll_steady {statements : List Stmt} {s s' : CheckState}
    (h : checkAll statements s = .ok () s') (hs : s.table.Coherent) : CheckState.Steady s s' :=
  Check.steadily_of_keeps (checkAll_walk Check.steady_walk statements) s s' h hs

theorem Program.coherent_of_analyze {p : Program} {t : Table} (h : p.analyze = .ok t) :
    t.Coherent := by
  obtain ⟨s, hcheck, rfl⟩ := analyze_eq_ok.1 h
  exact (checkAll_steady hcheck Table.coherent_empty).coherent

end Slate
