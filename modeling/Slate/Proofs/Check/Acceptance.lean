-- SUMMARY: The checker accepts exactly the programs that are well formed by the rules.
import Slate.Proofs.Check.Function

/-!
# Acceptance

The walk over a program and the rules for well-formed programs are compared part
by part. A part of the walk decides a judgement if, from every state that is in
order, it runs through to a state in order exactly when the judgement holds, and
the environments of the judgement are those that the tables show. Being in order
can be lost on the way but not regained: a return that disagrees is only kept in
the account of its function and refused at the end of the body, so what matters
is how a part ends.
-/

namespace Slate

namespace Check

open CheckState (Steady)

/-- From the state `s` a part of the walk runs through to a state in order that shows
the environment `Γ`. -/
def Admits (m : CheckM Unit) (s : CheckState) (Γ : Env) : Prop :=
  ∃ s', m s = .ok () s' ∧ s'.InOrder ∧ s'.env = Γ

/-- A part of the walk decides a judgement about the environments before and behind
it in given surroundings. -/
structure Decides (m : CheckM Unit) (J : Surroundings → Env → Env → Prop) : Prop where
  steady : Steadily m
  admits : ∀ s, s.InOrder → ∀ Γ, Admits m s Γ ↔ J s.surroundings s.env Γ

namespace Decides

variable {m : CheckM Unit} {J K : Surroundings → Env → Env → Prop}

theorem congr (h : Decides m J) (hJK : ∀ p Γ Γ', J p Γ Γ' ↔ K p Γ Γ') : Decides m K :=
  { steady := h.steady, admits := fun s hs Γ => (h.admits s hs Γ).trans (hJK _ _ _) }

/-- A part of the walk that only reads decides a condition. -/
theorem test {P : Surroundings → Env → Prop}
    (h : ∀ s s', s.InOrder → (m s = .ok () s' ↔ P s.surroundings s.env ∧ s' = s))
    (hsteady : Steadily m) : Decides m fun p Γ Γ' => P p Γ ∧ Γ' = Γ where
  steady := hsteady
  admits := by
    intro s hs Γ
    constructor
    · rintro ⟨s', hm, -, rfl⟩
      obtain ⟨hP, rfl⟩ := (h s s' hs).1 hm
      exact ⟨hP, rfl⟩
    · rintro ⟨hP, rfl⟩
      exact ⟨s, (h s s hs).2 ⟨hP, rfl⟩, hs, rfl⟩

/-- Two parts, one behind the other. What the second one keeps makes sure that the
state between them is in order. -/
theorem seq {n : Unit → CheckM Unit} (hm : Decides m J) (hn : Decides (n ()) K) :
    Decides (m >>= n) fun p Γ Γ'' => ∃ Γ', J p Γ Γ' ∧ K p Γ' Γ'' where
  steady := by
    intro s s'' h hs
    obtain ⟨_, s', h₁, h₂⟩ := bind_ok.1 h
    have hsteady := hm.steady s s' h₁ hs
    exact hsteady.trans (hn.steady s' s'' h₂ hsteady.coherent)
  admits := by
    intro s hs Γ
    constructor
    · rintro ⟨s'', h, horder, henv⟩
      obtain ⟨_, s', h₁, h₂⟩ := bind_ok.1 h
      have hsteady := hm.steady s s' h₁ hs.coherent
      -- order is never regained, so it was there between the two parts
      have hbetween : s'.InOrder :=
        ⟨hsteady.coherent, (hn.steady s' s'' h₂ hsteady.coherent).agreed horder.agrees⟩
      refine ⟨s'.env, (hm.admits s hs _).1 ⟨s', h₁, hbetween, rfl⟩, ?_⟩
      rw [← hsteady.surroundings]
      exact (hn.admits s' hbetween Γ).1 ⟨s'', h₂, horder, henv⟩
    · rintro ⟨Γ', hJ, hK⟩
      obtain ⟨s', h₁, hbetween, rfl⟩ := (hm.admits s hs Γ').2 hJ
      rw [← (hm.steady s s' h₁ hs.coherent).surroundings] at hK
      obtain ⟨s'', h₂, horder, henv⟩ := (hn.admits s' hbetween Γ).2 hK
      exact ⟨s'', bind_ok.2 ⟨(), s', h₁, h₂⟩, horder, henv⟩

/-- A block decides in a fresh frame, which is gone behind it. -/
theorem block {start : Location} (hm : Decides m J) :
    Decides (insideBlock start m) fun p Γ Γ' => (∃ Γ'', J p Γ.enter Γ'') ∧ Γ' = Γ where
  steady := fun s s' h hs => (insideBlock_env hm.steady hs h).1
  admits := by
    intro s hs Γ
    obtain ⟨s₁, h₁⟩ : ∃ s₁, enterBlock start s = .ok () s₁ := ⟨_, rfl⟩
    obtain ⟨hcoherent, henv, hloops, hfunction⟩ := enterBlock_env hs.coherent h₁
    have hs₁ : s₁.InOrder := ⟨hcoherent, fun c hc => hs.agrees c (hfunction ▸ hc)⟩
    have hsurroundings : s₁.surroundings = s.surroundings := by
      simp only [CheckState.surroundings, hloops, hfunction]
    have hbody := hm.admits s₁ hs₁
    rw [hsurroundings, henv] at hbody
    constructor
    · rintro ⟨s', h, horder, rfl⟩
      refine ⟨?_, (insideBlock_env hm.steady hs.coherent h).2⟩
      simp only [insideBlock, bind_ok] at h
      obtain ⟨_, _, h₁', _, s₂, h₂, h₃⟩ := h
      cases h₁.symm.trans h₁'
      obtain ⟨outer, hexit, rfl⟩ := exitBlock_ok.1 h₃
      have hsteady := hm.steady s₁ s₂ h₂ hcoherent
      exact ⟨s₂.env, (hbody s₂.env).1 ⟨s₂, h₂, ⟨hsteady.coherent, horder.agrees⟩, rfl⟩⟩
    · rintro ⟨⟨Γ'', hJ⟩, rfl⟩
      obtain ⟨s₂, h₂, horder, rfl⟩ := (hbody Γ'').2 hJ
      have hsteady := hm.steady s₁ s₂ h₂ hcoherent
      have houter : s₂.table.env.tail = s.env := by
        rw [show s₂.table.env.tail = s₁.env.tail from hsteady.outer, henv]
        rfl
      obtain ⟨outer, hexit⟩ := horder.coherent.exists_exit_env (by
        obtain ⟨f, Γ, henv⟩ := hs.coherent.exists_env
        rw [houter, CheckState.env, henv]
        exact List.cons_ne_nil f Γ)
      refine ⟨{ s₂ with
          table := outer
          events := s₂.events.push (.exitScope s₂.table.current outer.current) }, ?_,
        ⟨horder.coherent.exit hexit, horder.agrees⟩,
        (horder.coherent.env_exit hexit).trans houter⟩
      simp only [insideBlock, bind_ok]
      exact ⟨(), s₁, h₁, (), s₂, h₂, exitBlock_ok.2 ⟨outer, hexit, rfl⟩⟩

/-- The body of a loop decides inside a loop. -/
theorem loop {span : Span} (hm : Decides m J) :
    Decides (loopBody span m) fun p Γ Γ' => J p.loop Γ Γ' where
  steady := steadily_loopBody hm.steady
  admits := by
    intro s hs Γ
    have hbody := hm.admits { s with loops := { span, hasBreak := false } :: s.loops }
      ⟨hs.coherent, hs.agrees⟩ Γ
    constructor
    · rintro ⟨s', h, horder, rfl⟩
      simp only [loopBody, bind_ok, insideLoop_ok] at h
      obtain ⟨loop, _, ⟨s₁, h₁, rfl, rfl⟩, hreport⟩ := h
      obtain ⟨events, rfl⟩ := reportLoop_ok hreport
      exact hbody.1 ⟨s₁, h₁, ⟨horder.coherent, horder.agrees⟩, rfl⟩
    · intro hJ
      obtain ⟨s₁, h₁, horder, rfl⟩ := hbody.2 hJ
      obtain ⟨s', hreport⟩ := exists_reportLoop s₁.loops.head? { s₁ with loops := s₁.loops.tail }
      obtain ⟨events, rfl⟩ := reportLoop_ok hreport
      refine ⟨{ s₁ with loops := s₁.loops.tail, events }, ?_,
        ⟨horder.coherent, horder.agrees⟩, rfl⟩
      simp only [loopBody, bind_ok, insideLoop_ok]
      exact ⟨_, _, ⟨s₁, h₁, rfl, rfl⟩, hreport⟩

/-- A function decides what the rules ask of its head, its body and its returns. -/
theorem function {name : String} {params : List Param} {returns : Option Ty} {body : Block}
    {span : Span} (hm : Decides m J) :
    Decides (functionBody name params returns body span m) fun p Γ Γ' =>
      HeadWellFormed Γ name params ∧
        (∃ Γ'', J { p with returns := some (returns.getD .void) }
          ((Γ.aroundBody name params returns).enter.bindParams params) Γ'') ∧
        (returns.getD .void ≠ .void → body.alwaysReturns = true) ∧
        Γ' = Γ.bind name (.function (.written params returns)) where
  steady := steadily_functionBody hm.steady
  admits := by
    intro s hs Γ
    have hbody : ∀ s₃, AtBody name params returns s s₃ → ∀ Γ'',
        (Admits m { s₃ with function := some (functionStart name returns) } Γ'' ↔
          J { s.surroundings with returns := some (returns.getD .void) }
            ((s.env.aroundBody name params returns).enter.bindParams params) Γ'') := by
      intro s₃ hat Γ''
      have hinOrder : CheckState.InOrder
          { s₃ with function := some (functionStart name returns) } := by
        refine ⟨hat.coherent, ?_⟩
        intro c hc
        cases hc
        rfl
      rw [hm.admits _ hinOrder, ← hat.env]
      simp only [CheckState.surroundings, hat.loops]
      exact Iff.rfl
    constructor
    · rintro ⟨s', h, -, rfl⟩
      obtain ⟨hhead, s₃, s₄, hat, h₄, horder, hpaths, -, henv, -⟩ :=
        functionBody_ok hm.steady hs.coherent h
      exact ⟨hhead, ⟨s₄.env, (hbody s₃ hat _).1 ⟨s₄, h₄, horder, rfl⟩⟩, hpaths, henv⟩
    · rintro ⟨hhead, ⟨Γ'', hJ⟩, hpaths, rfl⟩
      obtain ⟨s₃, hat, hrun⟩ := exists_functionBody hm.steady hs.coherent hhead
      obtain ⟨s₄, h₄, horder, -⟩ := (hbody s₃ hat Γ'').2 hJ
      obtain ⟨s', h⟩ := hrun s₄ h₄ horder hpaths
      obtain ⟨-, -, -, -, -, -, -, hcoherent, henv, -, hfunction⟩ :=
        functionBody_ok hm.steady hs.coherent h
      exact ⟨s', h, ⟨hcoherent, fun c hc => hs.agrees c (hfunction ▸ hc)⟩, henv⟩

end Decides

/-! ## Statements without statements inside -/

section Simple

variable {s : CheckState} {p : Surroundings} {Γ Γ' : Env}

theorem fits_iff_hasType {t : Table} {e : Expr} {ty : Ty} :
    e.fits t ty = true ↔ ty ≠ .void ∧ e.HasType t.env ty := by
  rw [Expr.fits_iff_type?, Expr.type?_iff_hasType]

theorem lookup?_eq_none_iff {t : Table} {name : String} :
    t.lookup? name = none ↔ t.env.lookup? name = none := by
  rw [Table.lookup?_env, Option.map_eq_none_iff]

theorem declared?_entity {ty : Ty} {name : String} {span : Span} {symbol : Symbol}
    (h : Symbol.declared? ty name span = some symbol) :
    ty ≠ .void ∧ symbol.name = name ∧ symbol.entity = .variable ty := by
  cases ty <;> cases h <;> exact ⟨by decide, rfl, rfl⟩

theorem exists_declared? {ty : Ty} (h : ty ≠ .void) (name : String) (span : Span) :
    ∃ symbol, Symbol.declared? ty name span = some symbol := by
  cases ty <;> first | exact ⟨_, rfl⟩ | exact absurd rfl h

theorem exists_fold? {ty : Ty} (h : ty ≠ .void) (t : Table) (e : Expr) :
    ∃ folded, e.fold? t ty = some folded := by
  cases ty <;> first | exact ⟨_, rfl⟩ | exact absurd rfl h

/-- Binding a symbol keeps a state in order. -/
theorem inOrder_define {symbol : Symbol} {table : Table} (hs : s.InOrder)
    (hdefine : s.table.define symbol = .ok table) (events : Array Event) :
    CheckState.InOrder { s with table, events } ∧
      CheckState.env { s with table, events } = s.env.bind symbol.name symbol.entity :=
  ⟨⟨hs.coherent.define hdefine, hs.agrees⟩, hs.coherent.env_define hdefine⟩

theorem decides_needs (module : String) (span : Span) :
    Decides (emit (.needsSkipped module span.line)) fun p Γ Γ' =>
      Stmt.WellFormed p Γ (.needs module span) Γ' where
  steady := steadily_simple (.needs module span) rfl
  admits := by
    intro s hs Γ'
    constructor
    · rintro ⟨s', hm, -, rfl⟩
      rw [emit_ok.1 hm]
      exact .needs
    · rintro ⟨⟩
      exact ⟨_, emit_ok.2 rfl, ⟨hs.coherent, hs.agrees⟩, rfl⟩

theorem decides_error (text reason : String) (span : Span) :
    Decides (refuse (.unreadable text reason) span) fun p Γ Γ' =>
      Stmt.WellFormed p Γ (.error text reason span) Γ' where
  steady := steadily_simple (.error text reason span) rfl
  admits := by
    intro s hs Γ'
    constructor
    · rintro ⟨s', hm, -⟩
      exact absurd hm refuse_ok
    · rintro ⟨⟩

theorem decides_declare (name : String) (ty : Ty) (span : Span) :
    Decides (declaration name ty span) fun p Γ Γ' =>
      Stmt.WellFormed p Γ (.declare name ty span) Γ' where
  steady := steadily_simple (.declare name ty span) rfl
  admits := by
    intro s hs Γ'
    constructor
    · rintro ⟨s', hm, -, rfl⟩
      obtain ⟨hfresh, symbol, hsymbol, table, hdefine, rfl⟩ := declaration_ok.1 hm
      obtain ⟨hty, hname, hentity⟩ := declared?_entity hsymbol
      rw [(inOrder_define hs hdefine _).2, hname, hentity]
      exact .declare hty (lookup?_eq_none_iff.1 hfresh)
    · intro h
      cases h with
      | declare hty hfresh =>
        obtain ⟨symbol, hsymbol⟩ := exists_declared? hty name span
        obtain ⟨-, hname, hentity⟩ := declared?_entity hsymbol
        have hfresh' : s.table.env.lookup? symbol.name = none := hname ▸ hfresh
        obtain ⟨table, hdefine⟩ := hs.coherent.exists_define_of_fresh hfresh'
        obtain ⟨horder, henv⟩ := inOrder_define hs hdefine (s.events.push (.declare name ty))
        rw [hname, hentity] at henv
        refine ⟨_, declaration_ok.2 ?_, horder, henv⟩
        exact ⟨lookup?_eq_none_iff.2 hfresh, symbol, hsymbol, table, hdefine, rfl⟩

/-- Behind a definition its name is bound to a variable of the type. -/
theorem admits_bindValue {name : String} {ty : Ty} {e : Expr} {span : Span} (hs : s.InOrder)
    (hty : ty ≠ .void) (hfresh : s.env.lookup? name = none) :
    Admits (bindValue name ty e span) s Γ' ↔ Γ' = s.env.bind name (.variable ty) := by
  obtain ⟨s', hm, horder, henv⟩ : ∃ s', bindValue name ty e span s = .ok () s' ∧ s'.InOrder ∧
      s'.env = s.env.bind name (.variable ty) := by
    obtain ⟨folded, hfold⟩ := exists_fold? hty s.table e
    obtain ⟨table, hdefine⟩ := hs.coherent.exists_define_of_fresh
      (show s.table.env.lookup? (Symbol.initialized name span folded.value folded.known).name = none
        from hfresh)
    obtain ⟨horder, henv⟩ := inOrder_define hs hdefine _
    refine ⟨_, bindValue_ok.2 ⟨folded, hfold, table, hdefine, rfl⟩, horder, ?_⟩
    rw [henv, ← fold?_ty hfold]
    rfl
  constructor
  · rintro ⟨s'', hm', -, rfl⟩
    cases hm.symm.trans hm'
    exact henv
  · rintro rfl
    exact ⟨s', hm, horder, henv⟩

theorem decides_define (name : String) (ty : Ty) (e : Expr) (span : Span) :
    Decides (typedDefinition name ty e span) fun p Γ Γ' =>
      Stmt.WellFormed p Γ (.define name (some ty) e span) Γ' where
  steady := steadily_simple (.define name (some ty) e span) rfl
  admits := by
    intro s hs Γ'
    constructor
    · rintro ⟨s', hm, horder, henv⟩
      obtain ⟨hfresh, hfit, hbind⟩ := typedDefinition_ok.1 hm
      obtain ⟨hty, he⟩ := fits_iff_hasType.1 hfit
      rw [(admits_bindValue hs hty (lookup?_eq_none_iff.1 hfresh)).1 ⟨s', hbind, horder, henv⟩]
      exact .define hty (lookup?_eq_none_iff.1 hfresh) he
    · intro h
      cases h with
      | define hty hfresh he =>
        obtain ⟨s', hbind, horder, henv⟩ := (admits_bindValue hs hty hfresh).2 rfl
        exact ⟨s', typedDefinition_ok.2 ⟨lookup?_eq_none_iff.2 hfresh, fits_iff_hasType.2 ⟨hty, he⟩,
          hbind⟩, horder, henv⟩

theorem decides_infer (name : String) (e : Expr) (span : Span) :
    Decides (inferredDefinition name e span) fun p Γ Γ' =>
      Stmt.WellFormed p Γ (.define name none e span) Γ' where
  steady := steadily_simple (.define name none e span) rfl
  admits := by
    intro s hs Γ'
    constructor
    · rintro ⟨s', hm, horder, henv⟩
      obtain ⟨hfresh, ty, he, hty, hbind⟩ := inferredDefinition_ok.1 hm
      rw [(admits_bindValue hs hty (lookup?_eq_none_iff.1 hfresh)).1 ⟨s', hbind, horder, henv⟩]
      exact .infer hty (lookup?_eq_none_iff.1 hfresh) ((e.type?_iff_hasType _ _).1 he)
    · intro h
      cases h with
      | infer hty hfresh he =>
        obtain ⟨s', hbind, horder, henv⟩ := (admits_bindValue hs hty hfresh).2 rfl
        exact ⟨s', inferredDefinition_ok.2 ⟨lookup?_eq_none_iff.2 hfresh, _,
          (e.type?_iff_hasType _ _).2 he, hty, hbind⟩, horder, henv⟩

theorem decides_assign (name : String) (e : Expr) (span : Span) :
    Decides (assignment name e span) fun p Γ Γ' =>
      Stmt.WellFormed p Γ (.assign name e span) Γ' where
  steady := steadily_simple (.assign name e span) rfl
  admits := by
    intro s hs Γ'
    constructor
    · rintro ⟨s', hm, -, rfl⟩
      obtain ⟨v, hv, hfit, rfl⟩ := assignment_ok.1 hm
      exact .assign (Table.boundVariable?_env.1 ⟨v, hv, rfl⟩) (fits_iff_hasType.1 hfit).2
    · intro h
      cases h with
      | assign hlookup he =>
        obtain ⟨v, hv, rfl⟩ := Table.boundVariable?_env.2 hlookup
        exact ⟨s, assignment_ok.2 ⟨v, hv, fits_iff_hasType.2 ⟨v.value.ty_ne_void, he⟩, rfl⟩, hs, rfl⟩

theorem decides_expression (e : Expr) (span : Span) :
    Decides (expressionStatement e span) fun p Γ Γ' =>
      Stmt.WellFormed p Γ (.expression e span) Γ' where
  steady := steadily_simple (.expression e span) rfl
  admits := by
    intro s hs Γ'
    constructor
    · rintro ⟨s', hm, -, rfl⟩
      obtain ⟨⟨ty, hty⟩, rfl⟩ := expressionStatement_ok.1 hm
      exact .expression ((e.type?_iff_hasType _ _).1 hty)
    · intro h
      cases h with
      | expression he =>
        exact ⟨s, expressionStatement_ok.2 ⟨⟨_, (e.type?_iff_hasType _ _).2 he⟩, rfl⟩, hs, rfl⟩

/-- A return agrees with the declared type if it is well formed where that is the type
of the function around it. -/
theorem agrees_iff_wellFormed {value : Option Expr} {span : Span} {ty : Ty} {t : Table}
    (hp : p.returns = some ty) :
    Returns.agrees t ty value = true ↔ Stmt.WellFormed p t.env (.ret value span) t.env := by
  cases value with
  | none =>
    simp only [Returns.agrees, beq_iff_eq]
    constructor
    · rintro rfl
      exact .ret hp
    · intro h
      cases h with
      | ret hvoid => exact Option.some.inj (hp.symm.trans hvoid)
  | some e =>
    simp only [Returns.agrees, Bool.and_eq_true, bne_iff_ne, fits_iff_hasType]
    constructor
    · rintro ⟨hty, -, he⟩
      exact .retValue hp hty he
    · intro h
      cases h with
      | retValue hp' hty he =>
        cases hp.symm.trans hp'
        exact ⟨hty, hty, he⟩

/-- What agrees with a declared type resolves. -/
theorem resolve_of_agrees {value : Option Expr} {ty : Ty} {t : Table}
    (h : Returns.agrees t ty value = true) (e : Expr) (he : value = some e) :
    e.resolve t = .ok () := by
  subst he
  simp only [Returns.agrees, Bool.and_eq_true] at h
  exact Expr.resolve_of_fits h.2

/-- A return that disagrees does not stop the walk, but the state behind it is not in
order any more. -/
theorem decides_ret (value : Option Expr) (span : Span) :
    Decides (ret value span) fun p Γ Γ' => Stmt.WellFormed p Γ (.ret value span) Γ' where
  steady := steadily_simple (.ret value span) rfl
  admits := by
    intro s hs Γ'
    constructor
    · rintro ⟨s', hm, horder, rfl⟩
      obtain ⟨c, hc, -, rfl⟩ := ret_ok.1 hm
      -- the account behind the return is in order, so this return agreed as well
      have hagrees := (Returns.inspect_mismatch.1 (horder.agrees _ rfl)).2
      have hreturns : s.surroundings.returns = some c.returns.declared := by
        simp only [CheckState.surroundings, hc, Option.map_some]
      exact (agrees_iff_wellFormed hreturns).1 hagrees
    · intro h
      obtain ⟨ty, hreturns, rfl⟩ : ∃ ty, s.surroundings.returns = some ty ∧ Γ' = s.env := by
        cases h <;> exact ⟨_, by assumption, rfl⟩
      obtain ⟨c, hc, rfl⟩ := Option.map_eq_some_iff.1 hreturns
      have hagrees := (agrees_iff_wellFormed hreturns).2 h
      refine ⟨_, ret_ok.2 ⟨c, hc, resolve_of_agrees hagrees, rfl⟩, ⟨hs.coherent, ?_⟩, rfl⟩
      intro c' hc'
      cases hc'
      exact Returns.inspect_mismatch.2 ⟨hs.agrees c hc, hagrees⟩

theorem decides_breakLoop (span : Span) :
    Decides (breakLoop span) fun p Γ Γ' => Stmt.WellFormed p Γ (.breakLoop span) Γ' where
  steady := steadily_simple (.breakLoop span) rfl
  admits := by
    intro s hs Γ'
    constructor
    · rintro ⟨s', hm, -, rfl⟩
      obtain ⟨loop, outer, hloops, rfl⟩ := breakLoop_ok.1 hm
      refine .breakLoop ?_
      simp only [CheckState.surroundings, hloops]
      rfl
    · intro h
      cases h with
      | breakLoop hloop =>
        cases hloops : s.loops with
        | nil => simp [CheckState.surroundings, hloops] at hloop
        | cons loop outer =>
          exact ⟨_, breakLoop_ok.2 ⟨loop, outer, hloops, rfl⟩, ⟨hs.coherent, hs.agrees⟩, rfl⟩

theorem decides_continueLoop (span : Span) :
    Decides (continueLoop span) fun p Γ Γ' => Stmt.WellFormed p Γ (.continueLoop span) Γ' where
  steady := steadily_simple (.continueLoop span) rfl
  admits := by
    intro s hs Γ'
    constructor
    · rintro ⟨s', hm, -, rfl⟩
      obtain ⟨hloops, rfl⟩ := continueLoop_ok.1 hm
      exact .continueLoop (by simpa [CheckState.surroundings] using hloops)
    · intro h
      cases h with
      | continueLoop hloop =>
        have hloops : s.loops ≠ [] := by simpa [CheckState.surroundings] using hloop
        exact ⟨s, continueLoop_ok.2 ⟨hloops, rfl⟩, hs, rfl⟩

end Simple

/-! ## Conditions -/

theorem hasType_bool_iff {t : Table} {e : Expr} :
    e.fits t .bool = true ↔ e.HasType t.env .bool := by
  rw [fits_iff_hasType]
  exact and_iff_right (by decide)

theorem decides_condition (construct : Construct) (e : Expr) (span : Span) :
    Decides (condition construct e span) fun _ Γ Γ' => e.HasType Γ .bool ∧ Γ' = Γ := by
  apply Decides.test
  · intro s s' _
    rw [condition_ok, hasType_bool_iff]
    exact Iff.rfl
  · exact steadily_of_keeps (steady_walk.condition construct e span)

theorem decides_conditions (branches : List Branch) :
    Decides (conditions branches) fun _ Γ Γ' =>
      (∀ b ∈ branches, b.condition.HasType Γ .bool) ∧ Γ' = Γ := by
  apply Decides.test
  · intro s s' _
    simp only [conditions_ok, hasType_bool_iff]
    exact Iff.rfl
  · exact steadily_of_keeps (steady_walk.conditions branches)

theorem decides_done : Decides (pure ()) fun _ Γ Γ' => Γ' = Γ :=
  (Decides.test (P := fun _ _ => True) (fun s s' _ => by simp)
    (steadily_of_keeps steady_walk.done)).congr fun _ _ _ => iff_of_eq (true_and _)

end Check

/-! ## All statements -/

open Check

mutual

/-- The walk over a statement without functions decides whether it is well formed. -/
theorem Stmt.check_decides : (stmt : Stmt) → stmt.functionFree = true →
    Decides stmt.check fun p Γ Γ' => Stmt.WellFormed p Γ stmt Γ'
  | .needs module span, _ => by
    rw [Stmt.check]
    exact decides_needs module span
  | .declare name ty span, _ => by
    rw [Stmt.check]
    exact decides_declare name ty span
  | .define name (some ty) value span, _ => by
    rw [Stmt.check]
    exact decides_define name ty value span
  | .define name none value span, _ => by
    rw [Stmt.check]
    exact decides_infer name value span
  | .assign name value span, _ => by
    rw [Stmt.check]
    exact decides_assign name value span
  | .ret value span, _ => by
    rw [Stmt.check]
    exact decides_ret value span
  | .breakLoop span, _ => by
    rw [Stmt.check]
    exact decides_breakLoop span
  | .continueLoop span, _ => by
    rw [Stmt.check]
    exact decides_continueLoop span
  | .expression value span, _ => by
    rw [Stmt.check]
    exact decides_expression value span
  | .error text reason span, _ => by
    rw [Stmt.check]
    exact decides_error text reason span
  | .function .., h => by cases h
  | .block body, h => by
    rw [Stmt.check]
    refine (body.check_decides h).congr fun p Γ Γ' => ⟨?_, ?_⟩
    · rintro ⟨hbody, rfl⟩
      exact .block hbody
    · intro hblock
      cases hblock with
      | block hbody => exact ⟨hbody, rfl⟩
  | .whileLoop test body span, h => by
    rw [Stmt.check_whileLoop]
    refine ((decides_condition .whileLoop test span).seq (body.check_decides h).loop).congr
      fun p Γ Γ' => ⟨?_, ?_⟩
    · rintro ⟨_, ⟨htest, rfl⟩, hbody, rfl⟩
      exact .whileLoop htest hbody
    · intro hloop
      cases hloop with
      | whileLoop htest hbody => exact ⟨Γ, ⟨htest, rfl⟩, hbody, rfl⟩
  | .ifChain branches none span, h => by
    rw [Stmt.check]
    refine ((decides_conditions branches).seq
      ((checkBranches_decides branches h).seq decides_done)).congr fun p Γ Γ' => ⟨?_, ?_⟩
    · rintro ⟨_, ⟨htests, rfl⟩, _, ⟨hbodies, rfl⟩, rfl⟩
      exact .ifChain htests hbodies (by simp)
    · intro hchain
      cases hchain with
      | ifChain htests hbodies _ => exact ⟨Γ, ⟨htests, rfl⟩, Γ, ⟨hbodies, rfl⟩, rfl⟩
  | .ifChain branches (some otherwise) span, h => by
    rw [Stmt.functionFree, Bool.and_eq_true] at h
    rw [Stmt.check]
    refine ((decides_conditions branches).seq
      ((checkBranches_decides branches h.1).seq (otherwise.check_decides h.2))).congr
      fun p Γ Γ' => ⟨?_, ?_⟩
    · rintro ⟨_, ⟨htests, rfl⟩, _, ⟨hbodies, rfl⟩, hotherwise, rfl⟩
      exact .ifChain htests hbodies (by rintro _ ⟨⟩; exact hotherwise)
    · intro hchain
      cases hchain with
      | ifChain htests hbodies hotherwise =>
        exact ⟨Γ, ⟨htests, rfl⟩, Γ, ⟨hbodies, rfl⟩, hotherwise _ rfl, rfl⟩

theorem Block.check_decides : (body : Block) → body.functionFree = true →
    Decides body.check fun p Γ Γ' => Block.WellFormed p Γ body ∧ Γ' = Γ
  | .mk statements span, h => by
    rw [Block.check_eq]
    refine (checkAll_decides statements h).block.congr fun p Γ Γ' => and_congr_left fun _ => ?_
    constructor
    · rintro ⟨Γ'', hall⟩
      exact .mk hall
    · rintro ⟨hall⟩
      exact ⟨_, hall⟩

theorem checkAll_decides : (statements : List Stmt) → allFunctionFree statements = true →
    Decides (checkAll statements) fun p Γ Γ' => WellFormedAll p Γ statements Γ'
  | [], _ => by
    rw [checkAll]
    exact decides_done.congr fun p Γ Γ' => wellFormedAll_nil.symm
  | stmt :: statements, h => by
    rw [allFunctionFree, Bool.and_eq_true] at h
    rw [checkAll]
    exact ((stmt.check_decides h.1).seq (checkAll_decides statements h.2)).congr
      fun p Γ Γ' => wellFormedAll_cons.symm

theorem checkBranches_decides : (branches : List Branch) → branchesFunctionFree branches = true →
    Decides (checkBranches branches) fun p Γ Γ' =>
      (∀ b ∈ branches, Block.WellFormed p Γ b.body) ∧ Γ' = Γ
  | [], _ => by
    rw [checkBranches]
    exact decides_done.congr fun p Γ Γ' => by simp
  | .mk _ body _ :: branches, h => by
    rw [branchesFunctionFree, Bool.and_eq_true] at h
    rw [checkBranches]
    refine ((body.check_decides h.1).seq (checkBranches_decides branches h.2)).congr
      fun p Γ Γ' => ⟨?_, ?_⟩
    · rintro ⟨_, ⟨hbody, rfl⟩, hbodies, rfl⟩
      exact ⟨List.forall_mem_cons.2 ⟨hbody, hbodies⟩, rfl⟩
    · rintro ⟨hall, rfl⟩
      obtain ⟨hbody, hbodies⟩ := List.forall_mem_cons.1 hall
      exact ⟨Γ', ⟨hbody, rfl⟩, hbodies, rfl⟩

end

/-! ## Programs -/

theorem Stmt.wellFormed_function {p : Surroundings} {Γ Γ' : Env} {name : String}
    {params : List Param} {returns : Option Ty} {body : Block} {span : Span} :
    Stmt.WellFormed p Γ (.function name params returns body span) Γ' ↔
      HeadWellFormed Γ name params ∧
        (∃ Γ'', WellFormedAll (.function (returns.getD .void))
          ((Γ.aroundBody name params returns).enter.bindParams params) body.statements Γ'') ∧
        (returns.getD .void ≠ .void → body.alwaysReturns = true) ∧
        Γ' = Γ.bind name (.function (.written params returns)) := by
  constructor
  · intro h
    cases h with
    | function hbuiltin hfresh htyped hdistinct hbody hpaths =>
      exact ⟨⟨hbuiltin, hfresh, htyped, hdistinct⟩, ⟨_, hbody⟩, hpaths, rfl⟩
  · rintro ⟨hhead, ⟨Γ'', hbody⟩, hpaths, rfl⟩
    exact .function hhead.notBuiltin hhead.fresh hhead.typed hhead.distinct hbody hpaths

/-- A statement of the program itself decides whether it is well formed, outside of
loops: a function would let its body see a loop around it. -/
theorem Stmt.check_decides_top {stmt : Stmt} (h : stmt.functionsAtTop = true) :
    ∃ J, Decides stmt.check J ∧
      ∀ p Γ Γ', p.inLoop = false → (J p Γ Γ' ↔ Stmt.WellFormed p Γ stmt Γ') := by
  cases stmt with
  | function name params returns body span =>
    obtain ⟨statements, bodySpan⟩ := body
    rw [Stmt.check_function]
    refine ⟨_, (checkAll_decides statements h).function, ?_⟩
    intro p Γ Γ' hp
    rw [Stmt.wellFormed_function]
    have hbody : { p with returns := some (returns.getD .void) } =
        Surroundings.function (returns.getD .void) := by
      rw [Surroundings.function, ← hp]
    rw [hbody]
    exact Iff.rfl
  | _ => exact ⟨_, Stmt.check_decides _ h, fun _ _ _ _ => Iff.rfl⟩

theorem checkAll_decides_top (statements : List Stmt)
    (h : statements.all Stmt.functionsAtTop = true) :
    ∃ J, Decides (checkAll statements) J ∧
      ∀ p Γ Γ', p.inLoop = false → (J p Γ Γ' ↔ WellFormedAll p Γ statements Γ') := by
  induction statements with
  | nil => exact ⟨_, checkAll_decides [] rfl, fun _ _ _ _ => Iff.rfl⟩
  | cons stmt statements ih =>
    rw [List.all_cons, Bool.and_eq_true] at h
    obtain ⟨J, hstmt, hJ⟩ := Stmt.check_decides_top h.1
    obtain ⟨K, hrest, hK⟩ := ih h.2
    rw [checkAll]
    refine ⟨_, hstmt.seq hrest, ?_⟩
    intro p Γ Γ'' hp
    simp only [wellFormedAll_cons, hJ _ _ _ hp, hK _ _ _ hp]

namespace Program

variable {program : Program}

theorem analyze_ok_iff_check :
    (∃ t, program.analyze = .ok t) ↔ ∃ s', program.check (.start .empty) = .ok () s' := by
  simp only [Program.analyze, Program.outcome, Program.checkFrom]
  cases program.check (.start .empty) with
  | ok u s' => simp
  | error d s' => simp

/-- The checker accepts a program whose functions are defined by the statements of the
program themselves if and only if the program is well formed. -/
theorem analyze_ok_iff_wellFormed (program : Program) (h : program.functionsAtTop = true) :
    (∃ t, program.analyze = .ok t) ↔ program.WellFormed := by
  obtain ⟨J, hdecides, hJ⟩ := checkAll_decides_top program.statements h
  have hstart : CheckState.InOrder (.start .empty) :=
    ⟨Table.coherent_empty, fun c hc => by cases hc⟩
  have henv : CheckState.env (.start .empty) = [Frame.empty] := Table.env_empty
  rw [analyze_ok_iff_check, Program.WellFormed]
  constructor
  · rintro ⟨s', h'⟩
    obtain ⟨s₁, h₁, -⟩ := check_ok.1 h'
    have hsteady := hdecides.steady _ s₁ h₁ hstart.coherent
    have hagrees : s₁.Agrees := by
      -- outside of functions there is no account that could disagree
      intro c hc
      have hdeclared := hsteady.declared
      simp [CheckState.surroundings, hc, CheckState.start] at hdeclared
    have hJs := (hdecides.admits _ hstart s₁.env).1 ⟨s₁, h₁, ⟨hsteady.coherent, hagrees⟩, rfl⟩
    exact ⟨s₁.env, henv ▸ (hJ _ _ _ rfl).1 hJs⟩
  · rintro ⟨Γ, hall⟩
    obtain ⟨s₁, h₁, -⟩ := (hdecides.admits _ hstart Γ).2 ((hJ _ _ _ rfl).2 (henv ▸ hall))
    exact ⟨_, check_ok.2 ⟨s₁, h₁, rfl⟩⟩

/-- A function, and a loop that calls it until it is left. -/
def doubling (span : Span) : Program :=
  ⟨[.function "twice" [⟨"k", .int, span⟩] (some .int)
      (.mk [.ret (some (.binary (.ident "k" span) .add (.ident "k" span) span)) span] span) span,
    .define "n" none (.literal (.int 1) span) span,
    .whileLoop (.literal (.bool true) span)
      (.mk [.assign "n" (.call "twice" [.ident "n" span] span) span,
        .ifChain [.mk (.binary (.ident "n" span) .greater (.literal (.int 8) span) span)
          (.mk [.breakLoop span] span) span] none span] span) span]⟩

/-- The loop is accepted, so the program is well formed. -/
theorem analyze_ok_iff_wellFormed_doubling :
    (doubling default).functionsAtTop = true ∧ (doubling default).WellFormed := by
  have hok : ∃ t, (doubling default).analyze = .ok t := by
    have h : (doubling default).analyze.toBool = true := by decide +kernel
    cases hanalyze : (doubling default).analyze with
    | ok t => exact ⟨t, rfl⟩
    | error d => simp [hanalyze, Except.toBool] at h
  exact ⟨rfl, (analyze_ok_iff_wellFormed (doubling default) rfl).1 hok⟩

end Program

end Slate
