-- SUMMARY: What can be seen where the checker binds a name, and which of its bindings can fail.
import Slate.Proofs.Check.Pointing
import Slate.Proofs.Check.Record
import Slate.Proofs.Scope.Stack

/-!
# Bindings

A variable or a function is bound only where its name cannot be seen, a function without
a written return type even after its body. So binding it never fails, and of two
bindings of one name the later is never made while the scope of the earlier is open. A
parameter is bound without a look; all that is known there is that its scope holds the
parameters before it and nothing else, so that it fails exactly if one of them has its
name.
-/

namespace Slate

/-! ## A binding by itself -/

def Role.isParameter : Role → Bool
  | .parameter .. => true
  | _ => false

/-- What is known of the table where a name is bound. -/
def Role.Suits (t : Table) (name : String) : Role → Prop
  | .var | .function => t.lookup? name = none
  | .parameter _ before => ∃ scope, t.currentScope? = some scope ∧ scope.symbols = before

namespace Table

variable {t t' : Table} {scope : Scope}

/-- A scope that can be seen stands in the table at its number. -/
theorem Coherent.scopes_of_visible (h : t.Coherent) (hscope : scope ∈ t.visible) :
    t.scopes[scope.id]? = some scope := by
  have henclosing : ∀ k, scope ∈ enclosing t.scopes k → t.scopes[scope.id]? = some scope := by
    -- on the number of the scope: those around it have smaller ones
    intro k
    induction k using Nat.strongRecOn with
    | ind k ih =>
      intro hmem
      rw [enclosing] at hmem
      cases hget : t.scopes[k]? with
      | none => simp [hget] at hmem
      | some top =>
        have htop := h.scopes k top hget
        obtain ⟨hparent, -⟩ | ⟨p, hparent, hp⟩ := htop.parent
        · simp only [hget, hparent, List.mem_singleton] at hmem
          rw [hmem, htop.id, hget]
        · simp only [hget, hparent, if_pos hp, List.mem_cons] at hmem
          rcases hmem with rfl | hmem
          · rw [htop.id, hget]
          · exact ih p hp hmem
  exact henclosing _ hscope

/-- The name of a symbol in a scope that can be seen stands for something. -/
theorem Coherent.lookup?_of_visible {symbol : Symbol} (h : t.Coherent)
    (hscope : scope ∈ t.visible) (hsymbol : symbol ∈ scope.symbols) :
    t.lookup? symbol.name ≠ none := by
  rw [lookup?_eq]
  intro hnone
  have hcoherent := (h.scopes _ _ (h.scopes_of_visible hscope)).toCoherent
  have hget := hcoherent.get?_eq_some.2 ⟨hsymbol, rfl⟩
  rw [List.findSome?_eq_none_iff.1 hnone scope hscope] at hget
  cases hget

theorem enter_grows (t : Table) (block : Option Location) : t.Grows (t.enter block) :=
  grows_of_outside fun _ hi => List.getElem?_append_left hi

end Table

namespace Binding

variable {a b : Binding} {t t' : Table}

/-- What is so where the checker makes a binding. -/
structure Sound (b : Binding) : Prop where
  coherent : b.table.Coherent
  suits : b.role.Suits b.table b.symbol.name

/-- The symbol is in the scope it was bound in. -/
def Held (b : Binding) (t : Table) : Prop :=
  ∃ scope, t.scopes[b.table.current]? = some scope ∧ b.symbol ∈ scope.symbols

theorem Held.grows (h : b.Held t) (hgrows : t.Grows t') : b.Held t' := by
  obtain ⟨scope, hscope, hsymbol⟩ := h
  obtain ⟨scope', hscope', hgrown⟩ := hgrows.kept _ scope hscope
  exact ⟨scope', hscope', hgrown.symbols.subset hsymbol⟩

/-- A binding that is made holds. -/
theorem Sound.held (h : b.Sound) (hdefine : b.table.define b.symbol = .ok t) : b.Held t := by
  obtain ⟨scope, hscope, -, rfl⟩ := h.coherent.define_eq_ok.1 hdefine
  refine ⟨scope.push b.symbol, ?_, by simp [Scope.push]⟩
  rw [List.getElem?_modify_eq, show b.table.scopes[b.table.current]? = some scope from hscope]
  rfl

theorem Sound.unseen (h : b.Sound) (hrole : b.role.isParameter = false) :
    b.table.lookup? b.symbol.name = none := by
  have hsuits := h.suits
  cases hb : b.role with
  | parameter => rw [hb] at hrole; cases hrole
  | var | function => rw [hb] at hsuits; exact hsuits

/-- Only a parameter that another one of the same function has the name of cannot be bound. -/
theorem Sound.define_fails (h : b.Sound) :
    (∃ t, b.table.define b.symbol = .ok t) ∨
      ∃ function before, b.role = .parameter function before ∧
        b.symbol.name ∈ before.map Symbol.name := by
  cases hparameter : b.role.isParameter with
  | false => exact Or.inl (Table.exists_define_of_unseen (h.unseen hparameter))
  | true =>
    have hsuits := h.suits
    cases hb : b.role with
    | var | function => rw [hb] at hparameter; cases hparameter
    | parameter function before =>
      rw [hb] at hsuits
      obtain ⟨scope, hscope, rfl⟩ := hsuits
      have hcoherent := (h.coherent.scopes _ _ hscope).toCoherent
      cases hget : scope.get? b.symbol.name with
      | none =>
        exact Or.inl ⟨_, h.coherent.define_eq_ok.2 ⟨scope, hscope, hget, rfl⟩⟩
      | some existing =>
        obtain ⟨hmem, hname⟩ := hcoherent.get?_eq_some.1 hget
        exact Or.inr ⟨function, _, rfl, List.mem_map.2 ⟨existing, hmem, hname⟩⟩

/-- A name that a variable or function gets is bound in no scope that can be seen there. -/
theorem Sound.apart (h : b.Sound) (hrole : b.role.isParameter = false) (ha : a.Held b.table)
    (hname : a.symbol.name = b.symbol.name) :
    a.table.current ∉ b.table.visible.map Scope.id := by
  intro hopen
  obtain ⟨scope, hscope, hid⟩ := List.mem_map.1 hopen
  obtain ⟨holder, hholder, hsymbol⟩ := ha
  have hget := h.coherent.scopes_of_visible hscope
  rw [hid, hholder] at hget
  cases hget
  exact h.coherent.lookup?_of_visible hscope hsymbol (hname ▸ h.unseen hrole)

end Binding

/-! ## The bindings of a walk -/

/-- The bindings recorded by the time of the table `t` explain it, if the walk started from
`origin`. -/
structure Explains (origin : Table) (bindings : List Binding) (t : Table) : Prop where
  sound : ∀ b ∈ bindings, b.Sound
  held : bindings.Pairwise fun a b => a.Held b.table
  complete : ∀ (k : Nat) (scope : Scope) (symbol : Symbol), t.scopes[k]? = some scope →
    symbol ∈ scope.symbols →
      (∃ old : Scope, origin.scopes[k]? = some old ∧ symbol ∈ old.symbols) ∨
        ∃ b ∈ bindings, b.table.current = k ∧ b.symbol = symbol

/-- The state of a recorded walk that has not failed. -/
structure Recorded.InStep (origin : Table) (r : Recorded) : Prop
    extends Explains origin r.bindings r.state.table where
  coherent : r.state.table.Coherent
  made : ∀ b ∈ r.bindings, b.Held r.state.table

namespace Record

variable {α β : Type} {origin : Table} {r r' : Recorded}

open Recorded (InStep)

/-- Run from the state, the part of the walk keeps the record in step and stays in its
scope, or fails with a record that still explains the table. -/
def KeepsStepAt (origin : Table) (m : RecordM α) (r : Recorded) : Prop :=
  wp m (fun _ r' => InStep origin r' ∧ r.state.table.Stays r'.state.table)
    (fun _ r' => Explains origin r'.bindings r'.state.table) r

def KeepsStep (m : RecordM α) : Prop :=
  ∀ origin r, InStep origin r → KeepsStepAt origin m r

variable {m : RecordM α} {f : α → RecordM β}

theorem keepsStepAt_bind (hm : wp m
      (fun a r' => r.state.table.Stays r'.state.table ∧ KeepsStepAt origin (f a) r')
      (fun _ r' => Explains origin r'.bindings r'.state.table) r) :
    KeepsStepAt origin (m >>= f) r := by
  rw [KeepsStepAt, wp_bind]
  apply wp_mono hm
  · rintro a r₁ ⟨hstays, hf⟩
    apply wp_mono hf
    · rintro _ r₂ ⟨hr₂, hstays'⟩
      exact ⟨hr₂, hstays.trans hstays'⟩
    · intro d r₂ h
      exact h
  · intro d r₁ h
    exact h

theorem KeepsStep.bind (hm : KeepsStep m) (hf : ∀ a, KeepsStep (f a)) : KeepsStep (m >>= f) := by
  intro origin r hr
  apply keepsStepAt_bind
  apply wp_mono (hm origin r hr)
  · rintro a r₁ ⟨hr₁, hstays⟩
    exact ⟨hstays, hf a origin r₁ hr₁⟩
  · intro d r₁ h
    exact h

theorem keepsStep_pure (a : α) : KeepsStep (pure a) := fun _ r hr => ⟨hr, .refl r.state.table⟩

theorem wp_plain {m : CheckM α} {Q : α → Recorded → Prop} {F : Diagnostic → Recorded → Prop} :
    wp (plain m) Q F r ↔
      wp m (fun a state => Q a { r with state }) (fun d state => F d { r with state }) r.state := by
  unfold wp plain
  cases m r.state <;> exact Iff.rfl

/-- The state but for its table has no say. -/
theorem inStep_of_table_eq (hr : InStep origin r) (htable : r'.state.table = r.state.table)
    (hbindings : r'.bindings = r.bindings) : InStep origin r' where
  sound := hbindings ▸ hr.sound
  held := hbindings ▸ hr.held
  complete := by
    rw [htable, hbindings]
    exact hr.complete
  coherent := htable ▸ hr.coherent
  made := by
    rw [htable, hbindings]
    exact hr.made

/-- A part of the walk that leaves the table alone. -/
theorem keepsStep_plain {m : CheckM α}
    (hm : ∀ s, wp m (fun _ s' => s'.table = s.table) (fun _ s' => s'.table = s.table) s) :
    KeepsStep (plain m) := by
  intro origin r hr
  rw [KeepsStepAt, wp_plain]
  apply wp_mono (hm r.state)
  · intro a s' htable
    refine ⟨inStep_of_table_eq hr htable rfl, ?_⟩
    rw [htable]
    exact .refl r.state.table
  · intro d s' htable
    have hr' : InStep origin { r with state := s' } := inStep_of_table_eq hr htable rfl
    exact hr'.toExplains

theorem keepsStep_looks {P : Span → Prop} {Q : Table → α → Prop} {m : CheckM α}
    (hm : Check.Looks P Q m) : KeepsStep (plain m) := by
  refine keepsStep_plain fun s => wp_mono (hm s) ?_ ?_
  · rintro a s' ⟨⟨events, rfl⟩, -⟩
    rfl
  · rintro d s' ⟨⟨events, rfl⟩, -⟩
    rfl

theorem keepsStep_condition (construct : Construct) (e : Expr) (span : Span) :
    KeepsStep (plain (Check.condition construct e span)) :=
  keepsStep_looks (P := fun _ => True) (Check.looks_condition (fun _ _ => trivial) trivial)

theorem keepsStep_conditions (branches : List Branch) :
    KeepsStep (plain (Check.conditions branches)) :=
  keepsStep_looks (P := fun _ => True) (Check.looks_conditions fun _ _ => trivial)

theorem keepsStep_reportLoop (loop : Option LoopContext) :
    KeepsStep (plain (Check.reportLoop loop)) := by
  cases loop with
  | none => exact keepsStep_plain fun _ => rfl
  | some loop => exact keepsStep_plain fun _ => rfl

/-! ## Binding -/

/-- A binding is recorded whether it can be made or not, and is made if it can be. -/
theorem wp_bindOne (role : Role) {symbol : Symbol} (hr : InStep origin r)
    (hsuits : role.Suits r.state.table symbol.name) :
    wp (bind role symbol)
      (fun _ r' => InStep origin r' ∧ r.state.table.define symbol = .ok r'.state.table)
      (fun _ r' => Explains origin r'.bindings r'.state.table) r := by
  have hsound : Binding.Sound ⟨r.state.table, role, symbol⟩ :=
    { coherent := hr.coherent, suits := hsuits }
  have hexplains : Explains origin (r.bindings ++ [⟨r.state.table, role, symbol⟩])
      r.state.table := by
    refine { sound := ?_, held := ?_, complete := ?_ }
    · rw [List.forall_mem_append]
      exact ⟨hr.sound, by simpa using hsound⟩
    · rw [List.pairwise_append]
      refine ⟨hr.held, List.pairwise_singleton _ _, ?_⟩
      intro a ha b hb
      obtain rfl := List.mem_singleton.1 hb
      exact hr.made a ha
    · intro k scope other hscope hother
      rcases hr.complete k scope other hscope hother with hold | ⟨b, hb, hk, hsymbol⟩
      · exact Or.inl hold
      · exact Or.inr ⟨b, List.mem_append_left _ hb, hk, hsymbol⟩
  show wp (plain (Check.define symbol)) _ _
    { r with bindings := r.bindings ++ [⟨r.state.table, role, symbol⟩] }
  rw [wp_plain, Check.wp_define]
  constructor
  · intro table hdefine
    refine ⟨{ sound := hexplains.sound, held := hexplains.held, complete := ?_
              coherent := hr.coherent.define hdefine, made := ?_ }, hdefine⟩
    · -- the only symbol that is new is the one just recorded
      intro k scope other hscope hother
      obtain ⟨-, -, -, rfl⟩ := hr.coherent.define_eq_ok.1 hdefine
      rw [List.getElem?_modify, Option.map_eq_map, Option.map_eq_some_iff] at hscope
      obtain ⟨old, hold, rfl⟩ := hscope
      by_cases hk : r.state.table.current = k
      · rw [if_pos hk, Scope.push, List.mem_append, List.mem_singleton] at hother
        rcases hother with hother | rfl
        · exact hexplains.complete k old other hold hother
        · exact Or.inr ⟨_, List.mem_append_right _ (List.mem_singleton.2 rfl), hk, rfl⟩
      · rw [if_neg hk] at hother
        exact hexplains.complete k old other hold hother
    · rw [List.forall_mem_append]
      constructor
      · intro b hb
        exact (hr.made b hb).grows (Table.stays_define hdefine).toGrows
      · intro b hb
        obtain rfl := List.mem_singleton.1 hb
        exact hsound.held hdefine
  · intro d _
    exact hexplains

theorem keepsStepAt_bindOne (role : Role) {symbol : Symbol} (hr : InStep origin r)
    (hsuits : role.Suits r.state.table symbol.name) :
    KeepsStepAt origin (bind role symbol) r := by
  apply wp_mono (wp_bindOne role hr hsuits)
  · rintro _ r' ⟨hr', hdefine⟩
    exact ⟨hr', Table.stays_define hdefine⟩
  · intro d r' h
    exact h

/-- Parameters are bound one behind the other, and their scope holds nothing else. -/
theorem keepsStepAt_parameters {function : String} {before symbols : List Symbol}
    (hr : InStep origin r)
    (hbefore : ∃ scope, r.state.table.currentScope? = some scope ∧ scope.symbols = before) :
    KeepsStepAt origin (parameters function before symbols) r := by
  induction symbols generalizing before r with
  | nil => exact ⟨hr, .refl r.state.table⟩
  | cons symbol symbols ih =>
    rw [parameters]
    apply keepsStepAt_bind
    apply wp_mono (wp_bindOne (.parameter function before) hr hbefore)
    · rintro _ r₁ ⟨hr₁, hdefine⟩
      refine ⟨Table.stays_define hdefine, ih hr₁ ?_⟩
      obtain ⟨scope, hscope, rfl⟩ := hbefore
      obtain ⟨_, -, -, htable⟩ := hr.coherent.define_eq_ok.1 hdefine
      refine ⟨scope.push symbol, ?_, rfl⟩
      rw [htable, Table.currentScope?, List.getElem?_modify_eq,
        show r.state.table.scopes[r.state.table.current]? = some scope from hscope]
      rfl
    · intro d r₁ h
      exact h

theorem keepsStep_simple {stmt : Stmt} (h : stmt.isSimple = true) : KeepsStep stmt.record := by
  rw [Stmt.record_simple h]
  unfold simple
  split
  · next m hintroduction =>
    intro origin r hr
    apply keepsStepAt_bind
    rw [wp_plain]
    have hlook := Check.looks_introduction (P := fun _ => True) hintroduction fun _ _ => trivial
    apply wp_mono (hlook r.state)
    · rintro symbol s' ⟨⟨events, rfl⟩, hfresh⟩
      refine ⟨.refl r.state.table, keepsStepAt_bindOne .var ?_ hfresh.1⟩
      exact inStep_of_table_eq hr rfl rfl
    · rintro d s' ⟨⟨events, rfl⟩, -⟩
      exact hr.toExplains
  · next hintroduction =>
    have hmove := Stmt.makesMove (P := fun _ => True) h hintroduction fun _ _ => trivial
    refine keepsStep_plain fun s => wp_mono (hmove s) ?_ ?_
    · intro _ s' hmoves
      exact hmoves.table_eq
    · rintro d s' ⟨⟨events, rfl⟩, -⟩
      rfl

/-! ## Constructions -/

theorem inStep_enter {block : Option Location} (hr : InStep origin r)
    (htable : r'.state.table = r.state.table.enter block) (hbindings : r'.bindings = r.bindings) :
    InStep origin r' where
  sound := hbindings ▸ hr.sound
  held := hbindings ▸ hr.held
  complete := by
    intro k scope symbol hscope hsymbol
    rw [hbindings]
    rw [htable, Table.enter, List.getElem?_append] at hscope
    split at hscope
    · exact hr.complete k scope symbol hscope hsymbol
    · -- the entered scope is empty
      rw [List.getElem?_singleton] at hscope
      split at hscope
      · cases hscope
        cases hsymbol
      · cases hscope
  coherent := htable ▸ hr.coherent.enter block
  made := by
    rw [htable, hbindings]
    exact fun b hb => (hr.made b hb).grows (Table.enter_grows _ _)

/-- A scope that was entered is left again, and behind it the same can be seen as before it. -/
theorem keepsStepAt_inScope {start : Location} (hr : InStep origin r)
    (hm : ∀ r₁, InStep origin r₁ → r₁.state.table = r.state.table.enter (some start) →
      KeepsStepAt origin m r₁)
    (hf : ∀ a r₂, InStep origin r₂ → r₂.state.table.visible = r.state.table.visible →
      KeepsStepAt origin (f a) r₂) :
    KeepsStepAt origin (do plain (Check.enterBlock start); let a ← m; plain Check.exitBlock; f a)
      r := by
  have hr₁ : InStep origin { r with state := r.state.entered start } := inStep_enter hr rfl rfl
  rw [KeepsStepAt, wp_bind, wp_plain, Check.wp_enterBlock, wp_bind]
  apply wp_mono (hm _ hr₁ rfl)
  · rintro a r₂ ⟨hr₂, hstays⟩
    rw [wp_bind, wp_plain, Check.wp_exitBlock]
    constructor
    · intro outer hexit
      have hcoherent := hr₂.coherent.exit hexit
      cases (Table.Stays.exit hstays).symm.trans hexit
      have hr₃ : InStep origin { r₂ with state := r.state.left r₂.state } :=
        { sound := hr₂.sound, held := hr₂.held, complete := hr₂.complete
          coherent := hcoherent, made := hr₂.made }
      apply wp_mono (hf a _ hr₃ (Table.Stays.visible_leave hstays hr.coherent.current))
      · rintro _ r₄ ⟨hr₄, hstays'⟩
        exact ⟨hr₄, (Table.Stays.leave hstays).trans hstays'⟩
      · intro d r₄ h
        exact h
    · intro d hexit
      cases (Table.Stays.exit hstays).symm.trans hexit
  · intro d r₂ h
    exact h

theorem keepsStep_insideLoop {span : Span} {m : RecordM Unit} (hm : KeepsStep m) :
    KeepsStep (insideLoop span m) := by
  intro origin r hr
  have hbody := hm origin { r with
    state := { r.state with loops := { span, hasBreak := false } :: r.state.loops } }
    (inStep_of_table_eq hr rfl rfl)
  unfold KeepsStepAt wp at hbody ⊢
  unfold insideLoop
  dsimp only at hbody ⊢
  split at hbody
  · next _ r₁ hrun =>
    rw [hrun]
    exact ⟨inStep_of_table_eq hbody.1 rfl rfl, hbody.2⟩
  · next d r₁ hrun =>
    rw [hrun]
    exact hbody

theorem keepsStep_insideFunction {context : FunctionContext} {m : RecordM Unit}
    (hm : KeepsStep m) : KeepsStep (insideFunction context m) := by
  intro origin r hr
  have hbody := hm origin { r with state := { r.state with function := some context } }
    (inStep_of_table_eq hr rfl rfl)
  unfold KeepsStepAt wp at hbody ⊢
  unfold insideFunction
  dsimp only at hbody ⊢
  split at hbody
  · next _ r₁ hrun =>
    rw [hrun]
    exact ⟨inStep_of_table_eq hbody.1 rfl rfl, hbody.2⟩
  · next d r₁ hrun =>
    rw [hrun]
    exact hbody

/-- Behind its head a function is bound, or its name still cannot be seen. -/
theorem wp_recordHead {name : String} {params : List Param} {returns : Option Ty} {span : Span}
    (hr : InStep origin r) :
    wp (functionHead name params returns span)
      (fun head r' => InStep origin r' ∧ r.state.table.Stays r'.state.table ∧
        (returns = none → r'.state.table.lookup? head.2.name = none))
      (fun _ r' => Explains origin r'.bindings r'.state.table) r := by
  have hlook : Check.Looks (fun _ => True)
      (Check.HeadFound (fun _ => True) name params span returns)
      (Check.functionSymbols name params returns span) :=
    Check.looks_functionSymbols trivial fun _ _ => trivial
  rw [functionHead, wp_bind, wp_plain]
  apply wp_mono (hlook r.state)
  · rintro head s₁ ⟨⟨events, rfl⟩, hfound⟩
    have hr₁ : InStep origin { r with state := { r.state with events } } :=
      inStep_of_table_eq hr rfl rfl
    cases returns with
    | none => exact ⟨hr₁, .refl r.state.table, fun _ => hfound.fresh.1⟩
    | some ty =>
      have hbind := keepsStepAt_bindOne .function hr₁ hfound.fresh.1
      show wp (bind .function head.2 >>= fun _ => pure head) _ _ _
      rw [wp_bind]
      apply wp_mono hbind
      · rintro _ r₂ ⟨hr₂, hstays⟩
        exact ⟨hr₂, hstays, nofun⟩
      · intro d r₂ h
        exact h
  · rintro d s₁ ⟨⟨events, rfl⟩, -⟩
    exact hr.toExplains

theorem keepsStepAt_functionTail {name : String} {returns : Option Ty} {body : Block}
    {span : Span} {symbol : Symbol} {context : Option FunctionContext} (hr : InStep origin r)
    (hunseen : returns = none → r.state.table.lookup? symbol.name = none) :
    KeepsStepAt origin (functionTail name returns body span symbol context) r := by
  have hverdict : wp (Check.functionVerdict name returns body span context)
      (fun _ s' => s'.table = r.state.table) (fun _ s' => s'.table = r.state.table) r.state := by
    cases context with
    | none => exact rfl
    | some context =>
      have hlook : Check.Looks (fun _ => True) (fun _ _ => True)
          (Check.functionVerdict name returns body span (some context)) :=
        Check.looks_functionVerdict trivial fun _ _ => trivial
      apply wp_mono (hlook r.state)
      · rintro _ s' ⟨⟨events, rfl⟩, -⟩
        rfl
      · rintro d s' ⟨⟨events, rfl⟩, -⟩
        rfl
  apply keepsStepAt_bind
  rw [wp_plain]
  apply wp_mono hverdict
  · intro _ s' htable
    have hr' : InStep origin { r with state := s' } := inStep_of_table_eq hr htable rfl
    refine ⟨htable ▸ .refl r.state.table, ?_⟩
    cases returns with
    | none =>
      apply keepsStepAt_bindOne .function hr'
      show s'.table.lookup? symbol.name = none
      rw [htable]
      exact hunseen rfl
    | some ty => exact ⟨hr', .refl s'.table⟩
  · intro d s' htable
    have hr' : InStep origin { r with state := s' } := inStep_of_table_eq hr htable rfl
    exact hr'.toExplains

end Record

open Record in
mutual

/-- The record stays in step with the walk over a statement. -/
theorem Stmt.record_keepsStep : (stmt : Stmt) → KeepsStep stmt.record
  | .function name params returns (.mk statements bodySpan) span => by
    intro origin r hr
    rw [Stmt.record]
    apply keepsStepAt_bind
    apply wp_mono (wp_recordHead hr)
    · rintro ⟨symbols, symbol⟩ r₁ ⟨hr₁, hstays, hunseen⟩
      refine ⟨hstays, keepsStepAt_inScope hr₁ ?_ ?_⟩
      · intro r₂ hr₂ htable
        have hempty : ∃ scope, r₂.state.table.currentScope? = some scope ∧ scope.symbols = [] := by
          rw [htable]
          exact ⟨_, List.getElem?_concat_length, rfl⟩
        apply keepsStepAt_bind
        apply wp_mono (keepsStepAt_parameters hr₂ hempty)
        · rintro _ r₃ ⟨hr₃, hstays₃⟩
          exact ⟨hstays₃,
            keepsStep_insideFunction (recordAll_keepsStep statements) origin r₃ hr₃⟩
        · intro d r₃ h
          exact h
      · intro context r₂ hr₂ hvisible
        -- the body has added nothing to what can be seen from where the function is bound
        refine keepsStepAt_functionTail hr₂ fun hreturns => ?_
        rw [Table.lookup?_eq, hvisible, ← Table.lookup?_eq]
        exact hunseen hreturns
    · intro d r₁ h
      exact h
  | .ifChain branches none _ => by
    rw [Stmt.record]
    exact (keepsStep_conditions branches).bind fun _ =>
      (recordBranches_keepsStep branches).bind keepsStep_pure
  | .ifChain branches (some body) _ => by
    rw [Stmt.record]
    exact (keepsStep_conditions branches).bind fun _ =>
      (recordBranches_keepsStep branches).bind fun _ => body.record_keepsStep
  | .whileLoop test body span => by
    rw [Stmt.record]
    exact (keepsStep_condition .whileLoop test span).bind fun _ =>
      (keepsStep_insideLoop body.record_keepsStep).bind fun loop => keepsStep_reportLoop loop
  | .block body => by
    rw [Stmt.record]
    exact body.record_keepsStep
  | .needs .. | .declare .. | .define .. | .assign .. | .ret .. | .breakLoop _
  | .continueLoop _ | .expression .. | .error .. => keepsStep_simple rfl

theorem Block.record_keepsStep : (body : Block) → KeepsStep body.record
  | .mk statements span => by
    intro origin r hr
    rw [Block.record]
    have hscope : KeepsStepAt origin (do
        plain (Check.enterBlock span.start)
        recordAll statements
        plain Check.exitBlock
        pure ()) r :=
      keepsStepAt_inScope hr (fun r₁ hr₁ _ => recordAll_keepsStep statements origin r₁ hr₁)
        fun _ r₂ hr₂ _ => keepsStep_pure () origin r₂ hr₂
    simpa only [bind_pure_unit] using hscope

theorem recordAll_keepsStep : (statements : List Stmt) → KeepsStep (recordAll statements)
  | [] => keepsStep_pure ()
  | stmt :: statements => by
    rw [recordAll]
    exact stmt.record_keepsStep.bind fun _ => recordAll_keepsStep statements

theorem recordBranches_keepsStep :
    (branches : List Branch) → KeepsStep (recordBranches branches)
  | [] => keepsStep_pure ()
  | .mk _ body _ :: branches => by
    rw [recordBranches]
    exact body.record_keepsStep.bind fun _ => recordBranches_keepsStep branches

end

/-! ## The bindings of a program -/

namespace Program

/-- The bindings of a program, checked on top of a coherent table, explain the table that
comes of it. -/
theorem bindingsFrom_explain (p : Program) {t : Table} (ht : t.Coherent) :
    Explains t (p.bindingsFrom t) (p.checkFrom t).table := by
  have hstart : Recorded.InStep t { state := .start t, bindings := [] } :=
    { sound := nofun, held := .nil
      complete := fun _ scope _ hscope hsymbol => Or.inl ⟨scope, hscope, hsymbol⟩
      coherent := ht, made := nofun }
  have hwalk : Record.KeepsStep p.record :=
    (recordAll_keepsStep p.statements).bind fun _ => Record.keepsStep_plain fun _ => rfl
  have hstep := hwalk t _ hstart
  rw [← p.recordFrom_outcome, bindingsFrom, recordFrom]
  unfold Record.KeepsStepAt wp at hstep
  split at hstep
  · next _ r hrun =>
    rw [hrun]
    exact hstep.1.toExplains
  · next d r hrun =>
    rw [hrun]
    exact hstep

end Program

/-- The operations on tables only ever build coherent ones. -/
theorem Table.coherent_after (ops : List Table.Op) : (Table.after ops).Coherent :=
  (Simulates.empty.attempt ops).1.coherent

/-- Guards against defects are never needed. On top of any table that operations can
build, no program ends in a defect: no walk leaves the global scope, loses its function
or meets a variable without a type. And of all the bindings it makes, put down by a
record that changes nothing about the walk, only that of a parameter can fail, and only
if a parameter of the same function before it has its name. So a function without a
written return type is bound behind its body without fail. -/
theorem Program.defects_unreachable (p : Program) (ops : List Table.Op) :
    (∀ d, (p.checkFrom (.after ops)).error = some d → d.cause.kind ≠ .internal) ∧
    (p.recordFrom (.after ops)).1 = p.checkFrom (.after ops) ∧
    ∀ b ∈ p.bindingsFrom (.after ops),
      (∃ t, b.table.define b.symbol = .ok t) ∨
        ∃ function before, b.role = .parameter function before ∧
          b.symbol.name ∈ before.map Symbol.name := by
  have hexplains := p.bindingsFrom_explain (Table.coherent_after ops)
  refine ⟨fun d hd => (checkFrom_pointsAt hd).cause, p.recordFrom_outcome _, ?_⟩
  intro b hb
  exact (hexplains.sound b hb).define_fails

/-- A function with two parameters of one name. -/
def doubledParameter : Program :=
  ⟨[.function "f" [⟨"a", .int, default⟩, ⟨"a", .bool, default⟩] none (.mk [] default) default]⟩

/-- The second parameter is the one that cannot be bound, and the error is no defect. -/
theorem Program.defects_unreachable_doubled :
    (doubledParameter.checkFrom (.after [])).error =
      some (.spanned (.redeclared "a" 0) default) ∧
    (Diagnostic.spanned (.redeclared "a" 0) default).cause.kind ≠ .internal := by
  have herror : (doubledParameter.checkFrom (.after [])).error =
      some (.spanned (.redeclared "a" 0) default) := by decide +kernel
  exact ⟨herror, (Program.defects_unreachable doubledParameter []).1 _ herror⟩

/-- A variable or function is only ever bound where its name cannot be seen. So of two
bindings of one name, the later is not made while the scope of the earlier is open,
unless it is that of a parameter. The bindings are all there are: every symbol in the
table that comes of the walk was in the old one or is that of a binding, in its scope;
and the walk is the same without the record. -/
theorem Program.bindings_unseen (p : Program) (ops : List Table.Op) :
    (∀ b ∈ p.bindingsFrom (.after ops), b.role.isParameter = false →
      b.table.lookup? b.symbol.name = none) ∧
    (p.bindingsFrom (.after ops)).Pairwise (fun a b => b.role.isParameter = false →
      a.symbol.name = b.symbol.name → a.table.current ∉ b.table.visible.map Scope.id) ∧
    (∀ (k : Nat) (scope : Scope) (symbol : Symbol),
      (p.checkFrom (.after ops)).table.scopes[k]? = some scope → symbol ∈ scope.symbols →
        (∃ old : Scope, (Table.after ops).scopes[k]? = some old ∧ symbol ∈ old.symbols) ∨
          ∃ b ∈ p.bindingsFrom (.after ops), b.table.current = k ∧ b.symbol = symbol) ∧
    (p.recordFrom (.after ops)).1 = p.checkFrom (.after ops) := by
  have hexplains := p.bindingsFrom_explain (Table.coherent_after ops)
  refine ⟨fun b hb => (hexplains.sound b hb).unseen, ?_, hexplains.complete,
    p.recordFrom_outcome _⟩
  refine hexplains.held.imp_of_mem ?_
  intro a b _ hb hheld hrole hname
  exact (hexplains.sound b hb).apart hrole hheld hname

/-- A parameter with the name of a variable outside the function. -/
def shadowingParameter : Program :=
  ⟨[.declare "x" .int default,
    .function "f" [⟨"x", .int, default⟩] none (.mk [] default) default]⟩

/-- A name declared in a block and again behind it. -/
def reusedName : Program :=
  ⟨[.block (.mk [.declare "a" .int default] default), .declare "a" .string default]⟩

/-- Neither of the two bindings sees the other. -/
theorem Program.bindings_unseen_reused :
    (reusedName.bindingsFrom (.after [])).map (fun b => (b.symbol.name, b.table.current)) =
      [("a", 1), ("a", 0)] ∧
    ∀ b ∈ reusedName.bindingsFrom (.after []), b.table.lookup? b.symbol.name = none := by
  have hroles : ∀ b ∈ reusedName.bindingsFrom (.after []), b.role.isParameter = false := by
    decide +kernel
  exact ⟨by decide +kernel, fun b hb =>
    (Program.bindings_unseen reusedName []).1 b hb (hroles b hb)⟩

/-- A parameter is bound although its name can be seen, and a name may be bound in a
scope that was open when it was bound in another one: the global scope is open all the
time, but a name that an inner scope has bound can still be declared there. -/
theorem Program.bindings_seen :
    (shadowingParameter.outcome.error = none ∧
      ∃ b ∈ shadowingParameter.bindingsFrom .empty,
        (b.table.lookup? b.symbol.name).isSome = true) ∧
    (reusedName.outcome.error = none ∧
      ∃ a ∈ reusedName.bindingsFrom .empty, ∃ b ∈ reusedName.bindingsFrom .empty,
        a.symbol.name = b.symbol.name ∧ a.table.current ≠ b.table.current ∧
          b.table.current ∈ a.table.visible.map Scope.id) := by
  decide +kernel

end Slate
