-- SUMMARY: Replaying the events of an analysis rebuilds the scopes and the declared variables of its table.
import Slate.Proofs.Check.Growth

/-!
# Replaying the events

The events of an analysis are reported before the operations that they announce, and an error
can stop the walk anywhere in between. They still tell exactly what has become of the table.
A sketch of a table holds what they speak of: the scope around each scope, and the variables
that were declared in it. Replayed on a sketch, each event is either out of place or changes
the sketch as the walk changes the table; and no event of an analysis is out of place.
-/

namespace Slate

/-! ## Announced symbols -/

/-- The event that announces the binding of a symbol. Only variables are announced that are
declared by a statement. A parameter is told from them by having neither an initializer nor a
known value. -/
def Symbol.announcement? : Symbol → Option Event
  | .var v =>
    if v.initialized then some (.define v.name v.value.ty v.knownValue?)
    else if v.known then some (.declare v.name v.value.ty)
    else none
  | .function .. => none

namespace Symbol

variable {ty : Ty} {name : String} {span : Span} {symbol : Symbol}

theorem announcement?_declared (h : declared? ty name span = some symbol) :
    symbol.announcement? = some (.declare name ty) := by
  cases ty <;> cases h <;> rfl

theorem announcement?_parameter (h : parameter? ty name span = some symbol) :
    symbol.announcement? = none := by
  cases ty <;> cases h <;> rfl

theorem announcement?_initialized (value : Value) (known : Bool) :
    (initialized name span value known).announcement? =
      some (.define name value.ty (initialized name span value known).knownValue?) := rfl

end Symbol

/-! ## Sketches -/

/-- What the events tell of a scope: the scope around it, and the announcements of its
symbols in their order. -/
structure Scope.Sketch where
  parent : Option Nat
  announced : List Event
deriving DecidableEq, Repr

def Scope.sketch (s : Scope) : Scope.Sketch where
  parent := s.parent
  announced := s.symbols.filterMap Symbol.announcement?

/-- What the events tell of a table: its scopes in the order of their numbers, and which of
them is current. -/
structure Table.Sketch where
  scopes : List Scope.Sketch
  current : Nat
deriving DecidableEq, Repr

def Table.sketch (t : Table) : Table.Sketch where
  scopes := t.scopes.map Scope.sketch
  current := t.current

namespace Table.Sketch

/-- Nothing but a global scope. -/
def start : Sketch := { scopes := [{ parent := none, announced := [] }], current := 0 }

/-- The scope around the current one, if there is one. -/
def parent? (k : Sketch) : Option Nat := k.scopes[k.current]?.bind Scope.Sketch.parent

/-- One more announcement in the current scope, behind the others. -/
def announce (k : Sketch) (event : Event) : Sketch :=
  { k with
    scopes := k.scopes.modify k.current fun s => { s with announced := s.announced ++ [event] } }

/-- The sketch behind an event, unless the event is out of place. A scope is entered from the
current one, under the next number that is free; it is left if it is current, for the scope
around it. -/
def step? (k : Sketch) : Event → Option Sketch
  | .enterScope scope parent =>
    if scope = k.scopes.length ∧ parent = k.current then
      some { scopes := k.scopes ++ [{ parent := some parent, announced := [] }], current := scope }
    else none
  | .exitScope scope parent =>
    if scope = k.current ∧ k.parent? = some parent then some { k with current := parent }
    else none
  | .declare name ty => some (k.announce (.declare name ty))
  | .define name ty value => some (k.announce (.define name ty value))
  | .analyze _ | .defineFunction .. | .functionChecked .. | .loopChecked .. | .needsSkipped ..
  | .programChecked .. => some k

/-- The sketch behind events, unless one of them is out of place. -/
def replay? (k : Sketch) (events : List Event) : Option Sketch := events.foldlM step? k

variable {k k' k'' : Sketch} {events more : List Event}

theorem replay?_append (h : k.replay? events = some k') (hmore : k'.replay? more = some k'') :
    k.replay? (events ++ more) = some k'' := by
  rw [replay?, List.foldlM_append, show events.foldlM step? k = some k' from h]
  exact hmore

theorem replay?_singleton (k : Sketch) (event : Event) : k.replay? [event] = k.step? event :=
  bind_pure (k.step? event)

end Table.Sketch

/-! ## Operations on tables -/

namespace Table

variable {t t' : Table} {symbol : Symbol} {event : Event}

theorem sketch_empty : empty.sketch = .start := rfl

/-- Each event of a declaration is an announcement. -/
theorem Sketch.step?_announcement (k : Sketch) (h : symbol.announcement? = some event) :
    k.step? event = some (k.announce event) := by
  cases symbol with
  | function name span params returns => cases h
  | var v =>
    rw [Symbol.announcement?] at h
    split at h
    · cases h
      rfl
    · split at h
      · cases h
        rfl
      · cases h

theorem sketch_enter (t : Table) (block : Option Location) :
    t.sketch.step? (.enterScope t.scopes.length t.current) = some (t.enter block).sketch := by
  have hplace : t.scopes.length = t.sketch.scopes.length ∧ t.current = t.sketch.current :=
    ⟨(List.length_map _).symm, rfl⟩
  rw [Sketch.step?, if_pos hplace]
  simp [Table.sketch, Table.enter, Scope.sketch, Scope.empty]

theorem sketch_parent? (t : Table) : t.sketch.parent? = t.parent? := by
  rw [Sketch.parent?, Table.parent?, currentScope?, sketch, List.getElem?_map]
  cases t.scopes[t.current]? <;> rfl

/-- Where the table lets a scope be left, so does the sketch. -/
theorem sketch_exit (h : t.exit = .ok t') :
    t.sketch.step? (.exitScope t.current t'.current) = some t'.sketch := by
  rw [Table.exit] at h
  split at h
  · next parent hparent =>
    cases h
    have hplace : t.current = t.sketch.current ∧ t.sketch.parent? = some parent :=
      ⟨rfl, t.sketch_parent?.trans hparent⟩
    rw [Sketch.step?, if_pos hplace]
    rfl
  · cases h

theorem define_eq (h : t.define symbol = .ok t') :
    t' = { t with scopes := t.scopes.modify t.current (·.push symbol) } := by
  rw [Table.define] at h
  split at h <;> cases h
  rfl

theorem sketch_define (h : t.define symbol = .ok t') : t'.sketch =
    { t.sketch with
      scopes := t.sketch.scopes.modify t.current fun s =>
        { s with announced := s.announced ++ symbol.announcement?.toList } } := by
  rw [define_eq h]
  have hpush : ∀ scope : Scope, (scope.push symbol).sketch =
      { scope.sketch with
        announced := scope.sketch.announced ++ symbol.announcement?.toList } := by
    intro scope
    simp only [Scope.sketch, Scope.push, List.filterMap_append, List.filterMap_cons,
      List.filterMap_nil]
    cases symbol.announcement? <;> rfl
  simp only [sketch, Sketch.mk.injEq, and_true]
  refine List.ext_getElem? fun i => ?_
  simp only [List.getElem?_map, List.getElem?_modify, Option.map_eq_map, Option.map_map]
  congr 1
  funext scope
  simp only [Function.comp_apply]
  split
  · exact hpush scope
  · rfl

theorem sketch_define_announced (h : t.define symbol = .ok t')
    (hevent : symbol.announcement? = some event) : t.sketch.step? event = some t'.sketch := by
  rw [Sketch.step?_announcement _ hevent, sketch_define h, hevent]
  rfl

theorem sketch_define_unannounced (h : t.define symbol = .ok t')
    (hsymbol : symbol.announcement? = none) : t'.sketch = t.sketch := by
  rw [sketch_define h, hsymbol]
  simp only [Option.toList_none, List.append_nil]
  have hsame : t.sketch.scopes.modify t.current (fun s => s) = t.sketch.scopes :=
    List.modify_id _ _
  rw [hsame]

end Table

/-! ## Parts of the walk -/

/-- The events between two states rebuild what has happened to the table. -/
def CheckState.Replays (s s' : CheckState) : Prop :=
  ∃ events, s'.events.toList = s.events.toList ++ events ∧
    s.table.sketch.replay? events = some s'.table.sketch

namespace CheckState.Replays

variable {s s' s'' : CheckState}

/-- Nothing is reported, and the table is the same as far as events tell. -/
theorem of_eq (hevents : s'.events = s.events) (hsketch : s'.table.sketch = s.table.sketch) :
    s.Replays s' :=
  ⟨[], by rw [hevents, List.append_nil], by rw [hsketch]; rfl⟩

theorem refl (s : CheckState) : s.Replays s := .of_eq rfl rfl

/-- One event is reported. -/
theorem of_step {event : Event} (hevents : s'.events = s.events.push event)
    (hstep : s.table.sketch.step? event = some s'.table.sketch) : s.Replays s' :=
  ⟨[event], by rw [hevents, Array.toList_push],
    (Table.Sketch.replay?_singleton _ event).trans hstep⟩

theorem trans (h : s.Replays s') (h' : s'.Replays s'') : s.Replays s'' := by
  obtain ⟨events, hevents, hreplay⟩ := h
  obtain ⟨more, hmore, hreplay'⟩ := h'
  exact ⟨events ++ more, by rw [hmore, hevents, List.append_assoc],
    Table.Sketch.replay?_append hreplay hreplay'⟩

end CheckState.Replays

namespace Check

variable {α β : Type}

/-- The events of this part of the walk rebuild what it does to the table, also if it fails. -/
def Replaying (m : CheckM α) : Prop :=
  ∀ s, wp m (fun _ s' => s.Replays s') (fun _ s' => s.Replays s') s

variable {m : CheckM α} {f : α → CheckM β}

/-- What comes behind a part of the walk may count on what that part yields. -/
theorem Replaying.bindOn {Q : α → Prop}
    (hm : ∀ s, wp m (fun a s' => s.Replays s' ∧ Q a) (fun _ s' => s.Replays s') s)
    (hf : ∀ a, Q a → Replaying (f a)) : Replaying (m >>= f) := by
  intro s
  rw [wp_bind]
  apply wp_mono (hm s)
  · rintro a s₁ ⟨h₁, ha⟩
    apply wp_mono (hf a ha s₁)
    · intro _ s₂ h₂
      exact h₁.trans h₂
    · intro d s₂ h₂
      exact h₁.trans h₂
  · intro d s₁ h₁
    exact h₁

theorem Replaying.bind (hm : Replaying m) (hf : ∀ a, Replaying (f a)) : Replaying (m >>= f) :=
  .bindOn (Q := fun _ => True) (fun s => wp_mono (hm s) (fun _ _ h => ⟨h, trivial⟩) fun _ _ => id)
    fun a _ => hf a

/-! ## Questions -/

/-- A part of the walk that leaves the state as it is. -/
def Asks (m : CheckM α) : Prop := ∀ s, wp m (fun _ s' => s' = s) (fun _ s' => s' = s) s

theorem Asks.replaying (hm : Asks m) : Replaying m := by
  intro s
  apply wp_mono (hm s)
  · rintro _ _ rfl
    exact .refl _
  · rintro _ _ rfl
    exact .refl _

theorem Asks.bind (hm : Asks m) (hf : ∀ a, Asks (f a)) : Asks (m >>= f) := by
  intro s
  rw [wp_bind]
  apply wp_mono (hm s)
  · rintro a _ rfl
    exact hf a _
  · rintro d _ rfl
    rfl

theorem asks_pure (a : α) : Asks (pure a) := fun _ => rfl

theorem asks_throw (d : Diagnostic) : Asks (throw d : CheckM α) := fun _ => rfl

theorem asks_refuse (cause : Cause) (span : Span) : Asks (refuse cause span : CheckM α) :=
  asks_throw _

theorem asks_get : Asks (get : CheckM CheckState) := fun _ => rfl

theorem asks_require (r : Except Diagnostic α) : Asks (require r) := by
  cases r with
  | ok a => exact asks_pure a
  | error d => exact asks_throw d

theorem asks_resolve (e : Expr) : Asks (resolve e) :=
  asks_get.bind fun _ => asks_require _

theorem asks_requireValue (ty : Ty) (e : Expr) (span : Span) : Asks (requireValue ty e span) := by
  refine (asks_resolve e).bind fun _ => asks_get.bind fun s => ?_
  dsimp only
  split
  · exact asks_pure _
  · exact asks_refuse _ span

theorem asks_condition (construct : Construct) (e : Expr) (span : Span) :
    Asks (condition construct e span) := by
  refine (asks_resolve e).bind fun _ => asks_get.bind fun s => ?_
  split
  · exact asks_pure _
  · exact asks_refuse _ span

theorem asks_assignment (name : String) (e : Expr) (span : Span) :
    Asks (assignment name e span) := by
  rw [assignment_eq]
  refine asks_get.bind fun s => ?_
  split
  · exact asks_refuse _ span
  · exact asks_refuse _ span
  · exact asks_requireValue _ e span

theorem asks_expressionStatement (e : Expr) (span : Span) : Asks (expressionStatement e span) := by
  refine (asks_resolve e).bind fun _ => asks_get.bind fun s => ?_
  split
  · exact asks_refuse _ span
  · exact asks_pure _

theorem asks_continueLoop (span : Span) : Asks (continueLoop span) := by
  refine asks_get.bind fun s => ?_
  split
  · exact asks_refuse _ span
  · exact asks_pure _

/-! ## Steps -/

/-- An event that tells nothing of the table. -/
theorem replaying_emit {event : Event} (h : ∀ k : Table.Sketch, k.step? event = some k) :
    Replaying (emit event) := fun _ => .of_step rfl (h _)

theorem replaying_ret (value : Option Expr) (span : Span) : Replaying (ret value span) := by
  refine asks_get.replaying.bind fun s => ?_
  split
  · exact (asks_refuse _ span).replaying
  · have hinspect (context : FunctionContext) : Replaying (modify fun s =>
        { s with function := some { context with
          returns := context.returns.inspect s.table value span } }) := fun _ => .of_eq rfl rfl
    cases value with
    | none => exact hinspect _
    | some e => exact (asks_resolve e).replaying.bind fun _ => hinspect _

theorem replaying_breakLoop (span : Span) : Replaying (breakLoop span) := by
  refine asks_get.replaying.bind fun s => ?_
  split
  · exact (asks_refuse _ span).replaying
  · exact fun _ => .of_eq rfl rfl

theorem replaying_enterBlock (start : Location) : Replaying (enterBlock start) :=
  fun s => .of_step rfl (s.table.sketch_enter _)

theorem replaying_exitBlock : Replaying exitBlock := by
  intro s
  rw [wp_exitBlock]
  exact ⟨fun _ hexit => .of_step rfl (Table.sketch_exit hexit), fun _ _ => .refl s⟩

/-- Nothing is reported of a symbol that is not announced. -/
theorem replaying_define {symbol : Symbol} (h : symbol.announcement? = none) :
    Replaying (define symbol) := by
  intro s
  rw [wp_define]
  exact ⟨fun _ hdefine => .of_eq rfl (Table.sketch_define_unannounced hdefine h),
    fun _ _ => .refl s⟩

theorem replaying_defineAll : ∀ {symbols : List Symbol},
    (∀ symbol ∈ symbols, symbol.announcement? = none) → Replaying (defineAll symbols)
  | [], _ => (asks_pure ()).replaying
  | symbol :: symbols, h => by
    rw [List.forall_mem_cons] at h
    exact (replaying_define h.1).bind fun _ => replaying_defineAll h.2

/-! ## Declarations -/

/-- A part of the walk that announces the symbol it yields, which has this name, or else
leaves the state as it is. -/
def Announces (name : String) (m : CheckM Symbol) : Prop :=
  ∀ s, wp m (fun symbol s' => symbol.name = name ∧ ∃ event, symbol.announcement? = some event ∧
    s' = { s with events := s.events.push event }) (fun _ s' => s' = s) s

theorem Asks.announces {name : String} {f : α → CheckM Symbol} (hm : Asks m)
    (hf : ∀ a, Announces name (f a)) : Announces name (m >>= f) := by
  intro s
  rw [wp_bind]
  apply wp_mono (hm s)
  · rintro a _ rfl
    exact hf a _
  · rintro d _ rfl
    rfl

theorem announces_refuse {name : String} (cause : Cause) (span : Span) :
    Announces name (refuse cause span) := fun _ => rfl

/-- Nothing behind a refusal is reached. -/
theorem announces_refuse_bind {name : String} (cause : Cause) (span : Span)
    {f : α → CheckM Symbol} : Announces name (refuse cause span >>= f) := fun _ => rfl

/-- What is announced is bound as well: a name that cannot be seen can be bound, so nothing
stops the walk between the two. -/
theorem replaying_declaration {name : String} {span : Span} {f : Unit → CheckM Symbol}
    (hf : Announces name (f ())) : Replaying (requireFresh name span >>= f >>= define) := by
  intro s
  rw [bind_assoc, wp_bind, wp_requireFresh]
  refine ⟨fun hfresh => ?_, fun _ _ => .refl s⟩
  rw [wp_bind]
  apply wp_mono (hf s)
  · rintro symbol _ ⟨rfl, event, hevent, rfl⟩
    obtain ⟨table, hdefine⟩ := Table.exists_define_of_unseen hfresh
    rw [wp_define]
    constructor
    · intro table hdefine
      exact .of_step rfl (Table.sketch_define_announced hdefine hevent)
    · intro d hd
      cases hdefine.symm.trans hd
  · rintro d _ rfl
    exact .refl _

theorem announces_declared (name : String) (ty : Ty) (span : Span) :
    Announces name (match Symbol.declared? ty name span with
      | none => refuse .voidVariable span
      | some symbol => do
        emit (.declare name ty)
        return symbol) := by
  split
  · exact announces_refuse _ span
  · next symbol hsymbol =>
    intro s
    exact ⟨(declared?_at hsymbol).1, _, Symbol.announcement?_declared hsymbol, rfl⟩

theorem announces_valueSymbol (name : String) (ty : Ty) (e : Expr) (span : Span) :
    Announces name (valueSymbol name ty e span) := by
  refine asks_get.announces fun s => ?_
  split
  · exact announces_refuse _ span
  · next folded hfolded =>
    intro s
    refine ⟨rfl, _, ?_, rfl⟩
    rw [Symbol.announcement?_initialized, fold?_ty hfolded]

/-- A declaration of a variable asks for its name, and announces it unless there is something
else wrong. -/
theorem introduction_announces {stmt : Stmt} {m : CheckM Symbol}
    (h : stmt.introduction? = some m) :
    ∃ name span f, m = (requireFresh name span >>= f) ∧ Announces name (f ()) := by
  cases stmt with
  | declare name ty span =>
    cases h
    exact ⟨name, span, _, rfl, announces_declared name ty span⟩
  | define name ty value span =>
    cases ty with
    | some ty =>
      cases h
      refine ⟨name, span, _, rfl, ?_⟩
      dsimp only
      split
      · exact announces_refuse_bind _ span
      · exact (asks_requireValue ty value span).announces fun _ =>
          announces_valueSymbol name ty value span
    | none =>
      cases h
      refine ⟨name, span, _, rfl, ?_⟩
      refine (asks_resolve value).announces fun _ => asks_get.announces fun s => ?_
      dsimp only
      split
      · exact announces_refuse _ span
      · next ty _ =>
        split
        · exact announces_refuse_bind _ span
        · split
          · exact announces_valueSymbol name ty value span
          · exact announces_refuse_bind _ span
  | _ => cases h

theorem replaying_simple {stmt : Stmt} (h : stmt.isSimple = true) : Replaying stmt.check := by
  cases hintroduction : stmt.introduction? with
  | some m =>
    obtain ⟨name, span, f, rfl, hf⟩ := introduction_announces hintroduction
    rw [Stmt.check_introduction hintroduction]
    exact replaying_declaration hf
  | none =>
    cases stmt with
    | needs module span =>
      rw [Stmt.check]
      exact replaying_emit fun _ => rfl
    | assign name value span =>
      rw [Stmt.check]
      exact (asks_assignment name value span).replaying
    | ret value span =>
      rw [Stmt.check]
      exact replaying_ret value span
    | breakLoop span =>
      rw [Stmt.check]
      exact replaying_breakLoop span
    | continueLoop span =>
      rw [Stmt.check]
      exact (asks_continueLoop span).replaying
    | expression value span =>
      rw [Stmt.check]
      exact (asks_expressionStatement value span).replaying
    | error text reason span =>
      rw [Stmt.check]
      exact (asks_refuse _ span).replaying
    | declare => cases hintroduction
    | define name ty => cases ty <;> cases hintroduction
    | function | ifChain | whileLoop | block => cases h

/-! ## Functions -/

theorem paramSymbols_unannounced {function : String} :
    ∀ {params : List Param} {symbols : List Symbol}, paramSymbols function params = .ok symbols →
      ∀ symbol ∈ symbols, symbol.announcement? = none
  | [], _, h => by
    cases h
    exact nofun
  | p :: params, _, h => by
    obtain ⟨symbol, rest, hsymbol, hrest, rfl⟩ := paramSymbols_cons_ok.1 h
    rw [List.forall_mem_cons]
    exact ⟨Symbol.announcement?_parameter hsymbol, paramSymbols_unannounced hrest⟩

/-- Neither the parameters nor the function are announced. -/
def Unannounced (head : List Symbol × Symbol) : Prop :=
  (∀ symbol ∈ head.1, symbol.announcement? = none) ∧ head.2.announcement? = none

theorem wp_functionSymbols (name : String) (params : List Param) (returns : Option Ty)
    (span : Span) (s : CheckState) :
    wp (functionSymbols name params returns span) (fun head s' => s.Replays s' ∧ Unannounced head)
      (fun _ s' => s.Replays s') s := by
  unfold functionSymbols
  dsimp only
  split
  · exact .refl s
  · rw [wp_bind, wp_requireFresh]
    refine ⟨fun _ => ?_, fun _ _ => .refl s⟩
    rw [wp_bind, wp_require]
    refine ⟨fun symbols hsymbols => ?_, fun _ _ => .refl s⟩
    exact ⟨.of_step rfl rfl, paramSymbols_unannounced hsymbols, rfl⟩

theorem wp_functionHead (name : String) (params : List Param) (returns : Option Ty)
    (span : Span) (s : CheckState) :
    wp (functionHead name params returns span) (fun head s' => s.Replays s' ∧ Unannounced head)
      (fun _ s' => s.Replays s') s := by
  rw [functionHead_eq, wp_bind]
  apply wp_mono (wp_functionSymbols name params returns span s)
  · rintro head s₁ ⟨h₁, hhead⟩
    dsimp only
    split
    · rw [wp_bind]
      apply wp_mono (replaying_define hhead.2 s₁)
      · intro _ s₂ h₂
        exact ⟨h₁.trans h₂, hhead⟩
      · intro d s₂ h₂
        exact h₁.trans h₂
    · exact ⟨h₁, hhead⟩
  · intro d s₁ h₁
    exact h₁

theorem replaying_functionTail {name : String} {returns : Option Ty} {body : Block} {span : Span}
    {symbol : Symbol} (h : symbol.announcement? = none) (context : Option FunctionContext) :
    Replaying (functionTail name returns body span symbol context) := by
  have hverdict : Replaying (functionVerdict name returns body span context) := by
    unfold functionVerdict
    split
    · exact (asks_throw _).replaying
    · refine (replaying_emit fun _ => rfl).bind fun _ => (asks_require _).replaying.bind fun _ => ?_
      dsimp only
      split
      · exact (asks_refuse _ span).replaying
      · exact (asks_pure _).replaying
  rw [functionTail_eq]
  refine hverdict.bind fun _ => ?_
  split
  · exact replaying_define h
  · exact (asks_pure _).replaying

/-! ## Constructions -/

theorem replaying_insideBlock {start : Location} {m : CheckM Unit} (hm : Replaying m) :
    Replaying (insideBlock start m) :=
  (replaying_enterBlock start).bind fun _ => hm.bind fun _ => replaying_exitBlock

theorem replaying_loopBody {span : Span} {m : CheckM Unit} (hm : Replaying m) :
    Replaying (loopBody span m) := by
  have hinside : Replaying (insideLoop span m) := by
    intro s
    rw [wp_insideLoop]
    exact hm { s with loops := { span, hasBreak := false } :: s.loops }
  refine hinside.bind fun loop => ?_
  cases loop with
  | none => exact (asks_pure _).replaying
  | some loop => exact replaying_emit fun _ => rfl

theorem replaying_insideFunction {context : FunctionContext} {m : CheckM Unit}
    (hm : Replaying m) : Replaying (insideFunction context m) := by
  intro s
  rw [wp_insideFunction]
  exact hm { s with function := some context }

theorem replaying_functionBody {name : String} {params : List Param} {returns : Option Ty}
    {body : Block} {span : Span} {m : CheckM Unit} (hm : Replaying m) :
    Replaying (functionBody name params returns body span m) :=
  Replaying.bindOn (wp_functionHead name params returns span) fun _ hhead =>
    (replaying_enterBlock _).bind fun _ => (replaying_defineAll hhead.1).bind fun _ =>
      (replaying_insideFunction hm).bind fun context => replaying_exitBlock.bind fun _ =>
        replaying_functionTail hhead.2 context

/-- The events of walks rebuild what they do to the table. -/
theorem replaying_walk :
    Walk (fun s s' => s.Replays s') (fun s _ s' => s.Replays s') where
  refl s := .refl s
  trans h h' := h.trans h'
  fails h h' := h.trans h'
  simple h := replaying_simple h
  condition construct e span := (asks_condition construct e span).replaying
  block hm := replaying_insideBlock hm
  loop hm := replaying_loopBody hm
  function hm := replaying_functionBody hm

end Check

/-! ## Programs -/

theorem Program.check_replaying (p : Program) : Check.Replaying p.check :=
  Check.Replaying.bind (checkAll_walk Check.replaying_walk p.statements) fun _ =>
    Check.asks_get.replaying.bind fun _ => Check.replaying_emit fun _ => rfl

/-- Whatever table a program is checked on, its events rebuild the table it ends with. -/
theorem Program.checkFrom_replays (p : Program) (t : Table) :
    t.sketch.replay? (p.checkFrom t).events.toList = some (p.checkFrom t).table.sketch := by
  have hreplays := p.check_replaying (.start t)
  unfold Program.checkFrom
  unfold wp at hreplays
  split at hreplays <;>
  · next hcheck =>
    obtain ⟨events, hevents, hreplay⟩ := hreplays
    simp only [hcheck]
    rw [hevents]
    exact hreplay

/-- Behind a program that is accepted, the scope is current in which it was checked. -/
theorem Program.checkFrom_current {p : Program} {t : Table} (h : (p.checkFrom t).error = none) :
    (p.checkFrom t).table.current = t.current := by
  have hgrowing := p.check_growing (.start t)
  unfold Program.checkFrom at h ⊢
  cases hcheck : p.check (.start t) with
  | ok _ s' => exact (wp_of_ok hgrowing hcheck).current
  | error d s' =>
    rw [hcheck] at h
    cases h

/-- Replayed from a single scope, the trace of any program, accepted or not, has no event out
of place, and rebuilds the scopes of the table that analysis ends with: around each scope the
same one, the same scope current, and for each variable that is no parameter one event in its
scope, in the order of the symbols, with its name, its type and what is known of its value. An
accepted program ends in the global scope. -/
theorem Program.trace_replays (p : Program) :
    Table.Sketch.start.replay? p.trace = some p.outcome.table.sketch ∧
      (p.outcome.error = none → p.outcome.table.current = 0) := by
  constructor
  · rw [← Table.sketch_empty]
    exact p.checkFrom_replays .empty
  · exact Program.checkFrom_current

/-- A walk that stops inside a block stops there in its trace as well. -/
example :
    Table.Sketch.start.replay? (Program.mk [.block
      (.mk [.declare "n" .int default, .declare "n" .int default] default)]).trace =
    some { scopes := [⟨none, []⟩, ⟨some 0, [.declare "n" .int]⟩], current := 1 } := by
  decide +kernel

/-- A procedure that declares two variables beside its parameter, and a loop that reads a
variable which has a known value. -/
def halving : Program :=
  ⟨[.function "halve" [⟨"k", .int, default⟩] none
      (.mk [.define "half" none (.binary (.ident "k" default) .divide
          (.literal (.int 2) default) default) default,
        .block (.mk [.declare "note" .string default] default)] default) default,
    .define "limit" (some .int) (.literal (.int 7) default) default,
    .whileLoop (.literal (.bool true) default)
      (.mk [.define "next" none (.ident "limit" default) default, .breakLoop default] default)
      default]⟩

theorem Program.trace_replays_halving :
    halving.outcome.error = none ∧ halving.outcome.table.current = 0 ∧
      Table.Sketch.start.replay? halving.trace = some
        { scopes :=
            [⟨none, [.define "limit" .int (some (.int 7))]⟩,
              ⟨some 0, [.define "half" .int none]⟩,
              ⟨some 1, [.declare "note" .string]⟩,
              ⟨some 0, [.define "next" .int (some (.int 7))]⟩]
          current := 0 } := by
  have hok : halving.outcome.error = none := by decide +kernel
  obtain ⟨hreplay, hglobal⟩ := Program.trace_replays halving
  refine ⟨hok, hglobal hok, hreplay.trans (congrArg some ?_)⟩
  decide +kernel

end Slate
