-- SUMMARY: What is true of every symbol where the checker binds it, and stays true, is true of all symbols of a finished table.
import Slate.Proofs.Check.Binding
import Slate.Proofs.Check.Function
import Slate.Proofs.Scope.Later

/-!
# Facts about the symbols of a table

A symbol is never changed once it is bound, but what is said of it may speak of the table
around it, which grows. `Holds Q` says that `Q` is true of every symbol of a table in its
scope. For it to be true of a finished table it is enough that `Q` stays true in later tables,
and is true of each symbol in the table that binding it makes. For variables with an
initializer this is asked of the definitions of the program at hand only.
-/

namespace Slate

namespace Table

variable {t t' t'' : Table} {symbol other : Symbol} {block : Option Location} {k : Nat}
variable {scope : Scope} {Q : Table → Nat → Symbol → Prop}

/-! ## Later tables -/

/-- The table has grown with the same scope current, and names stand for what they stood for. -/
structure Later (t t' : Table) : Prop extends Stays t t' where
  persists : t.Persists t'

theorem Later.refl (t : Table) : t.Later t := ⟨.refl t, .refl t⟩

theorem Later.trans (h : t.Later t') (h' : t'.Later t'') : t.Later t'' :=
  ⟨h.toStays.trans h'.toStays, h.persists.trans h'.persists⟩

theorem Coherent.later_define (h : t.Coherent) (hdefine : t.define symbol = .ok t')
    (hfresh : t.lookup? symbol.name = none) : t.Later t' :=
  ⟨stays_define hdefine, h.persists_define hdefine hfresh⟩

/-- What is bound in an entered scope is not seen outside. -/
theorem persists_of_enter (h : (t.enter block).Grows t') : t.Persists t' :=
  persists_of_enclosing fun _ hk =>
    enclosing_congr fun i hi => h.outside i (Nat.lt_of_le_of_lt hi hk)

theorem later_leave (h : (t.enter block).Stays t') :
    t.Later { t' with current := t.current } where
  toStays := h.leave
  persists := (persists_of_enter h.toGrows).trans fun _ _ _ hlookup => hlookup

/-! ## Facts about all symbols -/

/-- `Q` is true of every symbol of the table in the scope of its number. -/
def Holds (Q : Table → Nat → Symbol → Prop) (t : Table) : Prop :=
  ∀ (k : Nat) (scope : Scope), t.scopes[k]? = some scope → ∀ symbol ∈ scope.symbols, Q t k symbol

/-- What is true of a symbol stays true while the table grows and names stand for the same. -/
def Lasting (Q : Table → Nat → Symbol → Prop) : Prop :=
  ∀ ⦃t t' : Table⦄ ⦃k : Nat⦄ ⦃symbol : Symbol⦄, t.Grows t' → t.Persists t' →
    Q t k symbol → Q t' k symbol

theorem holds_empty : empty.Holds Q := by
  intro k scope hscope symbol hsymbol
  cases k with
  | zero =>
    cases hscope
    cases hsymbol
  | succ k => cases hscope

/-- Only what is new in a later table has to be looked at. -/
theorem Holds.later (h : t.Holds Q) (hQ : Lasting Q) (hgrows : t.Grows t')
    (hpersists : t.Persists t')
    (hnew : ∀ (k : Nat) (scope : Scope), t'.scopes[k]? = some scope → ∀ symbol ∈ scope.symbols,
      (∃ old : Scope, t.scopes[k]? = some old ∧ symbol ∈ old.symbols) ∨ Q t' k symbol) :
    t'.Holds Q := by
  intro k scope hscope symbol hsymbol
  obtain ⟨old, hold, hmem⟩ | hnew := hnew k scope hscope symbol hsymbol
  · exact hQ hgrows hpersists (h k old hold symbol hmem)
  · exact hnew

theorem mem_enter (hscope : (t.enter block).scopes[k]? = some scope)
    (hsymbol : symbol ∈ scope.symbols) : t.scopes[k]? = some scope := by
  rw [enter, List.getElem?_append] at hscope
  split at hscope
  · exact hscope
  · rw [List.getElem?_singleton] at hscope
    split at hscope <;> cases hscope
    cases hsymbol

theorem mem_define (hdefine : t.define symbol = .ok t') (hscope : t'.scopes[k]? = some scope)
    (hother : other ∈ scope.symbols) :
    (∃ old : Scope, t.scopes[k]? = some old ∧ other ∈ old.symbols) ∨
      k = t.current ∧ other = symbol := by
  unfold define at hdefine
  split at hdefine
  · cases hdefine
  · cases hdefine
    rw [List.getElem?_modify, Option.map_eq_map, Option.map_eq_some_iff] at hscope
    obtain ⟨old, hold, rfl⟩ := hscope
    by_cases hk : t.current = k
    · simp only [if_pos hk, Scope.push, List.mem_append, List.mem_singleton] at hother
      exact hother.imp (fun hmem => ⟨old, hold, hmem⟩) fun heq => ⟨hk.symm, heq⟩
    · rw [if_neg hk] at hother
      exact .inl ⟨old, hold, hother⟩

theorem Holds.define (h : t.Holds Q) (hQ : Lasting Q) (hdefine : t.define symbol = .ok t')
    (hlater : t.Later t') (hsymbol : Q t' t.current symbol) : t'.Holds Q := by
  refine h.later hQ hlater.toGrows hlater.persists fun k scope hscope other hother => ?_
  obtain hold | ⟨rfl, rfl⟩ := mem_define hdefine hscope hother
  · exact .inl hold
  · exact .inr hsymbol

/-- What a name stands for is a symbol of the table. -/
theorem Coherent.mem_of_lookup? (h : t.Coherent) {name : String}
    (hlookup : t.lookup? name = some symbol) :
    ∃ (k : Nat) (scope : Scope), t.scopes[k]? = some scope ∧ symbol ∈ scope.symbols := by
  rw [lookup?_eq, List.findSome?_eq_some_iff] at hlookup
  obtain ⟨before, scope, behind, hvisible, hget, -⟩ := hlookup
  have hscope : t.scopes[scope.id]? = some scope :=
    h.scopes_of_visible (by rw [hvisible]; simp)
  exact ⟨scope.id, scope, hscope, ((h.scopes _ _ hscope).get?_eq_some.1 hget).1⟩

end Table

/-! ## Binding -/

/-- Of the symbols that hold no initial value, `Q` is true wherever they are bound; of
functions, if their name is not that of a built-in one. And `Q` stays true. -/
structure Check.Filling (Q : Table → Nat → Symbol → Prop) : Prop where
  lasting : Table.Lasting Q
  declared : ∀ {ty name span symbol}, Symbol.declared? ty name span = some symbol →
    ∀ t k, Q t k symbol
  parameter : ∀ {ty name span symbol}, Symbol.parameter? ty name span = some symbol →
    ∀ t k, Q t k symbol
  function : ∀ {name}, Builtin.isName name = false →
    ∀ span params returns t k, Q t k (.function name span params returns)

/-- Of the variable that a definition binds to the value of its initializer, `Q` is true in the
table that then is, if it is true of all symbols before. -/
def Stmt.Fills (Q : Table → Nat → Symbol → Prop) : Stmt → Prop
  | .define name _ e span => ∀ ⦃t t' : Table⦄ ⦃ty : Ty⦄ ⦃folded : Folded Value⦄, t.Coherent →
      t.Holds Q → e.type? t = some ty → e.fold? t ty = some folded →
      t.define (.initialized name span folded.value folded.known) = .ok t' → t.Later t' →
        Q t' t.current (.initialized name span folded.value folded.known)
  | _ => True

namespace Check

variable {Q : Table → Nat → Symbol → Prop} {s s' : CheckState} {m : CheckM Unit}

/-- `Q` is still true of all symbols, in a later table. -/
structure Filled (Q : Table → Nat → Symbol → Prop) (t t' : Table) : Prop where
  coherent : t'.Coherent
  holds : t'.Holds Q
  later : t.Later t'

/-- From a coherent table with `Q` true of its symbols, the part of the walk makes such a one. -/
def Fills (Q : Table → Nat → Symbol → Prop) (s s' : CheckState) : Prop :=
  s.table.Coherent → s.table.Holds Q → Filled Q s.table s'.table

theorem fills_of_table_eq (h : s'.table = s.table) : Fills Q s s' := by
  intro hs hholds
  rw [h]
  exact ⟨hs, hholds, .refl s.table⟩

theorem Filled.trans {t t' t'' : Table} (h : Filled Q t t') (h' : Filled Q t' t'') :
    Filled Q t t'' :=
  ⟨h'.coherent, h'.holds, h.later.trans h'.later⟩

/-- A fresh name is bound, to a symbol that `Q` is true of then. -/
theorem Filled.define (hQ : Filling Q) {t t' : Table} {symbol : Symbol} (ht : t.Coherent)
    (hholds : t.Holds Q) (hdefine : t.define symbol = .ok t')
    (hfresh : t.lookup? symbol.name = none) (hsymbol : t.Later t' → Q t' t.current symbol) :
    Filled Q t t' := by
  have hlater := ht.later_define hdefine hfresh
  exact ⟨ht.define hdefine, hholds.define hQ.lasting hdefine hlater (hsymbol hlater), hlater⟩

/-! ## Parts of the walk -/

theorem fills_bindValue (hQ : Filling Q) {name : String} {written : Option Ty} {ty : Ty}
    {e : Expr} {span : Span} (hfills : (Stmt.define name written e span).Fills Q)
    (hfresh : s.table.lookup? name = none) (hty : e.type? s.table = some ty)
    (h : bindValue name ty e span s = .ok () s') : Fills Q s s' := by
  intro hs hholds
  obtain ⟨folded, hfold, table, hdefine, rfl⟩ := bindValue_ok.1 h
  exact .define hQ hs hholds hdefine hfresh fun hlater =>
    hfills hs hholds hty hfold hdefine hlater

theorem fills_simple (hQ : Filling Q) {stmt : Stmt} (hsimple : stmt.isSimple = true)
    (hfills : stmt.Fills Q) : Keeps (Fills Q) (fun _ _ _ => True) stmt.check := by
  refine keeps_of_ok fun s s' hm => ?_
  cases stmt with
  | declare name ty span =>
    rw [Stmt.check, declaration_ok] at hm
    obtain ⟨hfresh, symbol, hsymbol, table, hdefine, rfl⟩ := hm
    intro hs hholds
    have hname : symbol.name = name := (declared?_at hsymbol).1
    exact .define hQ hs hholds hdefine (hname ▸ hfresh) fun _ => hQ.declared hsymbol _ _
  | define name written value span =>
    cases written with
    | some ty =>
      rw [Stmt.check, typedDefinition_ok] at hm
      obtain ⟨hfresh, hfits, hbind⟩ := hm
      exact fills_bindValue hQ hfills hfresh ((Expr.fits_iff_type? _ _ _).1 hfits).2 hbind
    | none =>
      rw [Stmt.check, inferredDefinition_ok] at hm
      obtain ⟨hfresh, ty, hty, -, hbind⟩ := hm
      exact fills_bindValue hQ hfills hfresh hty hbind
  | function | ifChain | whileLoop | block => cases hsimple
  | _ =>
    -- any other statement leaves the table alone
    have hmoves := Stmt.makesMove (P := fun _ => True) hsimple rfl fun _ _ => trivial
    exact fills_of_table_eq (wp_of_ok (hmoves s) hm).table_eq

/-- A scope that was entered is left again. -/
theorem Filled.leave (hQ : Filling Q) {t t' outer : Table} {block : Option Location}
    (ht' : t'.Coherent) (hholds : t'.Holds Q) (hstays : (t.enter block).Stays t')
    (hexit : t'.exit = .ok outer) :
    Filled Q t outer ∧ outer = { t' with current := t.current } := by
  obtain rfl : outer = { t' with current := t.current } := by
    cases hexit.symm.trans hstays.exit
    rfl
  refine ⟨⟨ht'.exit hexit, ?_, Table.later_leave hstays⟩, rfl⟩
  exact hholds.later hQ.lasting (Table.grows_of_outside fun _ _ => rfl)
    (fun _ _ _ hlookup => hlookup) fun k scope hscope symbol hsymbol => .inl ⟨scope, hscope, hsymbol⟩

theorem mem_defineAll {symbols : List Symbol} {k : Nat} {scope : Scope} {other : Symbol}
    (h : defineAll symbols s = .ok () s') (hscope : s'.table.scopes[k]? = some scope)
    (hother : other ∈ scope.symbols) :
    (∃ old : Scope, s.table.scopes[k]? = some old ∧ other ∈ old.symbols) ∨ other ∈ symbols := by
  induction symbols generalizing s with
  | nil =>
    cases h
    exact .inl ⟨scope, hscope, hother⟩
  | cons symbol symbols ih =>
    obtain ⟨table, hdefine, h⟩ := defineAll_cons_ok.1 h
    obtain ⟨old, hold, hmem⟩ | hmem := ih h
    · obtain hold | ⟨-, rfl⟩ := Table.mem_define hdefine hold hmem
      · exact .inl hold
      · exact .inr List.mem_cons_self
    · exact .inr (List.mem_cons_of_mem symbol hmem)

theorem parameters_of_paramSymbols {function : String} {params : List Param}
    {symbols : List Symbol} (h : paramSymbols function params = .ok symbols) :
    ∀ symbol ∈ symbols, ∃ p ∈ params, Symbol.parameter? p.ty p.name p.span = some symbol := by
  induction params generalizing symbols with
  | nil =>
    cases h
    exact nofun
  | cons p params ih =>
    obtain ⟨symbol, rest, hsymbol, hrest, rfl⟩ := paramSymbols_cons_ok.1 h
    rw [List.forall_mem_cons]
    refine ⟨⟨p, List.mem_cons_self, hsymbol⟩, fun other hother => ?_⟩
    obtain ⟨q, hq, hother⟩ := ih hrest other hother
    exact ⟨q, List.mem_cons_of_mem p hq, hother⟩

theorem fills_insideBlock (hQ : Filling Q) {start : Location}
    (hm : Keeps (Fills Q) (fun _ _ _ => True) m) :
    Keeps (Fills Q) (fun _ _ _ => True) (insideBlock start m) := by
  refine keeps_of_ok fun s s' h hs hholds => ?_
  simp only [insideBlock, bind_ok, enterBlock_ok, exitBlock_ok] at h
  obtain ⟨_, s₁, rfl, _, s₂, h₂, outer, hexit, rfl⟩ := h
  have hentered : (s.table.enter (some start)).Holds Q :=
    hholds.later hQ.lasting (Table.enter_grows _ _)
      (Table.persists_of_enter (Table.Stays.refl _).toGrows)
      fun k scope hscope symbol hsymbol => .inl ⟨scope, Table.mem_enter hscope hsymbol, hsymbol⟩
  have hinside := hm.of_ok h₂ (hs.enter _) hentered
  exact (Filled.leave hQ hinside.coherent hinside.holds hinside.later.toStays hexit).1

theorem fills_loopBody {span : Span} (hm : Keeps (Fills Q) (fun _ _ _ => True) m) :
    Keeps (Fills Q) (fun _ _ _ => True) (loopBody span m) := by
  refine keeps_of_ok fun s s' h => ?_
  simp only [loopBody, bind_ok, insideLoop_ok] at h
  obtain ⟨loop, s₂, ⟨s₁, h₁, -, rfl⟩, hreport⟩ := h
  obtain ⟨events, rfl⟩ := reportLoop_ok hreport
  -- only the loops and the events differ behind the body
  have hbody := hm.of_ok h₁
  exact hbody

/-- The body of a function, from behind its head to its end. -/
theorem Filled.body (hQ : Filling Q) (hm : Keeps (Fills Q) (fun _ _ _ => True) m)
    {name : String} {params : List Param} {symbols : List Symbol} {start : Location}
    {context : FunctionContext} {t outer : Table} {s₂ s₃ s₄ : CheckState} (ht : t.Coherent)
    (hholds : t.Holds Q) (hentered : s₂.table = t.enter (some start))
    (hsymbols : paramSymbols name params = .ok symbols) (hparams : defineAll symbols s₂ = .ok () s₃)
    (hbody : m { s₃ with function := some context } = .ok () s₄)
    (hexit : s₄.table.exit = .ok outer) :
    Filled Q t outer ∧ outer.visible = t.visible := by
  have hstays : (t.enter (some start)).Stays s₃.table := by
    rw [← hentered]
    exact Keeps.of_ok (growing_defineAll symbols) hparams
  have hcoherent : s₃.table.Coherent :=
    (defineAll_ok (by rw [hentered]; exact ht.enter _) hparams).1
  have hfilled : s₃.table.Holds Q := by
    refine hholds.later hQ.lasting (Table.grows_of_outside hstays.outside)
      (Table.persists_of_enter hstays.toGrows) fun k scope hscope symbol hsymbol => ?_
    obtain ⟨old, hold, hmem⟩ | hmem := mem_defineAll hparams hscope hsymbol
    · rw [hentered] at hold
      exact .inl ⟨old, Table.mem_enter hold hmem, hmem⟩
    · obtain ⟨p, -, hparameter⟩ := parameters_of_paramSymbols hsymbols symbol hmem
      exact .inr (hQ.parameter hparameter _ _)
  have hinside := hm.of_ok hbody hcoherent hfilled
  have hstays' := hstays.trans hinside.later.toStays
  obtain ⟨hleft, rfl⟩ := Filled.leave hQ hinside.coherent hinside.holds hstays' hexit
  exact ⟨hleft, hstays'.visible_leave ht.current⟩

theorem fills_functionBody (hQ : Filling Q) {name : String} {params : List Param}
    {returns : Option Ty} {body : Block} {span : Span}
    (hm : Keeps (Fills Q) (fun _ _ _ => True) m) :
    Keeps (Fills Q) (fun _ _ _ => True) (functionBody name params returns body span m) := by
  refine keeps_of_ok fun s s' h hs hholds => ?_
  simp only [functionBody, bind_ok] at h
  obtain ⟨⟨symbols, symbol⟩, s₁, h₁, _, s₂, h₂, _, s₃, h₃, context, s₅, h₅, _, s₆, h₆, h₇⟩ := h
  obtain ⟨hbuiltin, hfresh, hparams, hsymbol, table, hhead, rfl⟩ := functionHead_ok.1 h₁
  obtain rfl := enterBlock_ok.1 h₂
  obtain ⟨s₄, h₄, rfl, rfl⟩ := insideFunction_ok.1 h₅
  obtain ⟨outer, hexit, rfl⟩ := exitBlock_ok.1 h₆
  obtain ⟨-, -, -, -, table', htail, rfl⟩ := functionTail_ok.1 h₇
  dsimp only at hsymbol hhead htail
  subst hsymbol
  have hbind {t t' : Table} (ht : t.Coherent) (hholds : t.Holds Q)
      (hdefine : t.define (.function name span symbols (returns.getD .void)) = .ok t')
      (hfresh : t.lookup? name = none) : Filled Q t t' :=
    .define hQ ht hholds hdefine hfresh fun _ => hQ.function hbuiltin span symbols _ _ _
  cases returns with
  | some ty =>
    -- the function is bound before its body
    cases htail
    have hfunction := hbind hs hholds hhead hfresh
    exact hfunction.trans
      (Filled.body hQ hm hfunction.coherent hfunction.holds rfl hparams h₃ h₄ hexit).1
  | none =>
    -- the function is bound behind its body, where its name is as fresh as before
    cases hhead
    obtain ⟨hbody, hvisible⟩ := Filled.body hQ hm hs hholds rfl hparams h₃ h₄ hexit
    refine hbody.trans (hbind hbody.coherent hbody.holds htail ?_)
    rw [Table.lookup?_eq, hvisible, ← Table.lookup?_eq]
    exact hfresh

theorem fills_around (hQ : Filling Q) : Around (Fills Q) fun _ _ _ => True where
  refl _ := fills_of_table_eq rfl
  trans h h' hs hholds :=
    have hfilled := h hs hholds
    hfilled.trans (h' hfilled.coherent hfilled.holds)
  fails _ _ := trivial
  condition construct e span := keeps_of_ok fun s s' hm => by
    rw [(condition_ok.1 hm).2]
    exact fills_of_table_eq rfl
  block hm := fills_insideBlock hQ hm
  loop hm := fills_loopBody hm
  function hm := fills_functionBody hQ hm

end Check

/-- What is true of every symbol where it is bound, and stays true, is true of all symbols in
the table of an accepted program. -/
theorem Program.holds_of_analyze {Q : Table → Nat → Symbol → Prop} {p : Program} {t : Table}
    (hQ : Check.Filling Q) (hp : ∀ stmt ∈ p.simples, stmt.Fills Q) (h : p.analyze = .ok t) :
    t.Holds Q := by
  obtain ⟨s, hcheck, rfl⟩ := analyze_eq_ok.1 h
  have hkeeps := checkAll_around (Check.fills_around hQ) p.statements fun stmt hmem =>
    Check.fills_simple hQ (isSimple_of_mem_all _ _ hmem) (hp stmt hmem)
  exact (hkeeps.of_ok hcheck Table.coherent_empty Table.holds_empty).holds

end Slate
