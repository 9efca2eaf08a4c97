-- SUMMARY: A variable declared in front of a program that never mentions it takes the first place of the global scope and changes nothing else.
import Slate.Proofs.Check.Acceptance
import Slate.Proofs.Check.Incremental

/-!
# An unused declaration

A variable that is declared before everything else takes the first place in the global
scope and moves the others there one place on. Names other than its own are looked up as
before, so the table with it and the table without it cannot be told apart by a program
that never mentions it.
-/

namespace Slate

/-! ## One scope -/

/-- A scope with one more symbol, in front of the others. -/
def Scope.putFirst (symbol : Symbol) (s : Scope) : Scope :=
  { s with
    symbols := symbol :: s.symbols
    index := s.index.map (fun entry => (entry.1, entry.2 + 1)) ++ [(symbol.name, 0)] }

namespace Scope

variable {s : Scope} {symbol : Symbol} {name : String}

theorem lookup_moved (index : List (String × Nat)) (name : String) :
    (index.map fun entry => (entry.1, entry.2 + 1)).lookup name =
      (index.lookup name).map (· + 1) := by
  induction index with
  | nil => rfl
  | cons entry index ih =>
    rw [List.map_cons, List.lookup_cons, List.lookup_cons, ih]
    cases name == entry.1 <;> rfl

/-- The other names lead to the same symbols, each one place on. -/
theorem get?_putFirst (hname : name ≠ symbol.name) :
    (s.putFirst symbol).get? name = s.get? name := by
  simp only [get?, putFirst, List.lookup_append, lookup_moved, List.lookup_cons, List.lookup_nil,
    beq_eq_false_iff_ne.2 hname]
  cases s.index.lookup name <;> rfl

theorem push_putFirst (s : Scope) (symbol other : Symbol) :
    (s.putFirst symbol).push other = (s.push other).putFirst symbol := rfl

end Scope

/-! ## Tables -/

/-- A table with one more symbol in the global scope, in front of the others there. -/
def Table.withFirst (symbol : Symbol) (t : Table) : Table :=
  { t with scopes := t.scopes.modify 0 (·.putFirst symbol) }

namespace Table

variable {t : Table} {symbol : Symbol} {name : String}

/-- A search through the scopes around a scope finds the same if a scope is changed so that
it has the same parent and the search finds the same in it. -/
theorem findSome?_enclosing_modify {β : Type} {f : Scope → Scope} {g : Scope → Option β}
    (hparent : ∀ scope, (f scope).parent = scope.parent) (hg : ∀ scope, g (f scope) = g scope)
    (scopes : List Scope) (k id : Nat) :
    (enclosing (scopes.modify k f) id).findSome? g = (enclosing scopes id).findSome? g := by
  induction id using Nat.strongRecOn with
  | ind id ih =>
    rw [enclosing, enclosing, List.getElem?_modify]
    cases scopes[id]? with
    | none => rfl
    | some scope =>
      generalize hchanged : (if k = id then f scope else scope) = changed
      obtain ⟨hp, hfind⟩ : changed.parent = scope.parent ∧ g changed = g scope := by
        rw [← hchanged]
        split
        · exact ⟨hparent scope, hg scope⟩
        · exact ⟨rfl, rfl⟩
      simp only [Option.map_eq_map, Option.map_some, hchanged, hp]
      cases scope.parent with
      | none => simp only [List.findSome?_cons, hfind]
      | some p =>
        dsimp only
        split
        · next hlt => rw [List.findSome?_cons, List.findSome?_cons, hfind, ih p hlt]
        · simp only [List.findSome?_cons, hfind]

theorem lookup?_withFirst (hname : name ≠ symbol.name) :
    (t.withFirst symbol).lookup? name = t.lookup? name := by
  unfold lookup? lookupWithScope? visible withFirst
  rw [findSome?_enclosing_modify (f := Scope.putFirst symbol) fun _ => rfl]
  intro scope
  rw [Scope.get?_putFirst hname]
  rfl

/-- Where the current scope is, a symbol is in front of the others only if it is the global
one. -/
theorem currentScope?_withFirst :
    (t.withFirst symbol).currentScope? =
      t.currentScope?.map fun scope => if t.current = 0 then scope.putFirst symbol else scope := by
  rw [currentScope?, withFirst, List.getElem?_modify, currentScope?, Option.map_eq_map]
  simp only [eq_comm]

theorem exit_withFirst :
    (t.withFirst symbol).exit = t.exit.map (·.withFirst symbol) := by
  have hparent : (t.withFirst symbol).parent? = t.parent? := by
    rw [parent?, parent?, currentScope?_withFirst]
    cases t.currentScope? with
    | none => rfl
    | some scope => dsimp only [Option.map_some, Option.bind_some]; split <;> rfl
  rw [exit, exit, hparent]
  cases t.parent? <;> rfl

theorem define_withFirst {other : Symbol} (hname : other.name ≠ symbol.name) :
    (t.withFirst symbol).define other = (t.define other).map (·.withFirst symbol) := by
  have hget : (t.withFirst symbol).currentScope?.bind (·.get? other.name) =
      t.currentScope?.bind (·.get? other.name) := by
    rw [currentScope?_withFirst]
    cases t.currentScope? with
    | none => rfl
    | some scope =>
      dsimp only [Option.map_some, Option.bind_some]
      split
      · exact Scope.get?_putFirst hname
      · rfl
  rw [define, define, hget]
  cases t.currentScope?.bind (·.get? other.name) with
  | some existing => rfl
  | none =>
    simp only [withFirst, Except.map]
    congr 2
    by_cases hcurrent : t.current = 0
    · rw [hcurrent, List.modify_modify_eq, List.modify_modify_eq]
      simp only [Function.comp_def, Scope.push_putFirst]
    · rw [List.modify_modify_ne]
      exact Ne.symm hcurrent

theorem enter_withFirst (hscopes : t.scopes ≠ []) (block : Option Location) :
    (t.withFirst symbol).enter block = (t.enter block).withFirst symbol := by
  cases hlist : t.scopes with
  | nil => exact absurd hlist hscopes
  | cons scope scopes => simp [enter, withFirst, hlist]

/-- The second table has the symbol in front of what the first one holds. -/
def FirstAdded (symbol : Symbol) (t t' : Table) : Prop :=
  t.scopes ≠ [] ∧ t' = t.withFirst symbol

/-- A table with one more symbol in front cannot be told from the table without it by names
that are not the symbol's. -/
theorem bisimulation_firstAdded (symbol : Symbol) :
    Bisimulation (· ≠ symbol.name) (FirstAdded symbol) where
  agree := by
    rintro t _ ⟨-, rfl⟩ name hname
    exact lookup?_withFirst hname
  count := by
    rintro t _ ⟨-, rfl⟩
    exact List.length_modify ..
  current := by
    rintro t _ ⟨-, rfl⟩
    rfl
  enter := by
    rintro t _ ⟨hscopes, rfl⟩ block
    exact ⟨by simp [enter], enter_withFirst hscopes block⟩
  exit := by
    rintro t _ ⟨hscopes, rfl⟩
    rw [exit_withFirst]
    cases hexit : t.exit with
    | error d => exact .error d
    | ok outer =>
      refine .ok ⟨?_, rfl⟩
      unfold exit at hexit
      split at hexit <;> cases hexit
      exact hscopes
  define := by
    rintro t _ ⟨hscopes, rfl⟩ other hname
    rw [define_withFirst hname]
    cases hdefine : t.define other with
    | error d => exact .error d
    | ok outer =>
      refine .ok ⟨?_, rfl⟩
      unfold define at hdefine
      split at hdefine <;> cases hdefine
      simpa using hscopes

theorem define_empty (symbol : Symbol) :
    Table.empty.define symbol = .ok (Table.empty.withFirst symbol) := rfl

end Table

/-! ## Programs -/

/-- The state behind a declaration with which a program begins. -/
def CheckState.declared (name : String) (ty : Ty) (symbol : Symbol) : CheckState :=
  { CheckState.start (Table.empty.withFirst symbol) with events := #[.declare name ty] }

/-- The declaration finds the global scope empty. -/
theorem Stmt.check_declare_start {name : String} {ty : Ty} {span : Span} {symbol : Symbol}
    (hsymbol : Symbol.declared? ty name span = some symbol) :
    (Stmt.declare name ty span).check (.start .empty) = .ok () (.declared name ty symbol) := by
  have hfresh : Table.empty.lookup? name = none := by
    rw [Table.lookup?, Table.lookupWithScope?, Table.visible_empty]
    rfl
  rw [Stmt.check]
  exact Check.declaration_ok.2 ⟨hfresh, symbol, hsymbol, _, Table.define_empty symbol, rfl⟩

theorem related_declared (name : String) (ty : Ty) (symbol : Symbol) :
    (CheckState.start .empty).Related (Table.FirstAdded symbol) #[.declare name ty]
      (.declared name ty symbol) where
  table := ⟨List.cons_ne_nil _ _, rfl⟩
  function := rfl
  loops := rfl
  events := rfl

namespace Program

/-- A variable that is declared in front of a program which never mentions its name makes no
difference but for the first place of the global scope: the same error, or the same table
otherwise. -/
theorem analyze_declare {name : String} {ty : Ty} (hty : ty ≠ .void) {p : Program}
    (hname : name ∉ p.names) (span : Span) :
    ∃ symbol, Symbol.declared? ty name span = some symbol ∧
      analyze ⟨.declare name ty span :: p.statements⟩ = p.analyze.map (·.withFirst symbol) := by
  obtain ⟨symbol, hsymbol⟩ := Check.exists_declared? hty name span
  refine ⟨symbol, hsymbol, ?_⟩
  have hnames : ∀ other ∈ p.names, other ≠ symbol.name := by
    rw [(Check.declared?_at hsymbol).1]
    rintro other hother rfl
    exact hname hother
  have hwhole : checkAll (.declare name ty span :: p.statements) (.start .empty) =
      checkAll p.statements (.declared name ty symbol) := by
    rw [checkAll, bind_of_ok (Stmt.check_declare_start hsymbol)]
  have hrun := checkAll_alike (Table.bisimulation_firstAdded symbol) p.statements hnames
    (related_declared name ty symbol)
  rw [← hwhole] at hrun
  generalize halone : checkAll p.statements (.start .empty) = r,
    hboth : checkAll (.declare name ty span :: p.statements) (.start .empty) = r' at hrun
  cases hrun with
  | ok _ related =>
    simp only [analyze, outcome, checkFrom_of_ok halone, checkFrom_of_ok (p := ⟨_⟩) hboth]
    rw [related.table.2]
    rfl
  | error d related =>
    simp only [analyze, outcome, checkFrom_of_error halone, checkFrom_of_error (p := ⟨_⟩) hboth]
    rfl

/-- A variable in front of a function and a loop that do without it. -/
theorem analyze_declare_doubling :
    Ty.string ≠ .void ∧ "spare" ∉ (doubling default).names ∧
      ∃ symbol, Symbol.declared? .string "spare" default = some symbol ∧
        analyze ⟨.declare "spare" .string default :: (doubling default).statements⟩ =
          (doubling default).analyze.map (·.withFirst symbol) := by
  have hty : Ty.string ≠ .void := nofun
  have hname : "spare" ∉ (doubling default).names := by decide +kernel
  exact ⟨hty, hname, analyze_declare hty hname default⟩

end Program

end Slate
