-- SUMMARY: Functions never take the name of a built-in one; in an accepted program only variables and parameters do.
import Mathlib.Data.List.Basic
import Slate.Proofs.Check.Holding
import Slate.Proofs.Check.Mirror

/-!
# Names of built-in functions

The built-in functions are not symbols of a table, so no scope keeps their names from being
bound. Only the head of a function is checked against them. A declaration of a variable is
checked against what can be seen from it, and a parameter against the other parameters. So what
an accepted program binds to such names are the variables and the parameters that it gives them
to, and nothing else.
-/

namespace Slate

/-! ## Functions -/

/-- The symbol is no function with the name of a built-in one. -/
def Symbol.LeavesBuiltins (symbol : Symbol) : Prop :=
  symbol.isFunction = true → Builtin.isName symbol.name = false

theorem Check.filling_leavesBuiltins :
    Check.Filling fun _ _ symbol => symbol.LeavesBuiltins where
  lasting _ _ _ _ _ _ h := h
  declared := by
    intro ty name span symbol h _ _ hfunction
    cases ty <;> cases h <;> cases hfunction
  parameter := by
    intro ty name span symbol h _ _ hfunction
    cases ty <;> cases h <;> cases hfunction
  function hname _ _ _ _ _ _ := hname

theorem Stmt.fills_leavesBuiltins (stmt : Stmt) :
    stmt.Fills fun _ _ symbol => symbol.LeavesBuiltins := by
  cases stmt with
  | define => exact fun _ _ _ _ _ _ _ _ _ _ hfunction => nomatch hfunction
  | _ => trivial

theorem Program.functions_leaveBuiltins {p : Program} {t : Table} (h : p.analyze = .ok t) :
    ∀ scope ∈ t.scopes, ∀ symbol ∈ scope.symbols, symbol.LeavesBuiltins := by
  intro scope hscope
  obtain ⟨k, hk⟩ := List.getElem?_of_mem hscope
  exact holds_of_analyze Check.filling_leavesBuiltins
    (fun stmt _ => stmt.fills_leavesBuiltins) h k scope hk

/-! ## Variables and parameters -/

/-- The name of the variable that a statement declares in the scope that it stands in. -/
def Stmt.variable? : Stmt → Option String
  | .declare name _ _ => some name
  | .define name _ _ _ => some name
  | _ => none

/-- The names of the parameters and the variables that are declared in a scope. -/
def Outline.variableNames (o : Outline) : List String :=
  o.params.map Param.name ++ o.statements.filterMap Stmt.variable?

variable {p : Program} {t : Table} {k : Nat} {scope : Scope} {o : Outline}

theorem getElem?_shapesFrom (t : Table) (k n : Nat) (outlines : List Outline) :
    (shapesFrom t k outlines)[n]? = outlines[n]?.map (·.shape t (k + n)) := by
  rw [shapesFrom, List.getElem?_map, List.getElem?_zipIdx, Option.map_map]
  rfl

/-- Each scope of the table has the shape of the scope of the program with its number. -/
theorem Program.shape_of_analyze (h : p.analyze = .ok t) (k : Nat) :
    t.scopes[k]?.map Scope.shape = p.outline[k]?.map (·.shape t k) := by
  obtain ⟨s, hcheck, rfl⟩ := analyze_eq_ok.1 h
  have hmirrors := checkAll_mirrored p.statements hcheck Table.coherent_empty
  have hshapes : s.table.shapes = shapesFrom s.table 0 p.outline :=
    hmirrors.shapes s.table (.refl s.table)
  rw [← List.getElem?_map, ← Table.shapes, hshapes, getElem?_shapesFrom, Nat.zero_add]

/-- Functions apart, the statements of a scope bind the names of the variables they declare. -/
theorem names_of_entries {statements : List Stmt}
    (hfunctions : ∀ entry ∈ statements.filterMap (Stmt.entryIn? t), ∀ signature,
      entry.entity = some (.function signature) → Builtin.isName entry.name = false) :
    ((statements.filterMap (Stmt.entryIn? t)).map Entry.name).filter Builtin.isName =
      (statements.filterMap Stmt.variable?).filter Builtin.isName := by
  rw [List.map_filterMap, List.filter_filterMap, List.filter_filterMap]
  refine List.filterMap_congr fun stmt hstmt => ?_
  cases stmt with
  | define name written value span => cases written <;> rfl
  | function name params returns body span =>
    have hname := hfunctions ⟨name, span, some (.function (.written params returns))⟩
      (List.mem_filterMap.2 ⟨_, hstmt, rfl⟩) _ rfl
    exact if_neg (Bool.eq_false_iff.1 hname)
  | _ => rfl

/-- The built-in names that a scope binds are those that its block gives to parameters and to
variables, in their order. -/
theorem Program.builtins_of_scope (h : p.analyze = .ok t) (hscope : t.scopes[k]? = some scope)
    (ho : p.outline[k]? = some o) :
    (scope.symbols.map Symbol.name).filter Builtin.isName =
      o.variableNames.filter Builtin.isName := by
  have hshape : scope.shape = o.shape t k := by
    simpa [hscope, ho] using shape_of_analyze h k
  have hentries : scope.symbols.map Symbol.entry =
      o.params.map Param.entry ++ o.statements.filterMap (Stmt.entryIn? (t.seenFrom k)) :=
    congrArg Shape.entries hshape
  have hfunctions : ∀ entry ∈ scope.symbols.map Symbol.entry, ∀ signature,
      entry.entity = some (.function signature) → Builtin.isName entry.name = false := by
    rw [List.forall_mem_map]
    intro symbol hsymbol signature hentity
    refine functions_leaveBuiltins h scope (List.mem_of_getElem? hscope) symbol hsymbol ?_
    cases symbol with
    | var v => cases hentity
    | function => rfl
  rw [hentries] at hfunctions
  have hstatements := names_of_entries fun entry hentry =>
    hfunctions entry (List.mem_append_right _ hentry)
  calc (scope.symbols.map Symbol.name).filter Builtin.isName
      = ((scope.symbols.map Symbol.entry).map Entry.name).filter Builtin.isName := by
        rw [List.map_map]
        rfl
    _ = ((o.params.map Param.entry).map Entry.name).filter Builtin.isName ++
          (o.statements.filterMap Stmt.variable?).filter Builtin.isName := by
        rw [hentries, List.map_append, List.filter_append, hstatements]
    _ = o.variableNames.filter Builtin.isName := by
        rw [Outline.variableNames, List.filter_append, List.map_map]
        rfl

/-- The names of the parameters and the variables of a program, in whatever scope. -/
def Program.variableNames (p : Program) : List String := p.outline.flatMap Outline.variableNames

theorem Program.mem_builtins_of_scope {name : String} (h : p.analyze = .ok t)
    (hscope : t.scopes[k]? = some scope) (ho : p.outline[k]? = some o)
    (hname : Builtin.isName name = true) :
    (∃ symbol ∈ scope.symbols, symbol.name = name) ↔ name ∈ o.variableNames := by
  have hmem : name ∈ (scope.symbols.map Symbol.name).filter Builtin.isName ↔
      name ∈ o.variableNames.filter Builtin.isName := by
    rw [builtins_of_scope h hscope ho]
  rwa [List.mem_filter, List.mem_filter, and_iff_left hname, and_iff_left hname,
    List.mem_map] at hmem

/-- In the table of an accepted program no function has the name of a built-in one. Such a name
is bound in some scope if, and only if, the program gives it to a variable or a parameter. -/
theorem Program.builtins_bound_iff (h : p.analyze = .ok t) :
    (∀ scope ∈ t.scopes, ∀ symbol ∈ scope.symbols, symbol.isFunction = true →
      Builtin.isName symbol.name = false) ∧
    ∀ name, Builtin.isName name = true →
      ((∃ scope ∈ t.scopes, ∃ symbol ∈ scope.symbols, symbol.name = name) ↔
        name ∈ p.variableNames) := by
  refine ⟨functions_leaveBuiltins h, fun name hname => ?_⟩
  rw [variableNames, List.mem_flatMap]
  constructor
  · rintro ⟨scope, hmem, hbound⟩
    obtain ⟨k, hscope⟩ := List.getElem?_of_mem hmem
    have hshape := shape_of_analyze h k
    rw [hscope] at hshape
    obtain ⟨o, ho, -⟩ := Option.map_eq_some_iff.1 hshape.symm
    exact ⟨o, List.mem_of_getElem? ho, (mem_builtins_of_scope h hscope ho hname).1 hbound⟩
  · rintro ⟨o, hmem, hvariable⟩
    obtain ⟨k, ho⟩ := List.getElem?_of_mem hmem
    have hshape := shape_of_analyze h k
    rw [ho] at hshape
    obtain ⟨scope, hscope, -⟩ := Option.map_eq_some_iff.1 hshape
    exact ⟨scope, List.mem_of_getElem? hscope,
      (mem_builtins_of_scope h hscope ho hname).2 hvariable⟩

namespace Program

/-- A procedure whose parameter has the name of a built-in function, beside such a variable. -/
def borrowing : Program :=
  ⟨[.declare "put" .int ⟨⟨1, 5, 4⟩, ⟨1, 8, 7⟩⟩,
    .function "log" [⟨"exit", .string, ⟨⟨2, 8, 20⟩, ⟨2, 12, 24⟩⟩⟩] none
      (.mk [] ⟨⟨2, 22, 34⟩, ⟨2, 24, 36⟩⟩) ⟨⟨2, 4, 16⟩, ⟨2, 7, 19⟩⟩]⟩

/-- The two names are bound, and no other name of a built-in function is. -/
theorem builtins_bound_iff_borrowing : ∃ t, borrowing.analyze = .ok t ∧
    (∀ scope ∈ t.scopes, ∀ symbol ∈ scope.symbols, symbol.isFunction = true →
      Builtin.isName symbol.name = false) ∧
    ∀ name, Builtin.isName name = true →
      ((∃ scope ∈ t.scopes, ∃ symbol ∈ scope.symbols, symbol.name = name) ↔
        name ∈ ["put", "exit"]) := by
  obtain ⟨t, ht⟩ := exists_analyze (by decide +kernel : borrowing.analyze.toBool = true)
  exact ⟨t, ht, builtins_bound_iff ht⟩

/-- A declaration of a variable is accepted with the name of a built-in function. -/
theorem builtin_name_bound :
    (analyze ⟨[.declare "put" .int ⟨⟨1, 5, 4⟩, ⟨1, 8, 7⟩⟩]⟩).toOption.map
        (fun t => t.scopes.map fun scope => scope.symbols.map Symbol.name) = some [["put"]] ∧
      Builtin.isName "put" = true := by
  decide +kernel

end Program

end Slate
