-- SUMMARY: The finished symbol table mirrors the program: a scope for each block in the order of a walk, a symbol for each declaration.
import Slate.Proofs.Check.Function
import Slate.Proofs.Scope.Later

/-!
# The table mirrors the program

What the finished table of an accepted program looks like is read off the program
alone. A walk over the program meets its blocks in order; each block has a scope, whose
number is its place in that order, and the symbols of a scope are the parameters and
the declarations of its block. Only the type of a variable that takes it from its
initializer asks for the table, as seen from the scope of the declaration.

The checker keeps the table in step with the walk. `Mirrors` states what a part of the
walk adds: symbols to the current scope, and scopes behind all others.
-/

namespace Slate

/-! ## What the program says -/

/-- What a declaration says of its name. The entity is missing if the declaration leaves
the type to an initializer that has none. -/
structure Entry where
  name : String
  span : Span
  entity : Option Entity
deriving DecidableEq, Repr

def Symbol.entry (s : Symbol) : Entry := ⟨s.name, s.span, some s.entity⟩

def Param.entry (p : Param) : Entry := ⟨p.name, p.span, some (.variable p.ty)⟩

/-- What a statement declares in the scope that it stands in; `t` is the table as seen
from there. -/
def Stmt.entryIn? (t : Table) : Stmt → Option Entry
  | .declare name ty span => some ⟨name, span, some (.variable ty)⟩
  | .define name (some ty) _ span => some ⟨name, span, some (.variable ty)⟩
  | .define name none value span => some ⟨name, span, (value.type? t).map .variable⟩
  | .function name params returns _ span =>
    some ⟨name, span, some (.function (.written params returns))⟩
  | _ => none

/-- What the program says of a scope: the scope around it and the place where its block
begins, if there is one, the parameters that it holds, and the statements directly in it. -/
structure Outline where
  parent : Option Nat
  block : Option Location
  params : List Param
  statements : List Stmt

mutual

/-- The scopes of a statement that stands in the scope `parent`, if the first of them
has the number `next`. -/
def Stmt.outline (parent next : Nat) : Stmt → List Outline
  | .function _ params _ body _ => body.outline parent next params
  | .ifChain branches otherwise _ =>
    let inner := branchesOutline parent next branches
    inner ++ match otherwise with
      | some body => body.outline parent (next + inner.length) []
      | none => []
  | .whileLoop _ body _ => body.outline parent next []
  | .block body => body.outline parent next []
  | _ => []

/-- The scope of a block, which also holds the parameters, and those inside it. -/
def Block.outline (parent next : Nat) (params : List Param) : Block → List Outline
  | .mk statements span =>
    { parent := some parent, block := some span.start, params, statements } ::
      outlineAll next (next + 1) statements

/-- The scopes of statements that stand in one scope, one statement behind the other. -/
def outlineAll (parent next : Nat) : List Stmt → List Outline
  | [] => []
  | s :: ss =>
    let inner := s.outline parent next
    inner ++ outlineAll parent (next + inner.length) ss

/-- The scopes of the branches of an `if` chain. -/
def branchesOutline (parent next : Nat) : List Branch → List Outline
  | [] => []
  | .mk _ body _ :: branches =>
    let inner := body.outline parent next []
    inner ++ branchesOutline parent (next + inner.length) branches

end

/-- The scopes of a program, the global one first. -/
def Program.outline (p : Program) : List Outline :=
  { parent := none, block := none, params := [], statements := p.statements } ::
    outlineAll 0 1 p.statements

/-! ## What a table shows -/

/-- A scope as far as the program decides it. -/
structure Shape where
  id : Nat
  parent : Option Nat
  block : Option Location
  entries : List Entry
deriving DecidableEq, Repr

def Scope.shape (s : Scope) : Shape := ⟨s.id, s.parent, s.block, s.symbols.map Symbol.entry⟩

/-- The shape of the scope of number `k` in the table `t`. -/
def Outline.shape (t : Table) (o : Outline) (k : Nat) : Shape where
  id := k
  parent := o.parent
  block := o.block
  entries := o.params.map Param.entry ++ o.statements.filterMap (Stmt.entryIn? (t.seenFrom k))

/-- The shapes of scopes in the table `t`, numbered from `k` on. -/
def shapesFrom (t : Table) (k : Nat) (outlines : List Outline) : List Shape :=
  (outlines.zipIdx k).map fun (o, i) => o.shape t i

def Table.shapes (t : Table) : List Shape := t.scopes.map Scope.shape

/-- A shape with more entries, behind the others. -/
def Shape.add (s : Shape) (entries : List Entry) : Shape :=
  { s with entries := s.entries ++ entries }

theorem Shape.add_nil (s : Shape) : s.add [] = s := by
  rw [add, List.append_nil]

theorem Shape.add_add (s : Shape) (entries more : List Entry) :
    (s.add entries).add more = s.add (entries ++ more) := by
  rw [add, add, add, List.append_assoc]

theorem Scope.shape_push (s : Scope) (symbol : Symbol) :
    (s.push symbol).shape = s.shape.add [symbol.entry] := by
  simp [shape, push, Shape.add]

theorem shapesFrom_append (t : Table) (k : Nat) (outlines more : List Outline) :
    shapesFrom t k (outlines ++ more) =
      shapesFrom t k outlines ++ shapesFrom t (k + outlines.length) more := by
  rw [shapesFrom, List.zipIdx_append, List.map_append]
  rfl

theorem length_shapesFrom (t : Table) (k : Nat) (outlines : List Outline) :
    (shapesFrom t k outlines).length = outlines.length := by
  simp [shapesFrom]

theorem Table.length_shapes (t : Table) : t.shapes.length = t.scopes.length := List.length_map _

/-! ## Parts of the walk -/

section lists

variable {α : Type} {f : α → α} {l more : List α} {i : Nat} {a : α}

theorem modify_append_of_lt (h : i < l.length) : (l ++ more).modify i f = l.modify i f ++ more := by
  refine List.ext_getElem? fun j => ?_
  rw [List.getElem?_modify, List.getElem?_append, List.getElem?_append, List.length_modify,
    List.getElem?_modify]
  by_cases hj : i = j
  · subst hj
    simp [h]
  · simp [hj]

theorem modify_concat (h : i = l.length) : (l ++ [a]).modify i f = l ++ [f a] := by
  simp [h, List.modify_eq_take_drop]

end lists

theorem Check.parameter?_entry {p : Param} {symbol : Symbol}
    (h : Symbol.parameter? p.ty p.name p.span = some symbol) : symbol.entry = p.entry := by
  obtain ⟨name, ty, span⟩ := p
  cases ty <;> cases h <;> rfl

theorem Check.functionHead_entry {name : String} {params : List Param} {returns : Option Ty}
    {span : Span} {head : List Symbol × Symbol} {s s' : CheckState}
    (h : functionHead name params returns span s = .ok head s') :
    head.2.entry = ⟨name, span, some (.function (.written params returns))⟩ := by
  obtain ⟨-, hname, hentity⟩ := functionHead_symbol h
  obtain ⟨-, -, -, hsymbol, -⟩ := functionHead_ok.1 h
  have hspan : head.2.span = span := by
    rw [hsymbol]
    rfl
  rw [Symbol.entry, hname, hspan, hentity]

theorem Check.declared?_entry {ty : Ty} {name : String} {span : Span} {symbol : Symbol}
    (h : Symbol.declared? ty name span = some symbol) :
    symbol.entry = ⟨name, span, some (.variable ty)⟩ := by
  cases ty <;> cases h <;> rfl

open Table (enclosing Persists)

/-- The table `s'` is `s` with the declarations of the statements in its current scope
and the scopes of the outlines behind all others. -/
structure Mirrors (s s' : Table) (statements : List Stmt) (outlines : List Outline) : Prop where
  coherent : s'.Coherent
  current : s'.current = s.current
  persists : s.Persists s'
  below : ∀ k < s.current, enclosing s'.scopes k = enclosing s.scopes k
  shapes : ∀ t, s'.Persists t → s'.shapes =
    s.shapes.modify s.current
      (·.add (statements.filterMap (Stmt.entryIn? (t.seenFrom s.current)))) ++
    shapesFrom t s.scopes.length outlines

variable {s s' s'' : Table} {statements more : List Stmt} {outlines inner : List Outline}

theorem shapes_define {symbol : Symbol} (hs : s.Coherent) (hdefine : s.define symbol = .ok s') :
    s'.shapes = s.shapes.modify s.current (·.add [symbol.entry]) := by
  obtain ⟨-, -, -, rfl⟩ := hs.define_eq_ok.1 hdefine
  refine List.ext_getElem? fun k => ?_
  simp only [Table.shapes, List.getElem?_map, List.getElem?_modify, Option.map_eq_map,
    Option.map_map]
  congr 1
  funext scope
  simp only [Function.comp_apply]
  split
  · exact scope.shape_push symbol
  · rfl

namespace Mirrors

theorem length (h : Mirrors s s' statements outlines) :
    s'.scopes.length = s.scopes.length + outlines.length := by
  have hshapes := congrArg List.length (h.shapes s' (.refl s'))
  rwa [List.length_append, List.length_modify, length_shapesFrom, Table.length_shapes,
    Table.length_shapes] at hshapes

theorem refl (h : s.Coherent) : Mirrors s s [] [] where
  coherent := h
  current := rfl
  persists := .refl s
  below _ _ := rfl
  shapes t _ := by
    simp only [List.filterMap_nil, Shape.add_nil, shapesFrom, List.zipIdx_nil, List.map_nil,
      List.append_nil]
    exact (List.modify_id _ _).symm

theorem trans (hs : s.Coherent) (h : Mirrors s s' statements outlines)
    (h' : Mirrors s' s'' more inner) : Mirrors s s'' (statements ++ more) (outlines ++ inner) where
  coherent := h'.coherent
  current := h'.current.trans h.current
  persists := h.persists.trans h'.persists
  below k hk := (h'.below k (h.current ▸ hk)).trans (h.below k hk)
  shapes t ht := by
    have hlt : s.current < (s.shapes.modify s.current (·.add
        (statements.filterMap (Stmt.entryIn? (t.seenFrom s.current))))).length := by
      rw [List.length_modify, Table.length_shapes]
      exact hs.current
    rw [h'.shapes t ht, h.shapes t (h'.persists.trans ht), h.current, h.length,
      modify_append_of_lt hlt, List.modify_modify_eq, List.append_assoc, ← shapesFrom_append,
      List.filterMap_append]
    simp only [Function.comp_def, Shape.add_add]

/-- A statement that declares nothing adds the scopes inside it only. -/
theorem silent {stmt : Stmt} (h : Mirrors s s' [] outlines) (hentry : ∀ t, stmt.entryIn? t = none) :
    Mirrors s s' [stmt] outlines where
  coherent := h.coherent
  current := h.current
  persists := h.persists
  below := h.below
  shapes t ht := by
    rw [h.shapes t ht, List.filterMap_cons_none (hentry _)]

/-- A statement that declares a fresh name binds it. -/
theorem define {stmt : Stmt} {symbol : Symbol} (hs : s.Coherent)
    (hdefine : s.define symbol = .ok s') (hfresh : s.lookup? symbol.name = none)
    (hentry : ∀ t, s.Persists t → stmt.entryIn? (t.seenFrom s.current) = some symbol.entry) :
    Mirrors s s' [stmt] [] where
  coherent := hs.define hdefine
  current := by
    obtain ⟨-, -, -, rfl⟩ := hs.define_eq_ok.1 hdefine
    rfl
  persists := hs.persists_define hdefine hfresh
  below k hk := by
    obtain ⟨-, -, -, rfl⟩ := hs.define_eq_ok.1 hdefine
    exact Table.enclosing_modify hk
  shapes t ht := by
    have hentry := hentry t ((hs.persists_define hdefine hfresh).trans ht)
    rw [List.filterMap_cons_some hentry, shapes_define hs hdefine]
    simp [shapesFrom]

end Mirrors

/-- The table `e` is `s` with the scope of a block entered, and the parameters bound in it. -/
structure Entered (s e : Table) (start : Location) (params : List Param) : Prop where
  coherent : e.Coherent
  current : e.current = s.scopes.length
  around : ∀ k < s.scopes.length, enclosing e.scopes k = enclosing s.scopes k
  shapes : e.shapes = s.shapes ++
    [⟨s.scopes.length, some s.current, some start, params.map Param.entry⟩]

namespace Entered

variable {e e' outer : Table} {start : Location} {params : List Param}

theorem enter (hs : s.Coherent) : Entered s (s.enter (some start)) start [] where
  coherent := hs.enter _
  current := rfl
  around k hk := Table.enclosing_append hk
  shapes := by
    simp [Table.shapes, Table.enter, Scope.shape, Scope.empty]

/-- Parameters may hide what is declared around the function. -/
theorem define {p : Param} {symbol : Symbol} (h : Entered s e start params)
    (hdefine : e.define symbol = .ok e') (hentry : symbol.entry = p.entry) :
    Entered s e' start (params ++ [p]) where
  coherent := h.coherent.define hdefine
  current := by
    obtain ⟨-, -, -, rfl⟩ := h.coherent.define_eq_ok.1 hdefine
    exact h.current
  around k hk := by
    obtain ⟨-, -, -, rfl⟩ := h.coherent.define_eq_ok.1 hdefine
    rw [Table.enclosing_modify (h.current ▸ hk), h.around k hk]
  shapes := by
    rw [shapes_define h.coherent hdefine, h.shapes, h.current,
      modify_concat s.length_shapes.symm, hentry, List.map_append]
    rfl

theorem length (h : Entered s e start params) : e.scopes.length = s.scopes.length + 1 := by
  rw [← Table.length_shapes, h.shapes, List.length_append, Table.length_shapes]
  rfl

/-- What the table shows at the end of the block. -/
theorem shapes_inside (h : Entered s e start params) (hm : Mirrors e e' statements outlines)
    {t : Table} (ht : e'.Persists t) :
    e'.shapes = s.shapes ++ shapesFrom t s.scopes.length
      ({ parent := some s.current, block := some start, params, statements } :: outlines) := by
  rw [hm.shapes t ht, h.length, h.shapes, h.current, modify_concat s.length_shapes.symm,
    List.append_assoc]
  rfl

/-- Behind a block, its scope and those inside it have been added. -/
theorem exit (hs : s.Coherent) (h : Entered s e start params)
    (hm : Mirrors e e' statements outlines) (hexit : e'.exit = .ok outer) :
    Mirrors s outer []
      ({ parent := some s.current, block := some start, params, statements } :: outlines) ∧
      enclosing outer.scopes s.current = enclosing s.scopes s.current := by
  have hparent : e'.parent? = some s.current := by
    have hshapes := h.shapes_inside hm (.refl e')
    have hget : (e'.shapes[e'.current]?).bind Shape.parent = some s.current := by
      rw [hshapes, hm.current, h.current, ← Table.length_shapes]
      simp [shapesFrom, Outline.shape]
    rw [Table.shapes, List.getElem?_map] at hget
    rw [Table.parent?, Table.currentScope?]
    cases hscope : e'.scopes[e'.current]? with
    | none => simp [hscope] at hget
    | some scope => simpa [hscope, Scope.shape] using hget
  obtain rfl : outer = { e' with current := s.current } := by
    rw [Table.exit, hparent] at hexit
    cases hexit
    rfl
  have haround : ∀ k < s.scopes.length, enclosing e'.scopes k = enclosing s.scopes k := by
    intro k hk
    rw [hm.below k (h.current ▸ hk), h.around k hk]
  refine ⟨?_, haround s.current hs.current⟩
  exact
    { coherent := hm.coherent.exit hexit
      current := rfl
      persists := Table.persists_of_enclosing haround
      below := fun k hk => haround k (Nat.lt_trans hk hs.current)
      shapes := by
        intro t ht
        refine (h.shapes_inside hm ht).trans ?_
        simp only [List.filterMap_nil, Shape.add_nil]
        exact congrArg (· ++ _) (List.modify_id _ _).symm }

end Entered

/-! ## The walk -/

namespace Check

variable {m n : CheckM Unit} {scopesOf othersOf : Nat → Nat → List Outline}

/-- From a coherent table, the part of the walk adds the declarations of the statements
to the current scope and these scopes behind all others, whatever their numbers are. -/
def Mirrored (m : CheckM Unit) (statements : List Stmt) (scopesOf : Nat → Nat → List Outline) :
    Prop :=
  ∀ ⦃s s' : CheckState⦄, m s = .ok () s' → s.table.Coherent →
    Mirrors s.table s'.table statements (scopesOf s.table.current s.table.scopes.length)

namespace Mirrored

theorem done : Mirrored (pure ()) [] fun _ _ => [] := by
  intro s s' h hs
  obtain ⟨-, rfl⟩ := pure_ok.1 h
  exact .refl hs

theorem seq (h : Mirrored m statements scopesOf) (hn : Mirrored n more othersOf) :
    Mirrored (m >>= fun _ => n) (statements ++ more) fun parent next =>
      scopesOf parent next ++ othersOf parent (next + (scopesOf parent next).length) := by
  intro s s' hm hs
  obtain ⟨_, s₁, hm₁, hm₂⟩ := bind_ok.1 hm
  have h₁ := h hm₁ hs
  have h₂ := hn hm₂ h₁.coherent
  rw [h₁.current, h₁.length] at h₂
  exact h₁.trans hs h₂

theorem after_conditions {branches : List Branch} (h : Mirrored m statements scopesOf) :
    Mirrored (conditions branches >>= fun _ => m) statements scopesOf := by
  intro s s' hm hs
  obtain ⟨_, s₁, hm₁, hm₂⟩ := bind_ok.1 hm
  obtain ⟨-, rfl⟩ := conditions_ok.1 hm₁
  exact h hm₂ hs

theorem after_condition {construct : Construct} {e : Expr} {span : Span}
    (h : Mirrored m statements scopesOf) :
    Mirrored (condition construct e span >>= fun _ => m) statements scopesOf := by
  intro s s' hm hs
  obtain ⟨_, s₁, hm₁, hm₂⟩ := bind_ok.1 hm
  obtain ⟨-, rfl⟩ := condition_ok.1 hm₁
  exact h hm₂ hs

theorem silent {stmt : Stmt} (h : Mirrored m [] scopesOf) (hentry : ∀ t, stmt.entryIn? t = none) :
    Mirrored m [stmt] scopesOf := fun _ _ hm hs => (h hm hs).silent hentry

theorem bindValue {name : String} {ty : Ty} {e : Expr} {span : Span} {stmt : Stmt}
    {s s' : CheckState} (hm : bindValue name ty e span s = .ok () s') (hs : s.table.Coherent)
    (hfresh : s.table.lookup? name = none)
    (hentry : ∀ t, s.table.Persists t →
      stmt.entryIn? (t.seenFrom s.table.current) = some ⟨name, span, some (.variable ty)⟩) :
    Mirrors s.table s'.table [stmt] [] := by
  obtain ⟨folded, hfold, table, hdefine, rfl⟩ := bindValue_ok.1 hm
  refine .define hs hdefine hfresh fun t ht => (hentry t ht).trans ?_
  rw [← fold?_ty hfold]
  rfl

/-- Statements without statements inside have no scopes. -/
theorem simple {stmt : Stmt} (h : stmt.isSimple = true) :
    Mirrored stmt.check [stmt] fun parent next => stmt.outline parent next := by
  intro s s' hm hs
  cases stmt with
  | needs module span =>
    rw [Stmt.check, emit_ok] at hm
    subst hm
    exact (Mirrors.refl hs).silent fun _ => rfl
  | declare name ty span =>
    rw [Stmt.check, declaration_ok] at hm
    obtain ⟨hfresh, symbol, hsymbol, table, hdefine, rfl⟩ := hm
    have hentry := declared?_entry hsymbol
    have hname : symbol.name = name := congrArg Entry.name hentry
    exact .define hs hdefine (hname ▸ hfresh) fun _ _ => congrArg some hentry.symm
  | define name written value span =>
    cases written with
    | some ty =>
      rw [Stmt.check, typedDefinition_ok] at hm
      exact bindValue hm.2.2 hs hm.1 fun _ _ => rfl
    | none =>
      rw [Stmt.check, inferredDefinition_ok] at hm
      obtain ⟨hfresh, ty, hty, -, hbind⟩ := hm
      refine bindValue hbind hs hfresh fun t ht => ?_
      -- the type that was found is found again in every later table
      have hlater : value.type? (t.seenFrom s.table.current) = some ty := ht.type? hty
      rw [Stmt.entryIn?, hlater]
      rfl
  | assign name value span =>
    rw [Stmt.check, assignment_ok] at hm
    obtain ⟨v, -, -, rfl⟩ := hm
    exact (Mirrors.refl hs).silent fun _ => rfl
  | ret value span =>
    rw [Stmt.check, ret_ok] at hm
    obtain ⟨c, -, -, rfl⟩ := hm
    exact (Mirrors.refl hs).silent fun _ => rfl
  | breakLoop span =>
    rw [Stmt.check, breakLoop_ok] at hm
    obtain ⟨loop, outer, -, rfl⟩ := hm
    exact (Mirrors.refl hs).silent fun _ => rfl
  | continueLoop span =>
    rw [Stmt.check, continueLoop_ok] at hm
    rw [hm.2]
    exact (Mirrors.refl hs).silent fun _ => rfl
  | expression value span =>
    rw [Stmt.check, expressionStatement_ok] at hm
    rw [hm.2]
    exact (Mirrors.refl hs).silent fun _ => rfl
  | error text reason span =>
    rw [Stmt.check] at hm
    exact absurd hm refuse_ok
  | function | ifChain | whileLoop | block => cases h

theorem loopBody {span : Span} (h : Mirrored m statements scopesOf) :
    Mirrored (loopBody span m) statements scopesOf := by
  intro s s' hm hs
  simp only [Check.loopBody, bind_ok, insideLoop_ok] at hm
  obtain ⟨loop, s₂, ⟨s₁, h₁, -, rfl⟩, hreport⟩ := hm
  obtain ⟨events, rfl⟩ := reportLoop_ok hreport
  -- only the loops and the events differ behind the body
  have hbody := h h₁ hs
  exact hbody

/-- The part of the walk that stands between the two ends of a scope. -/
theorem inside {t outer : Table} {s s' : CheckState} {start : Location} {params : List Param}
    (h : Mirrored m statements scopesOf) (ht : t.Coherent) (hm : m s = .ok () s')
    (hentered : Entered t s.table start params)
    (hexit : s'.table.exit = .ok outer) :
    Mirrors t outer []
      ({ parent := some t.current, block := some start, params, statements } ::
        scopesOf t.scopes.length (t.scopes.length + 1)) ∧
      enclosing outer.scopes t.current = enclosing t.scopes t.current := by
  have hinside := h hm hentered.coherent
  rw [hentered.current, hentered.length] at hinside
  exact hentered.exit ht hinside hexit

theorem insideBlock {start : Location} (h : Mirrored m statements scopesOf) :
    Mirrored (insideBlock start m) [] fun parent next =>
      { parent := some parent, block := some start, params := [], statements } ::
        scopesOf next (next + 1) := by
  intro s s' hm hs
  simp only [Check.insideBlock, bind_ok, enterBlock_ok, exitBlock_ok] at hm
  obtain ⟨_, s₁, rfl, _, s₂, h₂, outer, hexit, rfl⟩ := hm
  exact (h.inside hs h₂ (.enter hs) hexit).1

/-- The parameters are the first symbols of the scope of the body. -/
theorem defineAll_entered {function : String} {params bound : List Param} {symbols : List Symbol}
    {start : Location} {t : Table} {s s' : CheckState}
    (hparams : paramSymbols function params = .ok symbols)
    (hentered : Entered t s.table start bound) (h : defineAll symbols s = .ok () s') :
    Entered t s'.table start (bound ++ params) := by
  induction params generalizing symbols bound s with
  | nil =>
    cases hparams
    obtain ⟨-, rfl⟩ := pure_ok.1 h
    rwa [List.append_nil]
  | cons p params ih =>
    obtain ⟨symbol, rest, hsymbol, hrest, rfl⟩ := paramSymbols_cons_ok.1 hparams
    obtain ⟨table, hdefine, h⟩ := defineAll_cons_ok.1 h
    rw [← List.singleton_append, ← List.append_assoc]
    exact ih hrest (hentered.define hdefine (parameter?_entry hsymbol)) h

theorem functionBody {name : String} {params : List Param} {returns : Option Ty} {body : Block}
    {span : Span} (h : Mirrored m statements scopesOf) :
    Mirrored (functionBody name params returns body span m)
      [.function name params returns body span] fun parent next =>
        { parent := some parent, block := some body.span.start, params, statements } ::
          scopesOf next (next + 1) := by
  intro s s' hm hs
  simp only [Check.functionBody, bind_ok] at hm
  obtain ⟨⟨symbols, symbol⟩, s₁, h₁, _, s₂, h₂, _, s₃, h₃, context, s₅, h₅, _, s₆, h₆, h₇⟩ := hm
  have hname : symbol.name = name := congrArg Entry.name (functionHead_entry h₁)
  have hentry (t : Table) :
      (Stmt.function name params returns body span).entryIn? t = some symbol.entry :=
    congrArg some (functionHead_entry h₁).symm
  obtain ⟨-, hfresh, hparams, -, table, hhead, rfl⟩ := functionHead_ok.1 h₁
  obtain rfl := enterBlock_ok.1 h₂
  obtain ⟨s₄, h₄, rfl, rfl⟩ := insideFunction_ok.1 h₅
  obtain ⟨outer, hexit, rfl⟩ := exitBlock_ok.1 h₆
  obtain ⟨-, -, -, -, table', htail, rfl⟩ := functionTail_ok.1 h₇
  have hbody (htable : table.Coherent) :
      Mirrors table outer []
        (⟨some table.current, some body.span.start, params, statements⟩ ::
          scopesOf table.scopes.length (table.scopes.length + 1)) ∧
      enclosing outer.scopes table.current = enclosing table.scopes table.current := by
    have hentered := defineAll_entered hparams (Entered.enter htable) h₃
    exact h.inside htable h₄ hentered hexit
  cases returns with
  | some ty =>
    -- the function is bound before its body
    cases htail
    have hfunction : Mirrors s.table table _ [] :=
      .define hs hhead (hname ▸ hfresh) fun _ _ => hentry _
    have hbody := (hbody hfunction.coherent).1
    rw [hfunction.current, hfunction.length] at hbody
    exact hfunction.trans hs hbody
  | none =>
    -- the function is bound behind its body, where its name is as fresh as before
    cases hhead
    obtain ⟨hbody, haround⟩ := hbody hs
    have hfresh' : outer.lookup? symbol.name = none := by
      rw [Table.lookup?_eq] at hfresh ⊢
      rw [hname, Table.visible, hbody.current, haround]
      exact hfresh
    have hlate : Mirrors outer table' [_] [] :=
      .define hbody.coherent htail hfresh' fun _ _ => hentry _
    have hboth := hbody.trans hs hlate
    rw [List.append_nil] at hboth
    exact hboth

end Mirrored

end Check

open Check in
mutual

theorem Stmt.check_mirrored : (stmt : Stmt) →
    Mirrored stmt.check [stmt] fun parent next => stmt.outline parent next
  | .function name params returns (.mk statements bodySpan) span => by
    rw [Stmt.check_function]
    exact .functionBody (checkAll_mirrored statements)
  | .ifChain branches none _ => by
    rw [Stmt.check]
    exact .silent (.after_conditions ((checkBranches_mirrored branches).seq .done)) fun _ => rfl
  | .ifChain branches (some body) _ => by
    rw [Stmt.check]
    exact .silent (.after_conditions ((checkBranches_mirrored branches).seq body.check_mirrored))
      fun _ => rfl
  | .whileLoop test body span => by
    rw [Stmt.check_whileLoop]
    exact .silent (.after_condition body.check_mirrored.loopBody) fun _ => rfl
  | .block body => by
    rw [Stmt.check]
    exact .silent body.check_mirrored fun _ => rfl
  | .needs .. | .declare .. | .define .. | .assign .. | .ret .. | .breakLoop _
  | .continueLoop _ | .expression .. | .error .. => .simple rfl

theorem Block.check_mirrored : (body : Block) →
    Mirrored body.check [] fun parent next => body.outline parent next []
  | .mk statements span => by
    rw [Block.check_eq]
    exact .insideBlock (checkAll_mirrored statements)

theorem checkAll_mirrored : (statements : List Stmt) →
    Mirrored (checkAll statements) statements fun parent next =>
      outlineAll parent next statements
  | [] => .done
  | stmt :: statements => by
    rw [checkAll]
    exact stmt.check_mirrored.seq (checkAll_mirrored statements)

theorem checkBranches_mirrored : (branches : List Branch) →
    Mirrored (checkBranches branches) [] fun parent next => branchesOutline parent next branches
  | [] => .done
  | .mk _ body _ :: branches => by
    rw [checkBranches]
    exact body.check_mirrored.seq (checkBranches_mirrored branches)

end

/-! ## Finished tables -/

/-- The table of an accepted program is left in the global scope, and its scopes are
those of the program: one for each block in the order of a walk, each with the place
where its block begins and the number of the scope around it, and each with the
parameters and the declarations of its block in their order. -/
theorem Program.analyze_mirrors {p : Program} {t : Table} (h : p.analyze = .ok t) :
    t.current = 0 ∧ t.depth = 0 ∧ t.shapes = shapesFrom t 0 p.outline := by
  obtain ⟨s, hcheck, rfl⟩ := analyze_eq_ok.1 h
  have hmirrors := checkAll_mirrored p.statements hcheck Table.coherent_empty
  have hcurrent : s.table.current = 0 := hmirrors.current
  refine ⟨hcurrent, ?_, hmirrors.shapes s.table (.refl s.table)⟩
  -- no scope stands around the one of number zero
  obtain ⟨scope, -, -, ⟨-, hvisible⟩ | ⟨parent, -, hparent, -⟩⟩ := hmirrors.coherent.exists_visible
  · rw [Table.depth, hvisible]
    rfl
  · rw [hcurrent] at hparent
    exact absurd hparent (Nat.not_lt_zero parent)

namespace Program

/-- The span of one character on the line. -/
private def onLine (line : Nat) : Span := ⟨⟨line, 1, 0⟩, ⟨line, 2, 0⟩⟩

/-- A procedure with a block inside, and an `if` chain whose last block calls it. -/
def branching : Program :=
  ⟨[.function "show" [⟨"k", .int, onLine 1⟩] none
      (.mk [.define "half" none (.binary (.ident "k" (onLine 2)) .divide
          (.literal (.int 2) (onLine 2)) (onLine 2)) (onLine 2),
        .block (.mk [.declare "rest" .string (onLine 3)] (onLine 3))] (onLine 1)) (onLine 1),
    .ifChain [.mk (.literal (.bool true) (onLine 4)) (.mk [] (onLine 5)) (onLine 4)]
      (some (.mk [.expression (.call "show" [.literal (.int 7) (onLine 6)] (onLine 6)) (onLine 6)]
        (onLine 6))) (onLine 4)]⟩

/-- The block inside the procedure has the number 2, and the number 1 around it. -/
theorem analyze_mirrors_branching : ∃ t, branching.analyze = .ok t ∧
    (t.current = 0 ∧ t.depth = 0 ∧ t.shapes = shapesFrom t 0 branching.outline) ∧
    branching.outline.map (fun o => (o.parent, o.block.map Location.line)) =
      [(none, none), (some 0, some 1), (some 1, some 3), (some 0, some 5), (some 0, some 6)] := by
  have hok : ∃ t, branching.analyze = .ok t := by
    have h : branching.analyze.toBool = true := by decide +kernel
    cases hanalyze : branching.analyze with
    | ok t => exact ⟨t, rfl⟩
    | error d => simp [hanalyze, Except.toBool] at h
  obtain ⟨t, ht⟩ := hok
  exact ⟨t, ht, analyze_mirrors ht, by decide⟩

end Program

end Slate
