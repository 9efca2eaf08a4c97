-- SUMMARY: Executing declarations and assignments on a store, and when the values known at compile time are those held.
import Slate.Proofs.Check.Function
import Slate.Proofs.Folding.Evaluation

/-!
# Execution and folding

A straight line of declarations and assignments can be executed on a store. The
value stored for a variable is meant to be the one that it holds right after its
declaration. A name is folded to the value it was declared with, though, whatever
has been assigned to it since: a declaration that reads a variable behind an
assignment to it stores a value that was never held. `stale` collects the
variables that this can happen to; for all others, folding is sound along the run.
-/

namespace Slate

/-! ## Straight lines -/

/-- Whether an expression calls nothing. -/
def Expr.callFree : Expr → Bool
  | .literal .. | .ident .. => true
  | .binary left _ right _ => left.callFree && right.callFree
  | .unary _ operand _ => operand.callFree
  | .call .. => false

/-- Declarations and assignments without calls. -/
def Stmt.isStraight : Stmt → Bool
  | .declare .. => true
  | .define _ _ value _ | .assign _ value _ => value.callFree
  | _ => false

def Program.isStraight (program : Program) : Bool := program.statements.all Stmt.isStraight

theorem Stmt.isSimple_of_isStraight {stmt : Stmt} (h : stmt.isStraight = true) :
    stmt.isSimple = true := by
  cases stmt <;> first | rfl | cases h

/-- The variable that a declaration declares. -/
def Stmt.declares? : Stmt → Option String
  | .declare name .. | .define name .. => some name
  | _ => none

def Stmt.isDeclaration (stmt : Stmt) : Bool := stmt.declares?.isSome

/-! ## Execution -/

/-- The values that variables hold. -/
abbrev Store := String → Option Value

namespace Store

def empty : Store := fun _ => none

def set (σ : Store) (name : String) (value : Value) : Store :=
  fun other => if other = name then some value else σ other

@[simp] theorem set_self (σ : Store) (name : String) (value : Value) :
    σ.set name value name = some value := if_pos rfl

theorem set_of_ne (σ : Store) {name other : String} (value : Value) (h : other ≠ name) :
    σ.set name value other = σ other := if_neg h

end Store

/-- Executes a declaration or an assignment. A variable declared without a value holds
the default of its type. Execution does not get past an expression without a value. -/
def Stmt.exec? (σ : Store) : Stmt → Option Store
  | .declare name ty _ => ty.default?.map (σ.set name)
  | .define name _ value _ | .assign name value _ => (value.eval? σ).map (σ.set name)
  | _ => none

/-- Executes statements in their order. -/
def execAll? (σ : Store) (statements : List Stmt) : Option Store :=
  statements.foldlM Stmt.exec? σ

/-! ## Stale variables -/

/-- The names that an expression without calls reads. -/
def Expr.reads : Expr → List String
  | .literal .. | .call .. => []
  | .ident name _ => [name]
  | .binary left _ right _ => left.reads ++ right.reads
  | .unary _ operand _ => operand.reads

/-- The stale variables behind a statement, given those before it. An assigned variable is
stale, and so is a variable whose declaration reads a stale one. -/
def Stmt.stale (names : List String) : Stmt → List String
  | .assign name .. => name :: names
  | .define name _ value _ =>
    if value.reads.any (· ∈ names) then name :: names else names
  | _ => names

/-- The stale variables behind a line of statements. -/
def staleBehind (statements : List Stmt) : List String := statements.foldl Stmt.stale []

theorem Stmt.subset_stale (names : List String) (stmt : Stmt) : names ⊆ stmt.stale names := by
  unfold Stmt.stale
  split
  · exact List.subset_cons_self _ _
  · split
    · exact List.subset_cons_self _ _
    · exact List.Subset.refl _
  · exact List.Subset.refl _

/-- The declaration of a variable that is not stale reads none that is. -/
theorem Stmt.not_mem_of_not_stale {names : List String} {name : String} {ty : Option Ty}
    {value : Expr} {span : Span} (h : name ∉ (Stmt.define name ty value span).stale names) :
    ∀ other ∈ value.reads, other ∉ names := by
  intro other hother hmem
  rw [Stmt.stale, if_pos (List.any_eq_true.2 ⟨other, hother, decide_eq_true hmem⟩)] at h
  exact h List.mem_cons_self

/-! ## Values of expressions -/

/-- An expression keeps its value if the names that it reads keep theirs. -/
theorem Expr.eval?_mono {f g : String → Option Value} : {e : Expr} → {v : Value} →
    (∀ name ∈ e.reads, ∀ w, f name = some w → g name = some w) →
    e.eval? f = some v → e.eval? g = some v
  | .literal .., v, _, h => h
  | .ident name _, v, hnames, h => hnames name (List.mem_singleton_self name) v h
  | .binary left op right _, v, hnames, h => by
    obtain ⟨a, b, ha, hb, hop⟩ := Expr.eval?_binary.1 h
    have hleft := left.eval?_mono (fun name hname => hnames name (List.mem_append_left _ hname)) ha
    have hright := right.eval?_mono
      (fun name hname => hnames name (List.mem_append_right _ hname)) hb
    exact Expr.eval?_binary.2 ⟨a, b, hleft, hright, hop⟩
  | .unary op operand _, v, hnames, h => by
    obtain ⟨a, ha, hop⟩ := Expr.eval?_unary.1 h
    exact Expr.eval?_unary.2 ⟨a, operand.eval?_mono hnames ha, hop⟩
  | .call .., v, _, h => by cases h

/-- What folding knows an expression to be worth is its value, given the known values of
names. -/
theorem Expr.eval?_of_fold? {t : Table} {e : Expr} {ty : Ty} {folded : Folded Value}
    (h : e.fold? t ty = some folded) (hknown : folded.known = true) :
    e.eval? t.known? = some folded.value := by
  cases ty with
  | int =>
    cases h
    obtain ⟨n, hn⟩ : ∃ n, e.foldInt t = .fixed n := Folded.known_iff.1 hknown
    rw [hn]
    exact (e.foldInt_eq_fixed n).1 hn
  | string =>
    cases h
    obtain ⟨s, hs⟩ : ∃ s, e.foldString t = .fixed s := Folded.known_iff.1 hknown
    rw [hs]
    exact (e.foldString_eq_fixed s).1 hs
  | bool =>
    cases h
    obtain ⟨b, hb⟩ : ∃ b, e.foldBool t = .fixed b := Folded.known_iff.1 hknown
    rw [hb]
    exact (e.foldBool_eq_fixed b).1 hb
  | void => cases h

/-! ## One statement -/

/-- Of the variables that are not stale, the store holds what the table knows. -/
def Faithful (t : Table) (names : List String) (σ : Store) : Prop :=
  ∀ name v, name ∉ names → t.known? name = some v → σ name = some v

section

variable {s s' : CheckState} {stmt : Stmt} {names : List String} {σ σ' : Store}

/-- What checking a straight statement does to the table: an assignment leaves it alone, and
a declaration binds a fresh name. What is known of the new symbol is what the declaration
makes the variable hold. -/
theorem Stmt.check_straight (hline : stmt.isStraight = true) (h : stmt.check s = .ok () s') :
    (stmt.declares? = none ∧ s'.table = s.table) ∨
      ∃ symbol, stmt.declares? = some symbol.name ∧ s.table.lookup? symbol.name = none ∧
        s.table.define symbol = .ok s'.table ∧
        ∀ v names σ, symbol.knownValue? = some v → Faithful s.table names σ →
          symbol.name ∉ stmt.stale names → stmt.exec? σ = some (σ.set symbol.name v) := by
  cases stmt with
  | assign name value span =>
    rw [Stmt.check, Check.assignment_ok] at h
    obtain ⟨-, -, -, rfl⟩ := h
    exact .inl ⟨rfl, rfl⟩
  | declare name ty span =>
    rw [Stmt.check, Check.declaration_ok] at h
    obtain ⟨hfresh, symbol, hsymbol, table, hdefine, rfl⟩ := h
    obtain ⟨value, hvalue, rfl⟩ := Option.map_eq_some_iff.1 hsymbol
    refine .inr ⟨_, rfl, by exact hfresh, hdefine, ?_⟩
    rintro _ names σ ⟨⟩ - -
    simp only [Stmt.exec?, hvalue, Option.map_some]
    rfl
  | define name ty value span =>
    obtain ⟨hfresh, ty, hbind⟩ :
        s.table.lookup? name = none ∧ ∃ ty, Check.bindValue name ty value span s = .ok () s' := by
      cases ty with
      | some ty =>
        rw [Stmt.check, Check.typedDefinition_ok] at h
        exact ⟨h.1, ty, h.2.2⟩
      | none =>
        rw [Stmt.check, Check.inferredDefinition_ok] at h
        obtain ⟨hfresh, ty, -, -, hbind⟩ := h
        exact ⟨hfresh, ty, hbind⟩
    obtain ⟨folded, hfold, table, hdefine, rfl⟩ := Check.bindValue_ok.1 hbind
    refine .inr ⟨_, rfl, by exact hfresh, hdefine, ?_⟩
    intro v names σ hv hfaithful hstale
    obtain ⟨hknown, rfl⟩ : folded.known = true ∧ folded.value = v := by
      simpa [Symbol.initialized, Symbol.knownValue?, Variable.knownValue?] using hv
    have heval : value.eval? σ = some folded.value := by
      refine value.eval?_mono (fun other hother w => hfaithful other w ?_)
        (Expr.eval?_of_fold? hfold hknown)
      exact Stmt.not_mem_of_not_stale hstale other hother
    rw [Stmt.exec?, heval]
    rfl
  | _ => cases hline

/-- Behind the declaration of a variable that is not stale, the store holds what the table
knows of the variable. -/
theorem Faithful.declared {name : String} {v : Value} (h : Faithful s.table names σ)
    (hs : s.table.Coherent) (hline : stmt.isStraight = true) (hcheck : stmt.check s = .ok () s')
    (hname : stmt.declares? = some name) (hstale : name ∉ stmt.stale names)
    (hknown : s'.table.known? name = some v) : stmt.exec? σ = some (σ.set name v) := by
  obtain ⟨hnone, -⟩ | ⟨symbol, hsymbol, -, hdefine, hexec⟩ := Stmt.check_straight hline hcheck
  · cases hname.symm.trans hnone
  · cases hname.symm.trans hsymbol
    rw [Table.known?, hs.lookup?_define hdefine, if_pos rfl] at hknown
    exact hexec v names σ hknown h hstale

/-- Executing a statement changes what one variable holds. -/
theorem Stmt.exec?_eq_set (names : List String) (h : stmt.exec? σ = some σ') :
    ∃ name v, σ' = σ.set name v ∧ (stmt.declares? = some name ∨ name ∈ stmt.stale names) := by
  cases stmt with
  | declare name ty span =>
    obtain ⟨v, -, rfl⟩ := Option.map_eq_some_iff.1 h
    exact ⟨name, v, rfl, .inl rfl⟩
  | define name ty value span =>
    obtain ⟨v, -, rfl⟩ := Option.map_eq_some_iff.1 h
    exact ⟨name, v, rfl, .inl rfl⟩
  | assign name value span =>
    obtain ⟨v, -, rfl⟩ := Option.map_eq_some_iff.1 h
    exact ⟨name, v, rfl, .inr List.mem_cons_self⟩
  | _ => cases h

/-- The store stays faithful when a statement is executed. -/
theorem Faithful.step (h : Faithful s.table names σ) (hs : s.table.Coherent)
    (hline : stmt.isStraight = true) (hcheck : stmt.check s = .ok () s')
    (hexec : stmt.exec? σ = some σ') : Faithful s'.table (stmt.stale names) σ' := by
  intro other v hstale hknown
  have hnames : other ∉ names := fun hmem => hstale (stmt.subset_stale names hmem)
  by_cases hdeclared : stmt.declares? = some other
  · have hdeclare := h.declared hs hline hcheck hdeclared hstale hknown
    rw [Option.some.inj (hexec.symm.trans hdeclare), Store.set_self]
  · -- neither the table nor the store has changed for the name
    obtain ⟨name, w, rfl, hname⟩ := Stmt.exec?_eq_set names hexec
    have hne : other ≠ name := by
      rintro rfl
      exact hname.elim hdeclared hstale
    rw [Store.set_of_ne σ w hne]
    refine h other v hnames ?_
    obtain ⟨-, htable⟩ | ⟨symbol, hsymbol, -, hdefine, -⟩ := Stmt.check_straight hline hcheck
    · rwa [← htable]
    · rwa [Table.known?, hs.lookup?_define hdefine, if_neg] at hknown
      rintro rfl
      exact hdeclared hsymbol

end

/-! ## Whole runs -/

section

variable {s s' : CheckState} {statements : List Stmt} {names : List String} {σ σ' : Store}

/-- The store stays faithful when statements are executed in their order. -/
theorem Faithful.run (h : Faithful s.table names σ) (hs : s.table.Coherent)
    (hline : ∀ stmt ∈ statements, stmt.isStraight = true)
    (hcheck : checkAll statements s = .ok () s') (hexec : execAll? σ statements = some σ') :
    Faithful s'.table (statements.foldl Stmt.stale names) σ' := by
  induction statements generalizing s names σ with
  | nil =>
    obtain rfl := checkAll_nil_ok.1 hcheck
    cases hexec
    exact h
  | cons stmt statements ih =>
    obtain ⟨hstmt, hrest⟩ := List.forall_mem_cons.1 hline
    obtain ⟨s₁, h₁, h₂⟩ := checkAll_cons_ok.1 hcheck
    obtain ⟨σ₁, hσ₁, hσ'⟩ := Option.bind_eq_some_iff.1 hexec
    have hsteady := Check.steadily_simple stmt (Stmt.isSimple_of_isStraight hstmt) s s₁ h₁ hs
    exact ih (h.step hs hstmt h₁ hσ₁) hsteady.coherent hrest h₂ hσ'

/-- A name that is bound is not bound again. -/
theorem lookup?_checkAll {name : String} (hs : s.table.Coherent)
    (hline : ∀ stmt ∈ statements, stmt.isStraight = true)
    (hcheck : checkAll statements s = .ok () s') (hbound : s.table.lookup? name ≠ none) :
    s'.table.lookup? name = s.table.lookup? name := by
  induction statements generalizing s with
  | nil => rw [checkAll_nil_ok.1 hcheck]
  | cons stmt statements ih =>
    obtain ⟨hstmt, hrest⟩ := List.forall_mem_cons.1 hline
    obtain ⟨s₁, h₁, h₂⟩ := checkAll_cons_ok.1 hcheck
    have hsteady := Check.steadily_simple stmt (Stmt.isSimple_of_isStraight hstmt) s s₁ h₁ hs
    have hkept : s₁.table.lookup? name = s.table.lookup? name := by
      obtain ⟨-, htable⟩ | ⟨symbol, -, hfresh, hdefine, -⟩ := Stmt.check_straight hstmt h₁
      · rw [htable]
      · rw [hs.lookup?_define hdefine, if_neg]
        rintro rfl
        exact hbound hfresh
    rw [ih hsteady.coherent hrest h₂ (by rwa [hkept]), hkept]

/-- Assignments leave no trace in the walk. -/
theorem checkAll_declarations (hline : ∀ stmt ∈ statements, stmt.isStraight = true)
    (hcheck : checkAll statements s = .ok () s') :
    checkAll (statements.filter Stmt.isDeclaration) s = .ok () s' := by
  induction statements generalizing s with
  | nil => exact hcheck
  | cons stmt statements ih =>
    obtain ⟨hstmt, hrest⟩ := List.forall_mem_cons.1 hline
    obtain ⟨s₁, h₁, h₂⟩ := checkAll_cons_ok.1 hcheck
    have hkept := ih hrest h₂
    cases stmt with
    | assign name value span =>
      rw [Stmt.check, Check.assignment_ok] at h₁
      obtain ⟨-, -, -, rfl⟩ := h₁
      exact hkept
    | declare name ty span => exact checkAll_cons_ok.2 ⟨s₁, h₁, hkept⟩
    | define name ty value span => exact checkAll_cons_ok.2 ⟨s₁, h₁, hkept⟩
    | _ => cases hstmt

end

/-- Without assignments nothing gets stale. -/
theorem staleBehind_declarations {statements : List Stmt}
    (h : ∀ stmt ∈ statements, stmt.isDeclaration = true) : staleBehind statements = [] := by
  unfold staleBehind
  induction statements with
  | nil => rfl
  | cons stmt statements ih =>
    obtain ⟨hstmt, hrest⟩ := List.forall_mem_cons.1 h
    have hstale : stmt.stale [] = [] := by
      cases stmt with
      | declare name ty span => rfl
      | define name ty value span => simp [Stmt.stale]
      | _ => cases hstmt
    rw [List.foldl_cons, hstale]
    exact ih hrest

/-- In a walk over a straight line that ends with the table `t`, a variable that is known and
not stale holds behind its declaration what is stored for it. -/
theorem known_held {before after : List Stmt} {stmt : Stmt} {name : String} {v : Value}
    {s : CheckState} {σ : Store}
    (hline : ∀ other ∈ before ++ stmt :: after, other.isStraight = true)
    (hcheck : checkAll (before ++ stmt :: after) (.start .empty) = .ok () s)
    (hname : stmt.declares? = some name) (hknown : s.table.known? name = some v)
    (hstale : name ∉ staleBehind (before ++ [stmt])) (hrun : execAll? .empty before = some σ) :
    ∃ σ', execAll? .empty (before ++ [stmt]) = some σ' ∧ σ' name = some v := by
  obtain ⟨hbefore, hline⟩ := List.forall_mem_append.1 hline
  obtain ⟨hstmt, hafter⟩ := List.forall_mem_cons.1 hline
  obtain ⟨s₁, h₁, h⟩ := checkAll_append_ok.1 hcheck
  obtain ⟨s₂, h₂, h₃⟩ := checkAll_cons_ok.1 h
  have hs₁ := (checkAll_steady h₁ Table.coherent_empty).coherent
  have hs₂ := (Check.steadily_simple stmt (Stmt.isSimple_of_isStraight hstmt) s₁ s₂ h₂ hs₁).coherent
  have hempty : Faithful Table.empty [] .empty := by
    intro other v _ hv
    rw [Table.known?, Table.lookup?_eq, Table.visible_empty] at hv
    cases hv
  have hfaithful : Faithful s₁.table (staleBehind before) σ :=
    hempty.run Table.coherent_empty hbefore h₁ hrun
  -- behind its declaration the variable has the symbol that it has in the end
  have hbound : s₂.table.lookup? name ≠ none := by
    obtain ⟨hnone, -⟩ | ⟨symbol, hsymbol, -, hdefine, -⟩ := Stmt.check_straight hstmt h₂
    · cases hname.symm.trans hnone
    · cases hname.symm.trans hsymbol
      rw [hs₁.lookup?_define hdefine, if_pos rfl]
      exact Option.some_ne_none symbol
  rw [Table.known?, lookup?_checkAll hs₂ hafter h₃ hbound] at hknown
  rw [staleBehind, List.foldl_append] at hstale
  have hexec := hfaithful.declared hs₁ hstmt h₂ hname hstale hknown
  refine ⟨σ.set name v, ?_, Store.set_self σ name v⟩
  rw [execAll?, List.foldlM_append]
  rw [execAll?] at hrun
  simp [hrun, hexec]

/-- For every variable of an accepted straight line that is known at compile time, the value
stored is the one that it holds right behind its declaration in a run that skips all
assignments before it. In the run with the assignments it holds that value as well, unless
it is stale there: unless its declaration reads, perhaps through other declarations, a
variable that something has been assigned to. -/
theorem folding_sound_along_run {program : Program} {t : Table} {before after : List Stmt}
    {stmt : Stmt} {name : String} {x : Variable} (hline : program.isStraight = true)
    (hok : program.analyze = .ok t) (hsplit : program.statements = before ++ stmt :: after)
    (hname : stmt.declares? = some name) (hx : t.boundVariable? name = some x)
    (hknown : x.known = true) :
    (∀ σ, execAll? .empty (before.filter Stmt.isDeclaration) = some σ →
      ∃ σ', execAll? .empty (before.filter Stmt.isDeclaration ++ [stmt]) = some σ' ∧
        σ' name = some x.value) ∧
    (name ∉ staleBehind (before ++ [stmt]) → ∀ σ, execAll? .empty before = some σ →
      ∃ σ', execAll? .empty (before ++ [stmt]) = some σ' ∧ σ' name = some x.value) := by
  obtain ⟨s, hcheck, rfl⟩ := Program.analyze_eq_ok.1 hok
  have hline : ∀ other ∈ before ++ stmt :: after, other.isStraight = true := by
    rw [← hsplit]
    exact List.all_eq_true.1 hline
  rw [hsplit] at hcheck
  have hvalue := Table.known?_eq_some.2 ⟨x, hx, hknown, rfl⟩
  have hdeclares : stmt.isDeclaration = true := by rw [Stmt.isDeclaration, hname]; rfl
  constructor
  · intro σ hrun
    have hkept := checkAll_declarations hline hcheck
    rw [List.filter_append, List.filter_cons_of_pos hdeclares] at hkept
    refine known_held ?_ hkept hname hvalue ?_ hrun
    · intro other hother
      rw [← List.filter_cons_of_pos hdeclares,
        ← List.filter_append] at hother
      exact hline other (List.mem_filter.1 hother).1
    · rw [staleBehind_declarations]
      · exact List.not_mem_nil
      · intro other hother
        rcases List.mem_append.1 hother with hother | hother
        · exact (List.mem_filter.1 hother).2
        · rwa [List.mem_singleton.1 hother]
  · intro hstale σ hrun
    exact known_held hline hcheck hname hvalue hstale hrun

/-- Behind an assignment a variable that is not stale is declared. -/
def doubledLater (span : Span) : Program :=
  ⟨[.declare "a" .int span,
    .define "b" none (.binary (.ident "a" span) .add (.literal (.int 1) span) span) span,
    .assign "a" (.literal (.int 5) span) span,
    .define "c" none (.binary (.ident "b" span) .multiply (.literal (.int 2) span) span) span]⟩

theorem folding_sound_along_run_doubledLater :
    ∃ t x σ', (doubledLater default).analyze = .ok t ∧ t.boundVariable? "c" = some x ∧
      x.known = true ∧ execAll? .empty (doubledLater default).statements = some σ' ∧
      σ' "c" = some x.value := by
  have hc : ((doubledLater default).analyze.toOption.bind (·.known? "c")) = some (.int 2) := by
    decide +kernel
  obtain ⟨t, ht, hknown⟩ := Option.bind_eq_some_iff.1 hc
  obtain ⟨x, hx, hknown, -⟩ := Table.known?_eq_some.1 hknown
  have hanalyze : (doubledLater default).analyze = .ok t := by
    cases h : (doubledLater default).analyze with
    | ok t' =>
      rw [h] at ht
      cases ht
      rfl
    | error d =>
      rw [h] at ht
      cases ht
  obtain ⟨σ', hσ', hheld⟩ :=
    (@folding_sound_along_run _ t ((doubledLater default).statements.take 3) [] _ "c" x
      rfl hanalyze rfl rfl hx hknown).2 (by decide) _ rfl
  exact ⟨t, x, σ', hanalyze, hx, hknown, hσ', hheld⟩

/-- A variable is declared by the value of another one that has been assigned to. -/
def reread (span : Span) : Program :=
  ⟨[.define "x" none (.literal (.int 1) span) span,
    .assign "x" (.literal (.int 2) span) span,
    .define "y" none (.ident "x" span) span]⟩

/-- The value stored as known for the second variable is the one that the first was declared
with, while the variable holds the one assigned to the first. -/
theorem known_value_not_held :
    (reread default).isStraight = true ∧
      ((reread default).analyze.toOption.bind (·.known? "y")) = some (.int 1) ∧
      ((execAll? .empty (reread default).statements).bind (· "y")) = some (.int 2) := by
  decide +kernel

end Slate
