-- SUMMARY: The number of a scope denotes the same scope in every later state of a table, and calls that fail change nothing.
import Slate.Check
import Slate.Proofs.Run
import Slate.Proofs.Scope.Stack

/-!
# Handles of scopes

A call changes a table in place, an index here and a list there, and so a call that fails
half-way could leave traces. Here the calls are written out step by step, and come to the
operations on tables. Entering a scope answers with its number. Since no call takes a scope
out, or changes one that is not current, the number goes on denoting that scope, and what the
scope holds only ever grows at the end.
-/

namespace Slate

namespace Table

/-! ## Calls -/

/-- Changes the current scope. -/
def onCurrent (t : Table) (f : Scope → Scope) : Table :=
  { t with scopes := t.scopes.modify t.current f }

/-- Makes an operation in place. The answer is the number of the scope that it enters. -/
def call : Op → EStateM Diagnostic Table (Option Nat)
  | .enter block => do
    let t ← get
    let id := t.scopes.length
    modify fun t => { t with scopes := t.scopes ++ [Scope.empty id (some t.current) block] }
    modify fun t => { t with current := id }
    return some id
  | .exit => do
    match (← get).parent? with
    | none => throw (.ofDefect .exitOfGlobalScope)
    | some parent =>
      modify fun t => { t with current := parent }
      return none
  | .define symbol => do
    match (← get).currentScope?.bind (·.get? symbol.name) with
    | some existing => throw (redeclaration symbol.name existing symbol.span)
    | none =>
      modify (·.onCurrent fun s => { s with index := (symbol.name, s.symbols.length) :: s.index })
      modify (·.onCurrent fun s => { s with symbols := s.symbols ++ [symbol] })
      return none

/-- The number of the scope that an operation would enter. -/
def Op.handle? (t : Table) : Op → Option Nat
  | .enter _ => some t.scopes.length
  | .exit | .define _ => none

variable {t t' t'' : Table} {op : Op} {d : Diagnostic}

theorem onCurrent_push (t : Table) (symbol : Symbol) :
    (t.onCurrent fun s => { s with index := (symbol.name, s.symbols.length) :: s.index }).onCurrent
      (fun s => { s with symbols := s.symbols ++ [symbol] }) = t.onCurrent (·.push symbol) := by
  simp only [onCurrent, List.modify_modify_eq]
  rfl

/-- In place, an operation is made as a whole or not at all. -/
theorem call_eq (op : Op) (t : Table) :
    call op t = match t.perform op with
      | .ok t' => .ok (op.handle? t) t'
      | .error d => .error d t := by
  cases op with
  | enter block => rfl
  | exit =>
    rw [call, get_bind_apply, perform, exit]
    cases t.parent? <;> rfl
  | define symbol =>
    rw [call, get_bind_apply, perform, define]
    cases t.currentScope?.bind (·.get? symbol.name) with
    | some existing => rfl
    | none => exact congrArg (EStateM.Result.ok none) (onCurrent_push t symbol)

/-- The table behind a call, whether or not it fails. -/
def step (t : Table) (op : Op) : Table :=
  match call op t with
  | .ok _ t' | .error _ t' => t'

/-- The table behind calls. -/
def behind (t : Table) (ops : List Op) : Table := ops.foldl step t

theorem behind_eq_attempt (t : Table) (ops : List Op) :
    t.behind ops = (attempt perform t ops).1 := by
  induction ops generalizing t with
  | nil => rfl
  | cons op ops ih =>
    rw [behind, List.foldl_cons, ← behind, attempt, step, call_eq]
    cases t.perform op <;> exact ih _

theorem coherent_behind (ops : List Op) : (empty.behind ops).Coherent := by
  rw [behind_eq_attempt]
  exact (Simulates.empty.attempt ops).1.coherent

/-! ## What calls keep -/

/-- The symbols that a call binds in the scope of number `i`. -/
def gain (t : Table) (i : Nat) (op : Op) : List Symbol :=
  match op, call op t with
  | .define symbol, .ok _ _ => if t.current = i then [symbol] else []
  | _, _ => []

/-- The symbols that calls bind in the scope of number `i`. -/
def gains (t : Table) (i : Nat) : List Op → List Symbol
  | [] => []
  | op :: ops => t.gain i op ++ (t.step op).gains i ops

/-- Every scope is where it was, and is what it was but for the symbols it has gained. -/
structure Keeps (t t' : Table) (gained : Nat → List Symbol) : Prop where
  scope : ∀ (i : Nat) (scope : Scope), t.scopes[i]? = some scope →
    ∃ scope' : Scope, t'.scopes[i]? = some scope' ∧ scope'.id = scope.id ∧
      scope'.parent = scope.parent ∧ scope'.block = scope.block ∧
      scope'.symbols = scope.symbols ++ gained i

namespace Keeps

theorem of_scopes_eq (h : ∀ i < t.scopes.length, t'.scopes[i]? = t.scopes[i]?) :
    t.Keeps t' fun _ => [] where
  scope i scope hscope := by
    have hi := (List.getElem?_eq_some_iff.1 hscope).1
    exact ⟨scope, by rw [h i hi, hscope], rfl, rfl, rfl, (List.append_nil _).symm⟩

theorem trans {gained gained' : Nat → List Symbol} (h : t.Keeps t' gained)
    (h' : t'.Keeps t'' gained') : t.Keeps t'' fun i => gained i ++ gained' i where
  scope i scope hscope := by
    obtain ⟨scope', hscope', hid, hparent, hblock, hsymbols⟩ := h.scope i scope hscope
    obtain ⟨scope'', hscope'', hid', hparent', hblock', hsymbols'⟩ := h'.scope i scope' hscope'
    refine ⟨scope'', hscope'', hid'.trans hid, hparent'.trans hparent, hblock'.trans hblock, ?_⟩
    rw [hsymbols', hsymbols, List.append_assoc]

theorem length_le {gained : Nat → List Symbol} (h : t.Keeps t' gained) :
    t.scopes.length ≤ t'.scopes.length := by
  refine Nat.le_of_not_lt fun hlt => ?_
  obtain ⟨scope', hscope', -⟩ := h.scope _ _ (List.getElem?_eq_getElem hlt)
  rw [List.getElem?_eq_none (Nat.le_refl _)] at hscope'
  cases hscope'

end Keeps

/-- One call. -/
theorem keeps_step (t : Table) (op : Op) : t.Keeps (t.step op) fun i => t.gain i op := by
  have hfailed : t.Keeps t fun _ => [] := .of_scopes_eq fun _ _ => rfl
  unfold step gain
  rw [call_eq]
  cases op with
  | enter block => exact .of_scopes_eq fun i hi => List.getElem?_append_left hi
  | exit =>
    rw [perform, exit]
    cases t.parent? with
    | none => exact hfailed
    | some parent => exact .of_scopes_eq fun _ _ => rfl
  | define symbol =>
    rw [perform, define]
    cases t.currentScope?.bind (·.get? symbol.name) with
    | some existing => exact hfailed
    | none =>
      refine ⟨fun i scope hscope => ?_⟩
      dsimp only
      rw [List.getElem?_modify, hscope]
      by_cases hcurrent : t.current = i
      · simp only [if_pos hcurrent]
        exact ⟨scope.push symbol, rfl, rfl, rfl, rfl, rfl⟩
      · simp only [if_neg hcurrent]
        exact ⟨scope, rfl, rfl, rfl, rfl, (List.append_nil _).symm⟩

/-- Any number of calls. -/
theorem keeps_behind (t : Table) (ops : List Op) : t.Keeps (t.behind ops) fun i => t.gains i ops := by
  induction ops generalizing t with
  | nil => exact .of_scopes_eq fun _ _ => rfl
  | cons op ops ih => exact (t.keeps_step op).trans (ih (t.step op))

/-! ## Calls that fail -/

/-- Why a call fails: there is nothing around the global scope, and the current scope holds no
two symbols of one name. -/
inductive Refuses (t : Table) : Op → Diagnostic → Prop where
  | exit (global : t.current = 0) : Refuses t .exit (.ofDefect .exitOfGlobalScope)
  | define {symbol existing : Symbol} {scope : Scope} (current : t.currentScope? = some scope)
      (bound : existing ∈ scope.symbols) (name : existing.name = symbol.name) :
      Refuses t (.define symbol) (redeclaration symbol.name existing symbol.span)

theorem Coherent.parent?_eq_none (h : t.Coherent) : t.parent? = none ↔ t.current = 0 := by
  obtain ⟨scope, hcurrent, hstands, -⟩ := h.exists_visible
  rw [parent?, hcurrent, Option.bind_some]
  obtain ⟨hparent, hglobal⟩ | ⟨p, hparent, hp⟩ := hstands.parent
  · simp only [hparent, hglobal]
  · simp only [hparent, reduceCtorEq, false_iff]
    omega

theorem Coherent.perform_eq_error (h : t.Coherent) : t.perform op = .error d ↔ t.Refuses op d := by
  cases op with
  | enter block => exact ⟨nofun, nofun⟩
  | exit =>
    rw [perform, Table.exit]
    constructor
    · intro herror
      split at herror
      · cases herror
      · next hparent =>
        cases herror
        exact .exit (h.parent?_eq_none.1 hparent)
    · rintro ⟨hglobal⟩
      rw [h.parent?_eq_none.2 hglobal]
  | define symbol =>
    obtain ⟨scope, hcurrent, hstands, -⟩ := h.exists_visible
    rw [perform, Table.define, hcurrent, Option.bind_some]
    constructor
    · intro herror
      split at herror
      · next existing hget =>
        cases herror
        obtain ⟨hbound, hname⟩ := hstands.get?_eq_some.1 hget
        exact .define hcurrent hbound hname
      · cases herror
    · rintro (_ | ⟨hcurrent', hbound, hname⟩)
      cases hcurrent.symm.trans hcurrent'
      rw [hstands.get?_eq_some.2 ⟨hbound, hname⟩]

/-- A call that fails leaves the table as it was. -/
theorem Coherent.call_eq_error (h : t.Coherent) :
    call op t = .error d t' ↔ t' = t ∧ t.Refuses op d := by
  rw [call_eq, ← h.perform_eq_error]
  cases t.perform op with
  | ok t₁ => simp only [reduceCtorEq, and_false]
  | error d' =>
    simp only [EStateM.Result.error.injEq, Except.error.injEq]
    exact ⟨fun ⟨hd, ht⟩ => ⟨ht.symm, hd⟩, fun ⟨ht, hd⟩ => ⟨hd, ht.symm⟩⟩

end Table

/-! ## The calls of the checker -/

/-- The checker goes on, or stops, with the table that a call leaves. -/
def CheckState.follow (s : CheckState) (events : Table → Array Event) :
    EStateM.Result Diagnostic Table (Option Nat) → EStateM.Result Diagnostic CheckState Unit
  | .ok _ table => .ok () { s with table, events := events table }
  | .error d table => .error d { s with table }

namespace Check

variable {s s' : CheckState} {d : Diagnostic}

theorem exitBlock_eq_call (s : CheckState) :
    exitBlock s = s.follow
      (fun table => s.events.push (.exitScope s.table.current table.current))
      (Table.call .exit s.table) := by
  rw [Table.call_eq, Table.perform, exitBlock, get_bind_apply]
  cases s.table.exit <;> rfl

theorem define_eq_call (symbol : Symbol) (s : CheckState) :
    define symbol s = s.follow (fun _ => s.events) (Table.call (.define symbol) s.table) := by
  rw [Table.call_eq, Table.perform, define, get_bind_apply]
  cases s.table.define symbol <;> rfl

/-- Stopped by a call that fails, the checker has its state as before. -/
theorem follow_error {events : Table → Array Event} {op : Table.Op}
    (h : s.follow events (Table.call op s.table) = .error d s') : s' = s := by
  rw [Table.call_eq] at h
  cases hperform : s.table.perform op with
  | ok table =>
    rw [hperform] at h
    cases h
  | error d' =>
    rw [hperform] at h
    cases h
    rfl

end Check

/-! ## Handles -/

/-- Entering a scope answers with a number, and in every later state the scope of that number
has it as its own and lies in the scope that was current, at the place of its block. Whatever is
called, every scope stays where it is and as it is, but that symbols are put behind those it
has, each by a binding made while the scope is current. A call fails only if the global scope is
left or a name of the current scope bound again, always fails then, and leaves the table
unchanged, as a failed call of the checker leaves its state. -/
theorem Table.handles_stable (ops more : List Table.Op) :
    let t := Table.empty.behind ops
    (∀ block, ∃ t₁, Table.call (.enter block) t = .ok (some t.scopes.length) t₁ ∧
      t₁.current = t.scopes.length ∧
      ∃ scope, (t₁.behind more).scopes[t.scopes.length]? = some scope ∧
        scope.id = t.scopes.length ∧ scope.parent = some t.current ∧ scope.block = block) ∧
    t.Keeps (t.behind more) (fun i => t.gains i more) ∧
    t.scopes.length ≤ (t.behind more).scopes.length ∧
    (∀ op d t', Table.call op t = .error d t' ↔ t' = t ∧ t.Refuses op d) ∧
    ∀ (s s' : CheckState) (d : Diagnostic),
      (∀ symbol, Check.define symbol s = .error d s' → s' = s) ∧
      (Check.exitBlock s = .error d s' → s' = s) := by
  intro t
  have hkeeps := t.keeps_behind more
  refine ⟨fun block => ⟨t.enter block, rfl, rfl, ?_⟩, hkeeps, hkeeps.length_le,
    fun _ _ _ => (Table.coherent_behind ops).call_eq_error,
    fun s s' d => ⟨fun symbol h => ?_, fun h => ?_⟩⟩
  · have hentered : (t.enter block).scopes[t.scopes.length]? =
        some (Scope.empty t.scopes.length (some t.current) block) := List.getElem?_concat_length
    obtain ⟨scope, hscope, hid, hparent, hblock, -⟩ :=
      ((t.enter block).keeps_behind more).scope _ _ hentered
    exact ⟨scope, hscope, hid, hparent, hblock⟩
  · rw [Check.define_eq_call] at h
    exact Check.follow_error h
  · rw [Check.exitBlock_eq_call] at h
    exact Check.follow_error h

/-- Behind the binding of a name, the global scope cannot be left, nor the name bound there
again. It can be in a scope inside, and the global scope gains only what is bound behind it. -/
theorem Table.handles_stable_shadowing :
    let x : Symbol := .initialized "x" default (.int 1) true
    let y : Symbol := .initialized "y" default (.int 2) true
    let t := Table.empty.behind [.define x]
    Table.call .exit t = .error (.ofDefect .exitOfGlobalScope) t ∧
      Table.call (.define x) t = .error (.spanned (.redeclared "x" x.line) default) t ∧
      ∃ scope : Scope,
        (t.behind [.exit, .enter none, .define x, .exit, .define x, .define y]).scopes[0]? =
          some scope ∧ scope.parent = none ∧ scope.symbols.map Symbol.name = ["x", "y"] := by
  intro x y t
  obtain ⟨-, hkeeps, -, herror, -⟩ := Table.handles_stable [.define x]
    [.exit, .enter none, .define x, .exit, .define x, .define y]
  refine ⟨(herror _ _ _).2 ⟨rfl, .exit rfl⟩,
    (herror _ _ _).2 ⟨rfl, .define rfl List.mem_cons_self rfl⟩, ?_⟩
  obtain ⟨scope, hscope, -, hparent, -, hsymbols⟩ := hkeeps.scope 0 _ rfl
  refine ⟨scope, hscope, hparent, ?_⟩
  rw [hsymbols]
  decide +kernel

end Slate
