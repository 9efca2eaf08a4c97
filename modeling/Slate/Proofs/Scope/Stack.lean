-- SUMMARY: Whatever operations are tried on a symbol table, it answers like a plain stack of maps.
import Slate.Proofs.Scope.Coherent

/-!
# Tables as stacks

A table never forgets a scope: leaving one moves a cursor, and what is entered
later is put behind everything that was there. `Stack` is what this amounts to for
those who use a table, a stack of maps where leaving is popping. The two are run
side by side on the same operations, those that fail included, and give the same
answers all the way.
-/

namespace Slate

/-! ## Operations -/

/-- The operations that change a table. -/
inductive Table.Op where
  /-- Enters a scope, perhaps that of a block that begins at a location. -/
  | enter (block : Option Location)
  | exit
  | define (symbol : Symbol)

/-- What an operation makes of a table. -/
def Table.perform (t : Table) : Table.Op → Except Diagnostic Table
  | .enter block => .ok (t.enter block)
  | .exit => t.exit
  | .define symbol => t.define symbol

/-- Tries operations one behind the other, and tells of each what it failed with, if it
failed. An operation that fails changes nothing. -/
def attempt {α : Type} (perform : α → Table.Op → Except Diagnostic α) (a : α) :
    List Table.Op → α × List (Option Diagnostic)
  | [] => (a, [])
  | op :: ops =>
    match perform a op with
    | .ok a' => ((attempt perform a' ops).1, none :: (attempt perform a' ops).2)
    | .error d => ((attempt perform a ops).1, some d :: (attempt perform a ops).2)

theorem attempt_append {α : Type} (perform : α → Table.Op → Except Diagnostic α) (a : α)
    (ops more : List Table.Op) :
    attempt perform a (ops ++ more) =
      ((attempt perform (attempt perform a ops).1 more).1,
        (attempt perform a ops).2 ++ (attempt perform (attempt perform a ops).1 more).2) := by
  induction ops generalizing a with
  | nil => rfl
  | cons op ops ih =>
    rw [List.cons_append, attempt, attempt]
    cases perform a op with
    | ok a' => simp only [ih a', List.cons_append]
    | error d => simp only [ih a, List.cons_append]

/-- Operations that leave every scope they enter, and no other. -/
inductive Table.Balanced : List Table.Op → Prop where
  | nil : Balanced []
  | define {symbol : Symbol} {ops : List Table.Op} :
      Balanced ops → Balanced (.define symbol :: ops)
  | nest {block : Option Location} {inner ops : List Table.Op} :
      Balanced inner → Balanced ops → Balanced (.enter block :: (inner ++ .exit :: ops))

/-! ## Stacks -/

/-- A map from names to symbols, with the number of the scope that it stands for. -/
structure Stack.Level where
  id : Nat
  symbol? : String → Option Symbol

/-- A stack of levels. The one at the bottom cannot be popped, so there always is one
on top. Levels are numbered in the order in which they are pushed. -/
structure Stack where
  top : Stack.Level
  below : List Stack.Level
  next : Nat

namespace Stack.Level

def empty (id : Nat) : Level := { id, symbol? := fun _ => none }

def bind (l : Level) (symbol : Symbol) : Level :=
  { l with symbol? := fun name => if name = symbol.name then some symbol else l.symbol? name }

end Stack.Level

namespace Stack

/-- Nothing but an empty level. -/
def bottom : Stack := { top := .empty 0, below := [], next := 1 }

/-- All levels, the top first. -/
def levels (σ : Stack) : List Level := σ.top :: σ.below

def height (σ : Stack) : Nat := σ.levels.length

/-- The symbol that the topmost level with a binding of the name binds it to, and the
number of that level. -/
def lookup? (σ : Stack) (name : String) : Option (Symbol × Nat) :=
  σ.levels.findSome? fun l => (l.symbol? name).map (·, l.id)

/-- What an operation makes of a stack. Popping fails at the bottom, and binding a name
that the top binds already, where the line of the earlier symbol is quoted. -/
def perform (σ : Stack) : Table.Op → Except Diagnostic Stack
  | .enter _ => .ok { top := .empty σ.next, below := σ.levels, next := σ.next + 1 }
  | .exit =>
    match σ.below with
    | [] => .error (.ofDefect .exitOfGlobalScope)
    | outer :: below => .ok { σ with top := outer, below }
  | .define symbol =>
    match σ.top.symbol? symbol.name with
    | some existing => .error (.spanned (.redeclared symbol.name existing.line) symbol.span)
    | none => .ok { σ with top := σ.top.bind symbol }

/-- Balanced operations change the top level only. -/
theorem below_balanced {ops : List Table.Op} (h : Table.Balanced ops) (σ : Stack) :
    (attempt perform σ ops).1.below = σ.below := by
  induction h generalizing σ with
  | nil => rfl
  | @define symbol ops _ ih =>
    rw [attempt]
    cases hdefine : σ.perform (.define symbol) with
    | error d => exact ih σ
    | ok σ' =>
      refine (ih σ').trans ?_
      rw [perform] at hdefine
      split at hdefine
      · cases hdefine
      · cases hdefine
        rfl
  | @nest block inner ops _ _ ihInner ihOps =>
    have hinner := ihInner { top := .empty σ.next, below := σ.levels, next := σ.next + 1 }
    rw [attempt, perform]
    simp only [attempt_append]
    rw [attempt, perform, hinner, levels]
    exact ihOps _

/-- What is entered and left again is gone, and the levels are as before. -/
theorem levels_nest {inner : List Table.Op} (h : Table.Balanced inner) (σ : Stack)
    (block : Option Location) :
    (attempt perform σ (.enter block :: (inner ++ [.exit]))).1.levels = σ.levels ∧
      (attempt perform σ (.enter block :: (inner ++ [.exit]))).2.getLast? = some none := by
  have hinner := below_balanced h { top := .empty σ.next, below := σ.levels, next := σ.next + 1 }
  rw [attempt, perform]
  simp only [attempt_append]
  rw [attempt, perform, hinner, levels]
  refine ⟨rfl, ?_⟩
  rw [← List.cons_append]
  exact List.getLast?_concat

end Stack

/-! ## Simulation -/

/-- The level that a scope stands for. -/
def Scope.level (s : Scope) : Stack.Level := { id := s.id, symbol? := s.get? }

/-- The scopes that can be seen from the table are the levels of the stack, and both
number the next one alike. -/
structure Simulates (t : Table) (σ : Stack) : Prop where
  coherent : t.Coherent
  levels : t.visible.map Scope.level = σ.levels
  next : t.scopes.length = σ.next

/-- Both fail alike, or both succeed and are in simulation afterwards. -/
inductive SimulatesStep : Except Diagnostic Table → Except Diagnostic Stack → Prop where
  | ok {t : Table} {σ : Stack} : Simulates t σ → SimulatesStep (.ok t) (.ok σ)
  | error (d : Diagnostic) : SimulatesStep (.error d) (.error d)

namespace Simulates

variable {t : Table} {σ : Stack}

theorem empty : Simulates .empty .bottom where
  coherent := Table.coherent_empty
  levels := by
    rw [Table.visible_empty]
    rfl
  next := rfl

/-- The top of the stack is the current scope, and the levels below it are the scopes
around it. -/
theorem top (h : Simulates t σ) :
    ∃ scope outer, t.visible = scope :: outer ∧ t.currentScope? = some scope ∧
      scope.StandsAt t.current ∧ scope.level = σ.top ∧ outer.map Scope.level = σ.below := by
  obtain ⟨scope, hcurrent, hstands, hvisible⟩ := h.coherent.exists_visible
  obtain ⟨outer, hvisible⟩ : ∃ outer, t.visible = scope :: outer := by
    rcases hvisible with ⟨-, hvisible⟩ | ⟨p, -, -, hvisible⟩ <;> exact ⟨_, hvisible⟩
  have hlevels := h.levels
  rw [hvisible, List.map_cons, Stack.levels, List.cons.injEq] at hlevels
  exact ⟨scope, outer, hvisible, hcurrent, hstands, hlevels.1, hlevels.2⟩

theorem enter (h : Simulates t σ) (block : Option Location) :
    Simulates (t.enter block) { top := .empty σ.next, below := σ.levels, next := σ.next + 1 } where
  coherent := h.coherent.enter block
  levels := by
    rw [h.coherent.visible_enter, List.map_cons, h.levels, h.next]
    rfl
  next := by simp [Table.enter, h.next]

theorem exit (h : Simulates t σ) : SimulatesStep t.exit (σ.perform .exit) := by
  obtain ⟨scope, outer, hvisible, -, -, -, houter⟩ := h.top
  rw [Stack.perform]
  cases hexit : t.exit with
  | ok t' =>
    have hvisible' := h.coherent.visible_exit hexit
    rw [hvisible, List.tail_cons] at hvisible'
    have hscopes : t'.scopes = t.scopes := by
      unfold Table.exit at hexit
      split at hexit <;> cases hexit
      rfl
    cases hbelow : σ.below with
    | nil =>
      -- a coherent table still shows a scope, so there was one around the one left
      obtain ⟨current, -, -, hcurrent⟩ := (h.coherent.exit hexit).exists_visible
      rw [hbelow, List.map_eq_nil_iff] at houter
      rcases hcurrent with ⟨-, hcurrent⟩ | ⟨p, -, -, hcurrent⟩ <;>
        simp [hvisible', houter] at hcurrent
    | cons level below =>
      refine .ok { coherent := h.coherent.exit hexit, levels := ?_, next := ?_ }
      · rw [hvisible', houter, hbelow]
        rfl
      · rw [hscopes, h.next]
  | error d =>
    have hbelow : σ.below = [] := by
      cases outer with
      | nil => exact houter.symm
      | cons next outer =>
        obtain ⟨t', hexit'⟩ := h.coherent.exists_exit (by simp [hvisible])
        cases hexit.symm.trans hexit'
    rw [hbelow]
    unfold Table.exit at hexit
    split at hexit <;> cases hexit
    exact .error _

theorem define (h : Simulates t σ) (symbol : Symbol) :
    SimulatesStep (t.define symbol) (σ.perform (.define symbol)) := by
  obtain ⟨scope, outer, hvisible, hcurrent, hstands, htop, houter⟩ := h.top
  have hget : σ.top.symbol? symbol.name = scope.get? symbol.name := by rw [← htop]; rfl
  rw [Stack.perform, hget]
  cases hfound : scope.get? symbol.name with
  | some existing =>
    have hdefine : t.define symbol =
        .error (.spanned (.redeclared symbol.name existing.line) symbol.span) := by
      rw [Table.define, hcurrent, Option.bind_some, hfound]
      rfl
    rw [hdefine]
    exact .error _
  | none =>
    obtain ⟨t', hdefine⟩ : ∃ t', t.define symbol = .ok t' :=
      ⟨_, h.coherent.define_eq_ok.2 ⟨scope, hcurrent, hfound, rfl⟩⟩
    obtain ⟨scope', outer', hold, hscope, hnew⟩ := h.coherent.visible_define hdefine
    cases hvisible.symm.trans hold
    rw [hdefine]
    refine .ok { coherent := h.coherent.define hdefine, levels := ?_, next := ?_ }
    · have hlevel : (scope.push symbol).level = σ.top.bind symbol := by
        rw [← htop, Scope.level, Stack.Level.bind, Stack.Level.mk.injEq]
        refine ⟨rfl, ?_⟩
        funext name
        exact hscope.get?_push
      rw [hnew, List.map_cons, hlevel, houter]
      rfl
    · obtain ⟨_, -, -, rfl⟩ := h.coherent.define_eq_ok.1 hdefine
      simpa using h.next

/-- One operation. -/
theorem perform (h : Simulates t σ) (op : Table.Op) :
    SimulatesStep (t.perform op) (σ.perform op) := by
  cases op with
  | enter block => exact .ok (h.enter block)
  | exit => exact h.exit
  | define symbol => exact h.define symbol

/-- Any number of operations. -/
theorem attempt (h : Simulates t σ) (ops : List Table.Op) :
    Simulates (attempt Table.perform t ops).1 (attempt Stack.perform σ ops).1 ∧
      (Slate.attempt Table.perform t ops).2 = (Slate.attempt Stack.perform σ ops).2 := by
  induction ops generalizing t σ with
  | nil => exact ⟨h, rfl⟩
  | cons op ops ih =>
    have hstep := h.perform op
    rw [Slate.attempt, Slate.attempt]
    generalize t.perform op = r, σ.perform op = r' at hstep
    cases hstep with
    | ok h' => exact ⟨(ih h').1, congrArg (none :: ·) (ih h').2⟩
    | error d => exact ⟨(ih h).1, congrArg (some d :: ·) (ih h).2⟩

/-! ## Answers -/

/-- Looking a name up in the table is looking it up in the stack. -/
theorem lookup (h : Simulates t σ) (name : String) : t.lookupWithScope? name = σ.lookup? name := by
  rw [Stack.lookup?, ← h.levels, List.findSome?_map]
  rfl

theorem current (h : Simulates t σ) : t.current = σ.top.id := by
  obtain ⟨scope, -, -, -, hstands, htop, -⟩ := h.top
  rw [← htop, ← hstands.id]
  rfl

theorem depth (h : Simulates t σ) : t.depth = σ.height - 1 := by
  rw [Table.depth, Stack.height, ← h.levels, List.length_map]

end Simulates

/-- The table that operations make of the empty one. -/
def Table.after (ops : List Table.Op) : Table := (attempt Table.perform .empty ops).1

/-- What operations on the empty table fail with. -/
def Table.failures (ops : List Table.Op) : List (Option Diagnostic) :=
  (attempt Table.perform .empty ops).2

/-- The stack that operations make of the bottom. -/
def Stack.after (ops : List Table.Op) : Stack := (attempt Stack.perform .bottom ops).1

/-- What operations on the bottom fail with. -/
def Stack.failures (ops : List Table.Op) : List (Option Diagnostic) :=
  (attempt Stack.perform .bottom ops).2

/-- A table on which any operations have been tried, starting from the empty one, has
failed where a stack of maps fails, with the same diagnostics; it shows the levels of
that stack and answers like it. Operations that are balanced between entering a scope
and leaving it again do leave it, and change the answer to no look-up. -/
theorem table_answers_as_stack (ops : List Table.Op) :
    Simulates (.after ops) (.after ops) ∧
    Table.failures ops = Stack.failures ops ∧
    (∀ name, (Table.after ops).lookupWithScope? name = (Stack.after ops).lookup? name) ∧
    (Table.after ops).current = (Stack.after ops).top.id ∧
    (Table.after ops).depth = (Stack.after ops).height - 1 ∧
    ∀ block inner, Table.Balanced inner →
      (Table.failures (ops ++ .enter block :: (inner ++ [.exit]))).getLast? = some none ∧
      ∀ name, (Table.after (ops ++ .enter block :: (inner ++ [.exit]))).lookupWithScope? name =
        (Table.after ops).lookupWithScope? name := by
  obtain ⟨hsim, hfailures⟩ := Simulates.empty.attempt ops
  refine ⟨hsim, hfailures, hsim.lookup, hsim.current, hsim.depth, ?_⟩
  intro block inner hbalanced
  obtain ⟨hsim', hfailures'⟩ := hsim.attempt (.enter block :: (inner ++ [.exit]))
  obtain ⟨hlevels, hlast⟩ := Stack.levels_nest hbalanced (.after ops) block
  constructor
  · rw [Table.failures, attempt_append, hfailures', List.getLast?_append]
    rw [Stack.after] at hlast
    rw [hlast]
    rfl
  · intro name
    rw [Table.after, attempt_append, Table.after, hsim'.lookup, hsim.lookup, Stack.lookup?,
      Stack.lookup?]
    rw [Stack.after] at hlevels
    rw [hlevels]

/-- A name is bound again in an inner scope; behind it, leaving the global scope fails, and
so does binding the name once more. -/
theorem table_answers_as_stack_shadowing :
    let x : Symbol := .initialized "x" default (.int 1) true
    let ops : List Table.Op := [.define x, .enter none, .define x, .exit, .exit, .define x]
    Table.Balanced [.define x] ∧
      Table.failures ops = [none, none, none, none, some (.ofDefect .exitOfGlobalScope),
        some (.spanned (.redeclared "x" x.line) x.span)] ∧
      ∀ name, (Table.after (ops ++ [.enter none, .define x, .exit])).lookupWithScope? name =
        (Table.after ops).lookupWithScope? name := by
  intro x ops
  have hbalanced : Table.Balanced [.define x] := .define .nil
  obtain ⟨-, hfailures, -, -, -, hnest⟩ := table_answers_as_stack ops
  exact ⟨hbalanced, hfailures.trans rfl, (hnest none [.define x] hbalanced).2⟩

end Slate
