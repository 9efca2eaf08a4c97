-- SUMMARY: Walks along the parents of scopes end, and no number kept in a symbol table leads nowhere.
import Slate.Proofs.Scope.Stack

/-!
# Walks through a table

A table keeps numbers in three places: the parent of a scope, the cursor, and the positions
in the index of a scope. Here its operations are written out once more as they follow these
numbers, and the walks outwards as loops, turn by turn. A number that leads nowhere lets a
loop go astray, and nothing in a turn itself sees to it that the loop ends. In a coherent
table neither happens, and the walks find what the look-ups and operations on tables say.
-/

namespace Slate

/-! ## Loops -/

/-- A number that leads nowhere. -/
inductive Stray where
  | scope (id : Nat)
  | symbol (position : Nat)
deriving DecidableEq, Repr

section

variable {σ ρ : Type} {turn : σ → Except Stray (σ ⊕ ρ)} {s : σ} {r r' : ρ}

/-- A loop ends with a result. Each turn gives the result or the state for the next turn; a
loop that goes on for ever or goes astray does not end. -/
inductive Ends (turn : σ → Except Stray (σ ⊕ ρ)) : σ → ρ → Prop where
  | now {s : σ} {r : ρ} : turn s = .ok (.inr r) → Ends turn s r
  | later {s s' : σ} {r : ρ} : turn s = .ok (.inl s') → Ends turn s' r → Ends turn s r

theorem Ends.unique (h : Ends turn s r) (h' : Ends turn s r') : r = r' := by
  induction h with
  | now hturn =>
    cases h' with
    | now hturn' => exact Sum.inr.inj (Except.ok.inj (hturn.symm.trans hturn'))
    | later hturn' => cases hturn.symm.trans hturn'
  | later hturn _ ih =>
    cases h' with
    | now hturn' => cases hturn.symm.trans hturn'
    | later hturn' hrest =>
      cases hturn.symm.trans hturn'
      exact ih hrest

theorem Ends.iff_eq (h : Ends turn s r) : Ends turn s r' ↔ r' = r :=
  ⟨fun h' => h'.unique h, fun heq => heq ▸ h⟩

end

/-! ## Walking -/

/-- The symbol that a scope binds to a name, fetched from the position in the index. -/
def Scope.fetch (s : Scope) (name : String) : Except Stray (Option Symbol) :=
  match s.index.lookup name with
  | none => return none
  | some position =>
    match s.symbols[position]? with
    | some symbol => return some symbol
    | none => throw (.symbol position)

namespace Table

/-- The scope with a number. -/
def scopeAt (t : Table) (id : Nat) : Except Stray Scope :=
  match t.scopes[id]? with
  | some scope => return scope
  | none => throw (.scope id)

/-- One turn of the search for the innermost scope that binds a name. -/
def searchTurn (t : Table) (name : String) :
    Option Nat → Except Stray (Option Nat ⊕ Option (Symbol × Nat))
  | none => return .inr none
  | some id => do
    let scope ← t.scopeAt id
    match ← scope.fetch name with
    | some symbol => return .inr (some (symbol, id))
    | none => return .inl scope.parent

/-- Searching from the current scope outwards ends with a symbol and the number of its scope,
or with nothing. -/
def Searches (t : Table) (name : String) (found : Option (Symbol × Nat)) : Prop :=
  Ends (t.searchTurn name) (some t.current) found

/-- One turn of the way out, on which the scopes are counted. -/
def climbTurn (t : Table) : Option Nat × Nat → Except Stray ((Option Nat × Nat) ⊕ Nat)
  | (none, count) => return .inr count
  | (some id, count) => do
    let scope ← t.scopeAt id
    return .inl (scope.parent, count + 1)

/-- Climbing out of the current scope ends, with so many scopes around it. -/
def Climbs (t : Table) (count : Nat) : Prop :=
  ∃ scope, t.scopeAt t.current = .ok scope ∧ Ends t.climbTurn (scope.parent, 0) count

/-- An operation that goes by the numbers in the table. -/
def walkOp (t : Table) : Op → Except Stray (Except Diagnostic Table)
  | .enter block => return .ok (t.enter block)
  | .exit => do
    let scope ← t.scopeAt t.current
    match scope.parent with
    | some parent => return .ok { t with current := parent }
    | none => return .error (.ofDefect .exitOfGlobalScope)
  | .define symbol => do
    let scope ← t.scopeAt t.current
    match ← scope.fetch symbol.name with
    | some existing => return .error (redeclaration symbol.name existing symbol.span)
    | none => return .ok { t with scopes := t.scopes.modify t.current (·.push symbol) }

end Table

/-! ## Walks in a coherent table -/

/-- The index of a coherent scope leads to its symbols. -/
theorem Scope.Coherent.fetch_eq {s : Scope} (h : s.Coherent) (name : String) :
    s.fetch name = pure (s.get? name) := by
  rw [fetch, get?]
  cases hposition : s.index.lookup name with
  | none => rfl
  | some position =>
    obtain ⟨symbol, hsymbol, -⟩ := Option.map_eq_some_iff.1 ((h.indexed name position).1 hposition)
    simp only [hsymbol, Option.bind_some]

namespace Table

variable {t : Table} {id : Nat} {scope : Scope}

theorem scopeAt_eq (h : t.scopes[id]? = some scope) : t.scopeAt id = pure scope := by
  rw [scopeAt, h]

theorem searchTurn_eq (name : String) (hget : t.scopes[id]? = some scope)
    (hscope : scope.Coherent) :
    t.searchTurn name (some id) = .ok
      (match scope.get? name with
      | some symbol => .inr (some (symbol, id))
      | none => .inl scope.parent) := by
  simp only [searchTurn, scopeAt_eq hget, hscope.fetch_eq, pure_bind]
  cases scope.get? name <;> rfl

theorem climbTurn_eq (count : Nat) (hget : t.scopes[id]? = some scope) :
    t.climbTurn (some id, count) = .ok (.inl (scope.parent, count + 1)) := by
  simp only [climbTurn, scopeAt_eq hget, pure_bind]
  rfl

namespace Coherent

/-- From every scope the search ends, with the first binding among the scopes around it. -/
theorem search_ends (h : t.Coherent) (name : String) (hid : id < t.scopes.length) :
    Ends (t.searchTurn name) (some id)
      ((enclosing t.scopes id).findSome? fun scope => (scope.get? name).map (·, scope.id)) := by
  -- on the number of the scope, which gets smaller with every step outwards
  induction id using Nat.strongRecOn with
  | ind id ih =>
    obtain ⟨scope, hget⟩ : ∃ scope, t.scopes[id]? = some scope :=
      ⟨_, List.getElem?_eq_getElem hid⟩
    have hstands := h.scopes id scope hget
    have hturn := searchTurn_eq name hget hstands.toCoherent
    rcases hstands.parent with ⟨hparent, -⟩ | ⟨p, hparent, hp⟩
    · rw [enclosing_root hget hparent, List.findSome?_singleton, hstands.id]
      cases hbound : scope.get? name with
      | some symbol => exact .now (by rw [hturn, hbound]; rfl)
      | none => exact .later (by rw [hturn, hbound, hparent]) (.now rfl)
    · rw [enclosing_inner hget hparent hp, List.findSome?_cons, hstands.id]
      cases hbound : scope.get? name with
      | some symbol => exact .now (by rw [hturn, hbound]; rfl)
      | none =>
        exact .later (by rw [hturn, hbound, hparent]) (ih p hp (Nat.lt_trans hp hid))

/-- From every scope the way out ends, and the scope and those around it have been counted. -/
theorem climb_ends (h : t.Coherent) (hid : id < t.scopes.length) (count : Nat) :
    Ends t.climbTurn (some id, count) (count + (enclosing t.scopes id).length) := by
  induction id using Nat.strongRecOn generalizing count with
  | ind id ih =>
    obtain ⟨scope, hget⟩ : ∃ scope, t.scopes[id]? = some scope :=
      ⟨_, List.getElem?_eq_getElem hid⟩
    refine .later (climbTurn_eq count hget) ?_
    rcases (h.scopes id scope hget).parent with ⟨hparent, -⟩ | ⟨p, hparent, hp⟩
    · rw [enclosing_root hget hparent, hparent]
      exact .now rfl
    · have hcount : count + (scope :: enclosing t.scopes p).length =
          count + 1 + (enclosing t.scopes p).length := by
        rw [List.length_cons]
        omega
      rw [enclosing_inner hget hparent hp, hparent, hcount]
      exact ih p hp (Nat.lt_trans hp hid) (count + 1)

theorem climbs_depth (h : t.Coherent) : t.Climbs t.depth := by
  obtain ⟨scope, hget, -, ⟨hparent, hvisible⟩ | ⟨p, hparent, hp, hvisible⟩⟩ := h.exists_visible
  · refine ⟨scope, scopeAt_eq hget, ?_⟩
    rw [hparent, depth, hvisible]
    exact .now rfl
  · have hclimb := h.climb_ends (Nat.lt_trans hp h.current) 0
    refine ⟨scope, scopeAt_eq hget, ?_⟩
    rwa [hparent, depth, hvisible, List.length_cons, Nat.add_sub_cancel,
      ← Nat.zero_add (List.length _)]

theorem climbs_iff (h : t.Coherent) (count : Nat) : t.Climbs count ↔ count = t.depth := by
  obtain ⟨scope, hscope, hends⟩ := h.climbs_depth
  refine ⟨fun ⟨scope', hscope', hends'⟩ => ?_, fun heq => ⟨scope, hscope, heq ▸ hends⟩⟩
  cases hscope.symm.trans hscope'
  exact hends'.unique hends

theorem walkOp_eq (h : t.Coherent) (op : Op) : t.walkOp op = .ok (t.perform op) := by
  obtain ⟨scope, hcurrent, hstands, -⟩ := h.exists_visible
  cases op with
  | enter block => rfl
  | exit =>
    simp only [walkOp, scopeAt_eq hcurrent, pure_bind, perform, Table.exit, parent?, hcurrent,
      Option.bind_some]
    cases scope.parent <;> rfl
  | define symbol =>
    simp only [walkOp, scopeAt_eq hcurrent, pure_bind, hstands.fetch_eq, perform, Table.define,
      hcurrent, Option.bind_some]
    cases scope.get? symbol.name <;> rfl

end Coherent

/-- Whatever operations have been tried on a table, starting from the empty one, the table is
coherent: every scope has its position as its number, the global scope alone has no scope
around it and all others have one of smaller number, the current scope is one of them, and
the index of a scope leads from its names, which are distinct, to the positions of their
symbols and from no other name. So the walks outwards end, just with the answers of the
look-ups, and neither they nor another operation come to a number that leads nowhere. -/
theorem after_coherent (ops : List Op) :
    let t := Table.after ops
    t.Coherent ∧ (∀ name found, t.Searches name found ↔ found = t.lookupWithScope? name) ∧
      (∀ count, t.Climbs count ↔ count = t.depth) ∧
      ∀ op, t.walkOp op = .ok (t.perform op) := by
  intro t
  have h : t.Coherent := (Simulates.empty.attempt ops).1.coherent
  exact ⟨h, fun name found => (h.search_ends name h.current).iff_eq, h.climbs_iff, h.walkOp_eq⟩

end Table

end Slate
