-- SUMMARY: The representation invariant of symbol tables, and what can be seen from them after each operation.
import Slate.Scope

/-!
# Coherent tables

A table is an arena with an index beside the symbols of every scope. `Coherent`
says when the arena makes sense as a tree of scopes and each index agrees with
its symbols; the operations on tables keep it. What matters of a coherent table
to a look-up is the list of scopes that can be seen, and each operation changes
that list like a stack: entering pushes an empty scope, leaving pops one, and
binding changes only the top.
-/

namespace Slate

/-! ## Scopes -/

namespace Scope

/-- The names of a scope are distinct, and its index leads from exactly those names
to the positions of their symbols. -/
structure Coherent (s : Scope) : Prop where
  distinct : (s.symbols.map Symbol.name).Nodup
  indexed : ∀ name i, s.index.lookup name = some i ↔ (s.symbols[i]?).map Symbol.name = some name

variable {s : Scope} {name : String} {symbol : Symbol}

theorem coherent_empty (id : Nat) (parent : Option Nat) (block : Option Location) :
    (empty id parent block).Coherent where
  distinct := List.nodup_nil
  indexed := by simp [empty]

/-- In a coherent scope, looking a name up is searching for the symbol of that name. -/
theorem Coherent.get?_eq_some (h : s.Coherent) :
    s.get? name = some symbol ↔ symbol ∈ s.symbols ∧ symbol.name = name := by
  rw [get?, Option.bind_eq_some_iff]
  constructor
  · rintro ⟨i, hi, hsymbol⟩
    have hname := (h.indexed name i).1 hi
    rw [hsymbol, Option.map_some, Option.some.injEq] at hname
    exact ⟨List.mem_of_getElem? hsymbol, hname⟩
  · rintro ⟨hmem, rfl⟩
    obtain ⟨i, hi⟩ := List.getElem?_of_mem hmem
    exact ⟨i, (h.indexed _ i).2 (by rw [hi, Option.map_some]), hi⟩

theorem Coherent.get?_eq_none (h : s.Coherent) :
    s.get? name = none ↔ ∀ symbol ∈ s.symbols, symbol.name ≠ name := by
  rw [Option.eq_none_iff_forall_ne_some]
  constructor
  · intro hnone symbol hmem hname
    exact hnone symbol (h.get?_eq_some.2 ⟨hmem, hname⟩)
  · intro hall symbol hget
    obtain ⟨hmem, hname⟩ := h.get?_eq_some.1 hget
    exact hall symbol hmem hname

theorem lookup_push :
    (s.push symbol).index.lookup name =
      if name = symbol.name then some s.symbols.length else s.index.lookup name := by
  by_cases hname : name = symbol.name
  · simp [Scope.push, hname]
  · simp [Scope.push, List.lookup_cons, beq_eq_false_iff_ne.2 hname, hname]

theorem getElem?_push (i : Nat) :
    (s.push symbol).symbols[i]? =
      if i = s.symbols.length then some symbol else s.symbols[i]? := by
  simp only [Scope.push, List.getElem?_append]
  split
  · next hi => rw [if_neg (by omega)]
  · next hi =>
    split
    · next heq => simp [heq]
    · next hne =>
      rw [List.getElem?_eq_none (by simp; omega), List.getElem?_eq_none (by omega)]

theorem Coherent.push (h : s.Coherent) (hfresh : s.get? symbol.name = none) :
    (s.push symbol).Coherent where
  distinct := by
    rw [Scope.push, List.map_append, List.nodup_append]
    refine ⟨h.distinct, by simp, ?_⟩
    intro name hname other hother
    obtain ⟨existing, hmem, rfl⟩ := List.mem_map.1 hname
    simp only [List.map_cons, List.map_nil, List.mem_singleton] at hother
    exact hother ▸ h.get?_eq_none.1 hfresh existing hmem
  indexed := by
    -- the new position belongs to the new name, and neither occurred before
    intro name i
    rw [lookup_push, getElem?_push]
    by_cases hi : i = s.symbols.length
    · by_cases hname : name = symbol.name
      · simp [hi, hname]
      · rw [if_neg hname, if_pos hi, h.indexed, hi, List.getElem?_eq_none (Nat.le_refl _)]
        simp [Ne.symm hname]
    · rw [if_neg hi]
      by_cases hname : name = symbol.name
      · rw [if_pos hname, hname]
        simp only [Option.some.injEq, Option.map_eq_some_iff, Ne.symm hi, false_iff]
        rintro ⟨existing, hget, hold⟩
        exact h.get?_eq_none.1 hfresh existing (List.mem_of_getElem? hget) hold
      · rw [if_neg hname]
        exact h.indexed name i

/-- The names of a scope with one more symbol are the new one and the old ones. -/
theorem Coherent.get?_push (h : s.Coherent) :
    (s.push symbol).get? name = if name = symbol.name then some symbol else s.get? name := by
  rw [get?, lookup_push]
  by_cases hname : name = symbol.name
  · simp [hname, getElem?_push]
  · rw [if_neg hname, if_neg hname, get?]
    cases hi : s.index.lookup name with
    | none => rfl
    | some i =>
      have hold := (h.indexed name i).1 hi
      have hne : i ≠ s.symbols.length := by
        rintro rfl
        simp at hold
      simp [getElem?_push, hne]

/-- A coherent scope in its place in a table: its number is its position, and it is
the global scope or the scope around it was entered before. -/
structure StandsAt (s : Scope) (i : Nat) : Prop extends s.Coherent where
  id : s.id = i
  parent : s.parent = none ∧ i = 0 ∨ ∃ p, s.parent = some p ∧ p < i

theorem StandsAt.push {i : Nat} (h : s.StandsAt i) (hfresh : s.get? symbol.name = none) :
    (s.push symbol).StandsAt i where
  toCoherent := h.toCoherent.push hfresh
  id := h.id
  parent := h.parent

end Scope

/-! ## Tables -/

namespace Table

/-- Every scope is in its place, and the current scope is one of them. -/
structure Coherent (t : Table) : Prop where
  scopes : ∀ i (scope : Scope), t.scopes[i]? = some scope → scope.StandsAt i
  current : t.current < t.scopes.length

variable {t t' : Table} {symbol : Symbol} {name : String}

/-! ## Scopes around a scope -/

theorem enclosing_root {scopes : List Scope} {id : Nat} {scope : Scope}
    (hget : scopes[id]? = some scope) (hparent : scope.parent = none) :
    enclosing scopes id = [scope] := by
  rw [enclosing, hget]
  simp only [hparent]

theorem enclosing_inner {scopes : List Scope} {id p : Nat} {scope : Scope}
    (hget : scopes[id]? = some scope) (hparent : scope.parent = some p) (hp : p < id) :
    enclosing scopes id = scope :: enclosing scopes p := by
  rw [enclosing, hget]
  simp only [hparent, if_pos hp]

/-- What is around a scope is decided by the scopes entered up to it. -/
theorem enclosing_congr {scopes scopes' : List Scope} {id : Nat}
    (h : ∀ i, i ≤ id → scopes[i]? = scopes'[i]?) : enclosing scopes id = enclosing scopes' id := by
  -- on the number of the scope: the one around it, if it is taken at all, has a smaller number
  induction id using Nat.strongRecOn with
  | ind id ih =>
    rw [enclosing, enclosing, h id (Nat.le_refl id)]
    cases scopes'[id]? with
    | none => rfl
    | some scope =>
      cases hparent : scope.parent with
      | none => simp only [hparent]
      | some parent =>
        simp only [hparent]
        split
        · next hlt => rw [ih parent hlt fun i hi => h i (Nat.le_trans hi (Nat.le_of_lt hlt))]
        · rfl

/-- Scopes entered later are not around a scope. -/
theorem enclosing_append {scopes more : List Scope} {id : Nat} (h : id < scopes.length) :
    enclosing (scopes ++ more) id = enclosing scopes id :=
  enclosing_congr fun _ hi => List.getElem?_append_left (Nat.lt_of_le_of_lt hi h)

/-- What changes in a scope is not seen from the scopes entered before it. -/
theorem enclosing_modify {scopes : List Scope} {f : Scope → Scope} {k id : Nat} (h : id < k) :
    enclosing (scopes.modify k f) id = enclosing scopes id :=
  enclosing_congr fun _ hi =>
    List.getElem?_modify_ne _ _ (Nat.ne_of_gt (Nat.lt_of_le_of_lt hi h))

/-- What can be seen from a coherent table is the current scope and what can be seen
from the scope around it. -/
theorem Coherent.exists_visible (h : t.Coherent) :
    ∃ scope, t.currentScope? = some scope ∧ scope.StandsAt t.current ∧
      (scope.parent = none ∧ t.visible = [scope] ∨
        ∃ p, scope.parent = some p ∧ p < t.current ∧
          t.visible = scope :: enclosing t.scopes p) := by
  have hget := List.getElem?_eq_getElem h.current
  have hstands := h.scopes _ _ hget
  refine ⟨_, hget, hstands, ?_⟩
  rcases hstands.parent with ⟨hparent, -⟩ | ⟨p, hparent, hp⟩
  · exact Or.inl ⟨hparent, enclosing_root hget hparent⟩
  · exact Or.inr ⟨p, hparent, hp, enclosing_inner hget hparent hp⟩

/-! ## The empty table -/

theorem coherent_empty : Table.empty.Coherent where
  scopes := by
    intro i scope hget
    cases i with
    | zero =>
      cases hget
      exact { toCoherent := Scope.coherent_empty _ _ _, id := rfl, parent := Or.inl ⟨rfl, rfl⟩ }
    | succ i => cases hget
  current := Nat.zero_lt_one

theorem visible_empty : Table.empty.visible = [Scope.empty 0 none none] := by
  exact enclosing_root rfl rfl

/-! ## Entering -/

theorem Coherent.enter (h : t.Coherent) (block : Option Location) : (t.enter block).Coherent where
  scopes := by
    intro i scope hget
    simp only [Table.enter] at hget
    by_cases hi : i < t.scopes.length
    · rw [List.getElem?_append_left hi] at hget
      exact h.scopes i scope hget
    · have hlast : i = t.scopes.length := by
        have := (List.getElem?_eq_some_iff.1 hget).1
        simp only [List.length_append, List.length_singleton] at this
        omega
      subst hlast
      rw [List.getElem?_concat_length] at hget
      cases hget
      -- the scope that was current is the one around the new one, and came before it
      exact { toCoherent := Scope.coherent_empty _ _ _, id := rfl
              parent := Or.inr ⟨t.current, rfl, h.current⟩ }
  current := by simp [Table.enter]

/-- Entering pushes an empty scope. -/
theorem Coherent.visible_enter (h : t.Coherent) (block : Option Location) :
    (t.enter block).visible =
      Scope.empty t.scopes.length (some t.current) block :: t.visible := by
  have hinner := enclosing_inner (p := t.current)
    (List.getElem?_concat_length (l := t.scopes)
      (a := Scope.empty t.scopes.length (some t.current) block)) rfl h.current
  rw [enclosing_append h.current] at hinner
  exact hinner

/-! ## Leaving -/

theorem Coherent.exit (h : t.Coherent) (hexit : t.exit = .ok t') : t'.Coherent := by
  obtain ⟨scope, hcurrent, -, ⟨hparent, -⟩ | ⟨p, hparent, hp, -⟩⟩ := h.exists_visible
  · simp [Table.exit, parent?, hcurrent, hparent] at hexit
  · simp only [Table.exit, parent?, hcurrent, Option.bind_some, hparent] at hexit
    cases hexit
    exact { scopes := h.scopes, current := Nat.lt_trans hp h.current }

/-- Leaving pops a scope. -/
theorem Coherent.visible_exit (h : t.Coherent) (hexit : t.exit = .ok t') :
    t'.visible = t.visible.tail := by
  obtain ⟨scope, hcurrent, -, ⟨hparent, -⟩ | ⟨p, hparent, -, hvisible⟩⟩ := h.exists_visible
  · simp [Table.exit, parent?, hcurrent, hparent] at hexit
  · simp only [Table.exit, parent?, hcurrent, Option.bind_some, hparent] at hexit
    cases hexit
    rw [hvisible, List.tail_cons, visible]

/-- A scope can be left if there is another one around it. -/
theorem Coherent.exists_exit (h : t.Coherent) (houter : t.visible.tail ≠ []) :
    ∃ outer, t.exit = .ok outer := by
  obtain ⟨scope, hcurrent, -, ⟨-, hvisible⟩ | ⟨p, hparent, -, -⟩⟩ := h.exists_visible
  · exact absurd (by rw [hvisible, List.tail_cons]) houter
  · refine ⟨{ t with current := p }, ?_⟩
    simp only [Table.exit, parent?, hcurrent, Option.bind_some, hparent]

/-! ## Binding -/

/-- A name is bound only if the current scope does not bind it, and then its symbol is
put behind the others there. -/
theorem Coherent.define_eq_ok (h : t.Coherent) :
    t.define symbol = .ok t' ↔
      ∃ scope, t.currentScope? = some scope ∧ scope.get? symbol.name = none ∧
        t' = { t with scopes := t.scopes.modify t.current (·.push symbol) } := by
  obtain ⟨scope, hcurrent, -⟩ := h.exists_visible
  simp only [Table.define, hcurrent, Option.bind_some]
  constructor
  · intro hdefine
    split at hdefine
    · cases hdefine
    · next hnone =>
      cases hdefine
      exact ⟨scope, rfl, hnone, rfl⟩
  · rintro ⟨top, htop, hnone, rfl⟩
    cases htop
    rw [hnone]

theorem Coherent.define (h : t.Coherent) (hdefine : t.define symbol = .ok t') : t'.Coherent := by
  obtain ⟨top, htop, hnone, rfl⟩ := h.define_eq_ok.1 hdefine
  refine { scopes := ?_, current := by simpa using h.current }
  intro i scope hget
  rw [List.getElem?_modify, Option.map_eq_map, Option.map_eq_some_iff] at hget
  obtain ⟨old, hold, rfl⟩ := hget
  have hstands := h.scopes i old hold
  split
  · next hi =>
    subst hi
    cases htop.symm.trans hold
    exact hstands.push hnone
  · exact hstands

/-- Binding puts a symbol into the top scope. -/
theorem Coherent.visible_define (h : t.Coherent) (hdefine : t.define symbol = .ok t') :
    ∃ scope outer, t.visible = scope :: outer ∧ scope.Coherent ∧
      t'.visible = scope.push symbol :: outer := by
  obtain ⟨top, htop, -, rfl⟩ := h.define_eq_ok.1 hdefine
  obtain ⟨scope, hcurrent, hstands, hvisible⟩ := h.exists_visible
  cases htop.symm.trans hcurrent
  have hget : (t.scopes.modify t.current (·.push symbol))[t.current]? = some (top.push symbol) := by
    rw [List.getElem?_modify_eq, Option.map_eq_map, show t.scopes[t.current]? = some top from htop]
    rfl
  rcases hvisible with ⟨hparent, hvisible⟩ | ⟨p, hparent, hp, hvisible⟩
  · exact ⟨top, [], hvisible, hstands.toCoherent, enclosing_root hget hparent⟩
  · -- the scopes around the current one come before it, so none of them has changed
    refine ⟨top, _, hvisible, hstands.toCoherent, ?_⟩
    rw [visible, enclosing_inner hget hparent hp, enclosing_modify hp]

/-- A name can be bound if the top scope does not bind it. -/
theorem Coherent.exists_define_iff (h : t.Coherent) :
    (∃ t', t.define symbol = .ok t') ↔
      ∀ scope, t.visible.head? = some scope → scope.get? symbol.name = none := by
  obtain ⟨scope, hcurrent, -, hvisible⟩ := h.exists_visible
  have hhead : t.visible.head? = some scope := by
    rcases hvisible with ⟨-, hvisible⟩ | ⟨p, -, -, hvisible⟩ <;> rw [hvisible, List.head?_cons]
  constructor
  · rintro ⟨t', hdefine⟩ top htop
    obtain ⟨current, hcurrent', hnone, -⟩ := h.define_eq_ok.1 hdefine
    cases hcurrent.symm.trans hcurrent'
    cases hhead.symm.trans htop
    exact hnone
  · intro hfresh
    exact ⟨_, h.define_eq_ok.2 ⟨scope, hcurrent, hfresh scope hhead, rfl⟩⟩

/-! ## Looking up -/

/-- A name stands for the first symbol of that name among the visible scopes. -/
theorem lookup?_eq (t : Table) (name : String) :
    t.lookup? name = t.visible.findSome? (·.get? name) := by
  rw [lookup?, lookupWithScope?]
  induction t.visible with
  | nil => rfl
  | cons scope outer ih =>
    rw [List.findSome?_cons, List.findSome?_cons]
    cases scope.get? name with
    | none => exact ih
    | some symbol => rfl

/-- A name that cannot be seen can be bound. -/
theorem exists_define_of_unseen (h : t.lookup? symbol.name = none) :
    ∃ t', t.define symbol = .ok t' := by
  have hcurrent : t.currentScope?.bind (·.get? symbol.name) = none := by
    rw [lookup?_eq, visible, enclosing] at h
    rw [currentScope?]
    cases hget : t.scopes[t.current]? with
    | none => rfl
    | some scope =>
      rw [hget] at h
      have hhead : ∀ outer : List Scope,
          (scope :: outer).findSome? (·.get? symbol.name) = none → scope.get? symbol.name = none := by
        intro outer hnone
        exact List.findSome?_eq_none_iff.1 hnone scope List.mem_cons_self
      cases hparent : scope.parent with
      | none =>
        simp only [hparent] at h
        exact hhead _ h
      | some p =>
        simp only [hparent] at h
        split at h <;> exact hhead _ h
  exact ⟨_, by rw [Table.define, hcurrent]⟩

/-- Binding changes the look-up of one name. -/
theorem Coherent.lookup?_define (h : t.Coherent) (hdefine : t.define symbol = .ok t')
    (name : String) :
    t'.lookup? name = if name = symbol.name then some symbol else t.lookup? name := by
  obtain ⟨scope, outer, hvisible, hscope, hvisible'⟩ := h.visible_define hdefine
  rw [lookup?_eq, lookup?_eq, hvisible, hvisible', List.findSome?_cons, List.findSome?_cons,
    hscope.get?_push]
  by_cases hname : name = symbol.name
  · rw [if_pos hname, if_pos hname]
  · rw [if_neg hname, if_neg hname]

end Table

end Slate
