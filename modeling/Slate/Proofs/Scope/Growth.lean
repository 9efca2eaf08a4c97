-- SUMMARY: How a table may grow: old scopes stay, only the current one gains symbols, and new scopes open inside it.
import Slate.Proofs.Scope.Coherent

/-!
# Growth of a table

Nothing that was entered into a table is ever taken out of it again. A table `Grows`
into another one if its scopes are all still there and only the current one of them has
gained symbols; it `Stays` if moreover the same scope is current, and the other table is
`Within` it if the current scope there was opened inside the old one. Entering and
leaving fit together: what stays inside an entered scope can be left, and has then
stayed outside too.
-/

namespace Slate

/-! ## One scope -/

/-- A scope has gained symbols behind its old ones, and is otherwise as it was. -/
structure Scope.Grown (s s' : Scope) : Prop where
  id : s'.id = s.id
  parent : s'.parent = s.parent
  block : s'.block = s.block
  symbols : s.symbols <+: s'.symbols

namespace Scope.Grown

variable {s s' s'' : Scope}

theorem refl (s : Scope) : s.Grown s :=
  { id := rfl, parent := rfl, block := rfl, symbols := List.prefix_rfl }

theorem trans (h : s.Grown s') (h' : s'.Grown s'') : s.Grown s'' where
  id := h'.id.trans h.id
  parent := h'.parent.trans h.parent
  block := h'.block.trans h.block
  symbols := h.symbols.trans h'.symbols

theorem push (s : Scope) (symbol : Symbol) : s.Grown (s.push symbol) :=
  { id := rfl, parent := rfl, block := rfl, symbols := List.prefix_append _ _ }

end Scope.Grown

namespace Table

/-! ## Growing -/

/-- Every scope is still there, and only the current one may have gained symbols. -/
structure Grows (t t' : Table) : Prop where
  kept : ∀ (i : Nat) (scope : Scope), t.scopes[i]? = some scope →
    ∃ scope' : Scope, t'.scopes[i]? = some scope' ∧ scope.Grown scope'
  frame : ∀ i < t.scopes.length, i ≠ t.current → t'.scopes[i]? = t.scopes[i]?

/-- The table has grown and the same scope is current. -/
structure Stays (t t' : Table) : Prop extends Grows t t' where
  current : t'.current = t.current

/-- The scope of number `k` is `root`, or was opened inside it, by way of scopes of number
`next` and above only. -/
inductive OpenedInside (scopes : List Scope) (root next : Nat) : Nat → Prop
  | root : OpenedInside scopes root next root
  | inner {k p : Nat} {scope : Scope} (later : next ≤ k) (entry : scopes[k]? = some scope)
      (parent : scope.parent = some p) (outer : OpenedInside scopes root next p) :
      OpenedInside scopes root next k

/-- The table has grown, and the scope that is current now is the old one or was opened
inside it since. -/
structure Within (t t' : Table) : Prop extends Grows t t' where
  opened : OpenedInside t'.scopes t.current t.scopes.length t'.current

variable {t t' t'' : Table} {symbol : Symbol} {block : Option Location}

theorem Grows.length_le (h : t.Grows t') : t.scopes.length ≤ t'.scopes.length := by
  refine Nat.le_of_not_lt fun hlt => ?_
  have hget := List.getElem?_eq_getElem hlt
  obtain ⟨scope', hscope', -⟩ := h.kept _ _ hget
  rw [List.getElem?_eq_none (Nat.le_refl _)] at hscope'
  cases hscope'

theorem Stays.refl (t : Table) : t.Stays t where
  kept _ scope h := ⟨scope, h, .refl scope⟩
  frame _ _ _ := rfl
  current := rfl

/-- What grows behind a table that has stayed has grown out of the old one. -/
theorem Stays.grows (h : t.Stays t') (h' : t'.Grows t'') : t.Grows t'' where
  kept i scope hscope := by
    obtain ⟨scope', hscope', hgrown⟩ := h.kept i scope hscope
    obtain ⟨scope'', hscope'', hgrown'⟩ := h'.kept i scope' hscope'
    exact ⟨scope'', hscope'', hgrown.trans hgrown'⟩
  frame i hi hcurrent := by
    rw [h'.frame i (Nat.lt_of_lt_of_le hi h.length_le) (h.current ▸ hcurrent),
      h.frame i hi hcurrent]

theorem Stays.trans (h : t.Stays t') (h' : t'.Stays t'') : t.Stays t'' where
  toGrows := h.grows h'.toGrows
  current := h'.current.trans h.current

theorem Stays.within (h : t.Stays t') : t.Within t' where
  toGrows := h.toGrows
  opened := h.current ▸ .root

/-! ## Scopes opened inside a scope -/

namespace OpenedInside

variable {scopes : List Scope} {root next k : Nat}

/-- A scope opened inside another one is inside everything that one is inside. -/
theorem trans {middle next' : Nat} (h : OpenedInside scopes middle next' k)
    (hnext : next ≤ next') (houter : OpenedInside scopes root next middle) :
    OpenedInside scopes root next k := by
  -- from the scope outwards, until the one in the middle is reached
  induction h with
  | root => exact houter
  | inner later entry parent _ ih => exact .inner (Nat.le_trans hnext later) entry parent ih

end OpenedInside

theorem Stays.trans_within (h : t.Stays t') (h' : t'.Within t'') : t.Within t'' where
  toGrows := h.grows h'.toGrows
  opened := h'.opened.trans h.length_le (h.current ▸ .root)

/-! ## Binding -/

theorem stays_define (h : t.define symbol = .ok t') : t.Stays t' := by
  unfold Table.define at h
  split at h
  · cases h
  · cases h
    refine { kept := ?_, frame := ?_, current := rfl }
    · intro i scope hscope
      rw [List.getElem?_modify, hscope]
      split
      · exact ⟨_, rfl, .push scope symbol⟩
      · exact ⟨_, rfl, .refl scope⟩
    · intro i _ hcurrent
      exact List.getElem?_modify_ne _ _ (Ne.symm hcurrent)

/-! ## Entering and leaving -/

/-- What grows inside an entered scope leaves every scope outside as it was. -/
theorem Grows.outside (h : (t.enter block).Grows t') :
    ∀ i < t.scopes.length, t'.scopes[i]? = t.scopes[i]? := by
  intro i hi
  have hlen : i < (t.enter block).scopes.length := by
    rw [Table.enter, List.length_append]
    exact Nat.lt_of_lt_of_le hi (Nat.le_add_right _ _)
  rw [h.frame i hlen (Nat.ne_of_lt hi)]
  exact List.getElem?_append_left hi

/-- The entered scope is still inside the one that was current. -/
theorem Grows.entered (h : (t.enter block).Grows t') :
    ∃ scope, t'.scopes[t.scopes.length]? = some scope ∧ scope.parent = some t.current := by
  obtain ⟨scope, hscope, hgrown⟩ := h.kept t.scopes.length _ List.getElem?_concat_length
  exact ⟨scope, hscope, hgrown.parent⟩

theorem grows_of_outside (h : ∀ i < t.scopes.length, t'.scopes[i]? = t.scopes[i]?) :
    t.Grows t' where
  kept i scope hscope := by
    have hi := (List.getElem?_eq_some_iff.1 hscope).1
    exact ⟨scope, by rw [h i hi, hscope], .refl scope⟩
  frame i hi _ := h i hi

/-- Inside an entered scope the walk is inside the scope around it too. -/
theorem Within.of_enter (h : (t.enter block).Within t') : t.Within t' where
  toGrows := grows_of_outside h.outside
  opened := by
    obtain ⟨scope, hscope, hparent⟩ := h.entered
    refine h.opened.trans ?_ (.inner (Nat.le_refl _) hscope hparent .root)
    rw [Table.enter, List.length_append]
    exact Nat.le_add_right _ _

/-- An entered scope that the walk has stayed in can be left for the one around it. -/
theorem Stays.exit (h : (t.enter block).Stays t') :
    t'.exit = .ok { t' with current := t.current } := by
  obtain ⟨scope, hscope, hparent⟩ := h.entered
  have hcurrent : t'.currentScope? = some scope := by
    rw [currentScope?, h.current]
    exact hscope
  rw [Table.exit, parent?, hcurrent, Option.bind_some, hparent]

theorem Stays.leave (h : (t.enter block).Stays t') : t.Stays { t' with current := t.current } where
  toGrows := grows_of_outside h.outside
  current := rfl

/-- Behind a scope that was entered and left again, the same scopes can be seen, with the
same symbols. -/
theorem Stays.visible_leave (h : (t.enter block).Stays t')
    (hcurrent : t.current < t.scopes.length) :
    ({ t' with current := t.current } : Table).visible = t.visible :=
  enclosing_congr fun i hi => h.outside i (Nat.lt_of_le_of_lt hi hcurrent)

end Table

end Slate
