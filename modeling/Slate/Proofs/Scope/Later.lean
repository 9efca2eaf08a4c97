-- SUMMARY: What a name stands for in a scope, and so the type of an expression there, stays as it is while the table grows.
import Slate.Proofs.Typing.Declarative

/-!
# Later tables

A table only grows, and a name is bound only where it cannot be seen yet. What a name
stands for in some scope it therefore stands for there ever after, also when another
scope is current, and the type that an expression has in that scope can still be read
off the finished table.
-/

namespace Slate

/-! ## Typing in a larger environment -/

/-- What is bound in the one environment is bound in the other, to the same entity. -/
def Env.Within (Γ Γ' : Env) : Prop :=
  ∀ name entity, Γ.lookup? name = some entity → Γ'.lookup? name = some entity

theorem Env.Within.callee? {Γ Γ' : Env} (h : Γ.Within Γ') {name : String} {signature : Signature}
    (hcallee : Γ.callee? name = some signature) : Γ'.callee? name = some signature := by
  unfold Env.callee? at hcallee ⊢
  cases hbuiltin : Builtin.signature? name with
  | some written =>
    rw [hbuiltin] at hcallee
    exact hcallee
  | none =>
    rw [hbuiltin] at hcallee
    cases hlookup : Γ.lookup? name with
    | none =>
      rw [hlookup] at hcallee
      cases hcallee
    | some entity =>
      rw [hlookup] at hcallee
      rw [h name entity hlookup]
      exact hcallee

mutual

theorem Expr.HasType.mono {Γ Γ' : Env} (h : Γ.Within Γ') {e : Expr} {ty : Ty} :
    e.HasType Γ ty → e.HasType Γ' ty
  | .literal => .literal
  | .ident hlookup => .ident (h _ _ hlookup)
  | .binary hleft hright hop => .binary (hleft.mono h) (hright.mono h) hop
  | .unary hoperand hop => .unary (hoperand.mono h) hop
  | .call hcallee harguments => .call (h.callee? hcallee) (harguments.mono h)

theorem HaveTypes.mono {Γ Γ' : Env} (h : Γ.Within Γ') {es : List Expr} {types : List Ty} :
    HaveTypes Γ es types → HaveTypes Γ' es types
  | .nil => .nil
  | .cons he hes => .cons (he.mono h) (hes.mono h)

end

namespace Table

variable {t t' t'' : Table} {symbol : Symbol} {name : String} {k : Nat}

/-! ## Other places in a table -/

/-- The table as it is seen from the scope of number `k`. -/
def seenFrom (t : Table) (k : Nat) : Table := { t with current := k }

theorem lookup?_seenFrom (t : Table) (k : Nat) (name : String) :
    (t.seenFrom k).lookup? name = (enclosing t.scopes k).findSome? (·.get? name) :=
  lookup?_eq (t.seenFrom k) name

/-- What a name stands for in a scope of the one table, it stands for in that scope of
the other one. -/
def Persists (t t' : Table) : Prop :=
  ∀ k name symbol, (t.seenFrom k).lookup? name = some symbol →
    (t'.seenFrom k).lookup? name = some symbol

namespace Persists

theorem refl (t : Table) : t.Persists t := fun _ _ _ h => h

theorem trans (h : t.Persists t') (h' : t'.Persists t'') : t.Persists t'' :=
  fun k name symbol hlookup => h' k name symbol (h k name symbol hlookup)

/-- An expression keeps its type. -/
theorem type? (h : t.Persists t') {e : Expr} {ty : Ty}
    (hty : e.type? (t.seenFrom k) = some ty) : e.type? (t'.seenFrom k) = some ty := by
  rw [Expr.type?_iff_hasType] at hty ⊢
  refine hty.mono fun name entity hlookup => ?_
  rw [lookup?_env, Option.map_eq_some_iff] at hlookup ⊢
  obtain ⟨symbol, hsymbol, hentity⟩ := hlookup
  exact ⟨symbol, h k name symbol hsymbol, hentity⟩

end Persists

/-- What changes only behind the scopes of a table changes nothing for it. -/
theorem persists_of_enclosing
    (h : ∀ k < t.scopes.length, enclosing t'.scopes k = enclosing t.scopes k) :
    t.Persists t' := by
  intro k name symbol hlookup
  rw [lookup?_seenFrom] at hlookup ⊢
  by_cases hk : k < t.scopes.length
  · rw [h k hk]
    exact hlookup
  · rw [enclosing, List.getElem?_eq_none (Nat.le_of_not_lt hk)] at hlookup
    cases hlookup

/-- A name is bound where it cannot be seen, and then it hides nothing. -/
theorem Coherent.persists_define (h : t.Coherent) (hdefine : t.define symbol = .ok t')
    (hfresh : t.lookup? symbol.name = none) : t.Persists t' := by
  obtain ⟨top, -, -, hscopes⟩ := h.define_eq_ok.1 hdefine
  intro k name found hlookup
  -- on the number of the scope: the scopes around it come before it
  induction k using Nat.strongRecOn with
  | ind k ih =>
    by_cases hk : k = t.current
    · subst hk
      have hcurrent : t'.current = t.current := by rw [hscopes]
      have hother : name ≠ symbol.name := by
        rintro rfl
        cases hlookup.symm.trans hfresh
      rw [← hcurrent]
      refine (h.lookup?_define hdefine name).trans ?_
      rw [if_neg hother]
      exact hlookup
    · have hsame : t'.scopes[k]? = t.scopes[k]? := by
        rw [hscopes]
        exact List.getElem?_modify_ne _ _ (Ne.symm hk)
      rw [lookup?_seenFrom, enclosing] at hlookup ⊢
      rw [hsame]
      cases hget : t.scopes[k]? with
      | none =>
        rw [hget] at hlookup
        cases hlookup
      | some scope =>
        simp only [hget] at hlookup ⊢
        obtain ⟨hparent, -⟩ | ⟨p, hparent, hp⟩ := (h.scopes k scope hget).parent
        · simp only [hparent] at hlookup ⊢
          exact hlookup
        · simp only [hparent, if_pos hp, List.findSome?_cons] at hlookup ⊢
          cases hown : scope.get? name with
          | some own =>
            rw [hown] at hlookup
            exact hlookup
          | none =>
            rw [hown] at hlookup
            have hp := ih p hp (by rw [lookup?_seenFrom]; exact hlookup)
            rw [lookup?_seenFrom] at hp
            exact hp

end Table

end Slate
