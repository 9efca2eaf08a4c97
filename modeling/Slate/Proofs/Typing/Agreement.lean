-- SUMMARY: Inferring the type of an expression and checking it against a type are the same relation.
import Slate.Typing

/-!
# Agreement of the two typings

`Expr.type?` infers from the leaves up and `Expr.fits` checks from the root down,
each with its own case for every operator. Both turn out to read one table of
operators, `BinaryOp.result?` and `UnaryOp.result?`: an expression fits a type if
and only if it has that type and the type is not `void`.
-/

namespace Slate

/-! ## Types that are never void -/

theorem Value.ty_ne_void (v : Value) : v.ty ≠ .void := by
  cases v <;> simp [Value.ty]

theorem Symbol.valueType?_ne_void {s : Symbol} {ty : Ty} (h : s.valueType? = some ty) :
    ty ≠ .void := by
  cases s with
  | var v =>
    simp only [Symbol.valueType?, Option.some.injEq] at h
    exact h ▸ v.value.ty_ne_void
  | function name span params returns => simp [Symbol.valueType?] at h

/-- An operator neither takes nor yields `void`. -/
theorem BinaryOp.result?_ne_void {op : BinaryOp} {a b : Ty} (h : op.result? a = some b) :
    a ≠ .void ∧ b ≠ .void := by
  cases op <;> cases a <;>
    simp_all [BinaryOp.result?, BinaryOp.isArithmetic, BinaryOp.isOrdering,
      BinaryOp.isEquality, BinaryOp.isLogical] <;>
    subst h <;> simp

theorem UnaryOp.result?_ne_void {op : UnaryOp} {a b : Ty} (h : op.result? a = some b) :
    a ≠ .void ∧ b ≠ .void := by
  cases op <;> cases a <;> simp_all [UnaryOp.result?] <;> subst h <;> simp

/-- No built-in function takes a `void` argument. -/
theorem Builtin.params_ne_void {name : String} {signature : Signature}
    (h : Builtin.signature? name = some signature) : ∀ ty ∈ signature.params, ty ≠ .void := by
  -- the built-in functions are few enough to look at each of them
  have hall : ∀ entry ∈ Builtin.all, ∀ ty ∈ entry.2.params, ty ≠ .void := by decide
  have hmem : (name, signature) ∈ Builtin.all := by
    unfold Builtin.signature? at h
    generalize Builtin.all = entries at h
    induction entries with
    | nil => simp at h
    | cons entry entries ih =>
      rw [List.lookup_cons] at h
      split at h
      · next heq => simp_all [Prod.ext_iff]
      · exact List.mem_cons_of_mem _ (ih h)
  exact hall _ hmem

/-- No function takes a `void` argument: a parameter is a variable, and what a
variable stores is a value. -/
theorem Table.params_ne_void {t : Table} {name : String} {signature : Signature}
    (h : t.signature? name = some signature) : ∀ ty ∈ signature.params, ty ≠ .void := by
  unfold Table.signature? at h
  split at h
  · next builtin hb => cases h; exact Builtin.params_ne_void hb
  · obtain ⟨symbol, -, hs⟩ := Option.bind_eq_some_iff.1 h
    cases symbol with
    | var v => simp [Symbol.signature?] at hs
    | function name span params returns =>
      simp only [Symbol.signature?, Option.some.injEq] at hs
      subst hs
      intro ty hty
      obtain ⟨param, -, hparam⟩ := List.mem_filterMap.1 hty
      exact Symbol.valueType?_ne_void hparam

/-! ## Inference, construct by construct -/

theorem Table.callType?_eq_some {t : Table} {ty : Ty} {callee : String} {arguments : List Expr} :
    t.callType? callee arguments = some ty ↔
      ∃ signature, t.signature? callee = some signature ∧
        argumentsFit t signature.params arguments = true ∧ signature.returns = ty := by
  rw [Table.callType?]
  cases t.signature? callee with
  | none => simp
  | some signature => simp

namespace Expr

variable {t : Table} {ty : Ty}

theorem type?_binary {left right : Expr} {op : BinaryOp} {span : Span} :
    (binary left op right span).type? t = some ty ↔
      ∃ a, left.type? t = some a ∧ right.type? t = some a ∧ op.result? a = some ty := by
  rw [type?]
  split
  · next a b ha hb =>
    constructor
    · intro h
      split at h
      · next hab => exact ⟨a, ha, by rw [hb, hab], h⟩
      · cases h
    · rintro ⟨c, hc, hc', h⟩
      cases ha.symm.trans hc
      cases hb.symm.trans hc'
      simpa using h
  · next hnone =>
    constructor
    · intro h; cases h
    · rintro ⟨a, ha, hb, -⟩
      exact absurd hb (hnone a a ha)

theorem type?_unary {op : UnaryOp} {operand : Expr} {span : Span} :
    (unary op operand span).type? t = some ty ↔
      ∃ a, operand.type? t = some a ∧ op.result? a = some ty := by
  rw [type?, Option.bind_eq_some_iff]

theorem type?_ident {name : String} {span : Span} :
    (ident name span).type? t = some ty ↔
      ∃ v, t.boundVariable? name = some v ∧ v.value.ty = ty := by
  rw [type?, Option.map_eq_some_iff]

/-! ## Checking, construct by construct -/

theorem fits_ident {name : String} {span : Span} :
    (ident name span).fits t ty = true ↔
      ∃ v, t.boundVariable? name = some v ∧ v.value.ty = ty := by
  rw [fits]
  split
  · next v hv => simp [hv]
  · next hv => simp [hv]

/-- The checker's cases for an operator between two operands are the rows of the
table of operators. -/
theorem fits_binary {left right : Expr} {op : BinaryOp} {span : Span} :
    (binary left op right span).fits t ty = true ↔
      ∃ a, left.fits t a = true ∧ right.fits t a = true ∧ op.result? a = some ty := by
  constructor
  · intro h
    cases ty with
    | int =>
      simp only [fits, Bool.and_eq_true] at h
      exact ⟨.int, h.1.2, h.2, by simp [BinaryOp.result?, h.1.1]⟩
    | string =>
      simp only [fits, Bool.and_eq_true, beq_iff_eq] at h
      exact ⟨.string, h.1.2, h.2, by simp [BinaryOp.result?, h.1.1]⟩
    | bool =>
      -- equality alone accepts operands of three types, one after the other
      cases op <;>
        simp only [fits, BinaryOp.isLogical, BinaryOp.isOrdering, BinaryOp.isEquality,
          Bool.and_eq_true, Bool.or_eq_true, Bool.false_eq_true, if_true, if_false] at h
      case less | lessEqual | greater | greaterEqual => exact ⟨.int, h.1, h.2, rfl⟩
      case and | or => exact ⟨.bool, h.1, h.2, rfl⟩
      case equal | notEqual =>
        obtain (h | h) | h := h
        · exact ⟨.int, h.1, h.2, rfl⟩
        · exact ⟨.string, h.1, h.2, rfl⟩
        · exact ⟨.bool, h.1, h.2, rfl⟩
    | void => simp [fits] at h
  · rintro ⟨a, hl, hr, hop⟩
    -- the row of the table leaves one case of the checker for each operator and type
    cases a <;> cases op <;>
      simp [BinaryOp.result?, BinaryOp.isArithmetic, BinaryOp.isOrdering, BinaryOp.isEquality,
        BinaryOp.isLogical] at hop <;>
      subst hop <;>
      simp [fits, hl, hr, BinaryOp.isArithmetic, BinaryOp.isOrdering, BinaryOp.isEquality,
        BinaryOp.isLogical]

theorem fits_unary {op : UnaryOp} {operand : Expr} {span : Span} :
    (unary op operand span).fits t ty = true ↔
      ∃ a, operand.fits t a = true ∧ op.result? a = some ty := by
  constructor
  · intro h
    cases ty <;> cases op <;> simp only [fits, Bool.false_eq_true] at h
    · exact ⟨.int, h, rfl⟩
    · exact ⟨.bool, h, rfl⟩
  · rintro ⟨a, ha, hop⟩
    cases op <;> cases a <;> simp [UnaryOp.result?] at hop <;> subst hop <;> simp [fits, ha]

theorem fits_call {callee : String} {arguments : List Expr} {span : Span} :
    (call callee arguments span).fits t ty = true ↔
      ty ≠ .void ∧ t.callType? callee arguments = some ty := by
  rw [fits, Table.callType?]
  split
  · next signature hs =>
    by_cases hfit : argumentsFit t signature.params arguments = true
    · simp [hfit]
    · simp [hfit]
  · simp

/-! ## Agreement -/

/-- An expression fits a type if and only if it has that type and the type is not
`void`. Calls need no induction hypothesis, since both sides check the arguments
the same way. -/
theorem fits_iff_type? (t : Table) : (e : Expr) → (ty : Ty) →
    (e.fits t ty = true ↔ ty ≠ .void ∧ e.type? t = some ty)
  | literal value span, ty => by
    simp only [fits, type?, beq_iff_eq, Option.some.injEq]
    exact ⟨fun h => ⟨h ▸ value.ty_ne_void, h⟩, fun h => h.2⟩
  | ident name span, ty => by
    rw [fits_ident, type?_ident]
    constructor
    · rintro ⟨v, hv, rfl⟩
      exact ⟨v.value.ty_ne_void, v, hv, rfl⟩
    · rintro ⟨-, h⟩
      exact h
  | binary left op right span, ty => by
    rw [fits_binary, type?_binary]
    constructor
    · -- an operator neither takes nor yields void, so the side conditions come for free
      rintro ⟨a, hl, hr, hop⟩
      rw [fits_iff_type? t left] at hl
      rw [fits_iff_type? t right] at hr
      exact ⟨(BinaryOp.result?_ne_void hop).2, a, hl.2, hr.2, hop⟩
    · rintro ⟨-, a, hl, hr, hop⟩
      have ha := (BinaryOp.result?_ne_void hop).1
      exact ⟨a, (fits_iff_type? t left a).2 ⟨ha, hl⟩, (fits_iff_type? t right a).2 ⟨ha, hr⟩, hop⟩
  | unary op operand span, ty => by
    rw [fits_unary, type?_unary]
    constructor
    · rintro ⟨a, ha, hop⟩
      rw [fits_iff_type? t operand] at ha
      exact ⟨(UnaryOp.result?_ne_void hop).2, a, ha.2, hop⟩
    · rintro ⟨-, a, ha, hop⟩
      exact ⟨a, (fits_iff_type? t operand a).2 ⟨(UnaryOp.result?_ne_void hop).1, ha⟩, hop⟩
  | call callee arguments span, ty => by rw [fits_call, type?]

/-- An expression fits at most one type. -/
theorem fits_unique {t : Table} {e : Expr} {a b : Ty} (ha : e.fits t a = true)
    (hb : e.fits t b = true) : a = b := by
  rw [fits_iff_type?] at ha hb
  exact Option.some.inj (ha.2.symm.trans hb.2)

/-- What does not fit a type has another type, or none. -/
theorem type?_ne_of_not_fits {t : Table} {e : Expr} {ty : Ty} (hty : ty ≠ .void)
    (h : e.fits t ty = false) : e.type? t ≠ some ty := by
  intro he
  have hfits := (fits_iff_type? t e ty).2 ⟨hty, he⟩
  rw [h] at hfits
  cases hfits

end Expr

end Slate
