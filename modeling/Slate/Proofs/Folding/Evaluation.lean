-- SUMMARY: One untyped interpreter of expressions, and the three constant folders as its restrictions to a type.
import Slate.Folding
import Slate.Proofs.Typing.Agreement

/-!
# Evaluation and folding

`Expr.eval?` is an interpreter without types: it computes on whole values, and an
operator on operands it is not made for has no value. What names are worth is a
parameter. With the values that a symbol table knows it says what an expression
is worth at compile time, and each of the three folders yields a known value
exactly when that interpreter yields a value of the folder's type.
-/

namespace Slate

/-! ## Operators on values -/

/-- The word that a number wraps to: its residue modulo `2 ^ 32` that is at least
`-2 ^ 31` and less than `2 ^ 31`. -/
def wrap (n : Int) : Int32 := Int32.ofInt n

theorem toInt_wrap (n : Int) : (wrap n).toInt = n.bmod 4294967296 := Int32.toInt_ofInt

/-- The value of an operator between two values. Arithmetic is that of numbers,
wrapped; a quotient is truncated toward zero, a remainder has the sign of the
dividend, and neither exists for a divisor of zero. -/
def BinaryOp.compute? : BinaryOp → Value → Value → Option Value
  | .add, .int a, .int b => some (.int (wrap (a.toInt + b.toInt)))
  | .add, .string a, .string b => some (.string (a ++ b))
  | .subtract, .int a, .int b => some (.int (wrap (a.toInt - b.toInt)))
  | .multiply, .int a, .int b => some (.int (wrap (a.toInt * b.toInt)))
  | .divide, .int a, .int b =>
    if b.toInt = 0 then none else some (.int (wrap (a.toInt.tdiv b.toInt)))
  | .modulo, .int a, .int b =>
    if b.toInt = 0 then none else some (.int (wrap (a.toInt.tmod b.toInt)))
  | .less, .int a, .int b => some (.bool (a.toInt < b.toInt))
  | .lessEqual, .int a, .int b => some (.bool (a.toInt ≤ b.toInt))
  | .greater, .int a, .int b => some (.bool (b.toInt < a.toInt))
  | .greaterEqual, .int a, .int b => some (.bool (b.toInt ≤ a.toInt))
  | .equal, a, b => if a.ty = b.ty then some (.bool (a = b)) else none
  | .notEqual, a, b => if a.ty = b.ty then some (.bool (a ≠ b)) else none
  | .and, .bool a, .bool b => some (.bool (a && b))
  | .or, .bool a, .bool b => some (.bool (a || b))
  | _, _, _ => none

/-- The value of an operator before a value. -/
def UnaryOp.compute? : UnaryOp → Value → Option Value
  | .negate, .int a => some (.int (wrap (-a.toInt)))
  | .not, .bool b => some (.bool !b)
  | _, _ => none

/-- The least word divided by minus one is the least word again, without a remainder. -/
example : BinaryOp.divide.compute? (.int (-2147483648)) (.int (-1)) = some (.int (-2147483648)) ∧
    BinaryOp.modulo.compute? (.int (-2147483648)) (.int (-1)) = some (.int 0) := by decide

/-! ## The interpreter -/

/-- The value of an expression, given the values of names. Both operands of an
operator are evaluated, and a call has no value. -/
def Expr.eval? (names : String → Option Value) : Expr → Option Value
  | .literal value _ => some value
  | .ident name _ => names name
  | .binary left op right _ => do op.compute? (← left.eval? names) (← right.eval? names)
  | .unary op operand _ => (operand.eval? names).bind op.compute?
  | .call .. => none

/-- The value that a name is known to have at compile time: the one stored for the
nearest symbol of that name, if that is a variable of known value. -/
def Table.known? (t : Table) (name : String) : Option Value :=
  (t.lookup? name).bind Symbol.knownValue?

theorem Table.known?_eq_some {t : Table} {name : String} {value : Value} :
    t.known? name = some value ↔
      ∃ v, t.boundVariable? name = some v ∧ v.known = true ∧ v.value = value := by
  unfold Table.known? Table.boundVariable?
  cases t.lookup? name with
  | none => simp
  | some symbol =>
    cases symbol with
    | var v => simp [Symbol.knownValue?, Variable.knownValue?]
    | function name span params returns => simp [Symbol.knownValue?]

theorem Expr.eval?_binary {names : String → Option Value} {left right : Expr} {op : BinaryOp}
    {span : Span} {v : Value} :
    (Expr.binary left op right span).eval? names = some v ↔
      ∃ a b, left.eval? names = some a ∧ right.eval? names = some b ∧
        op.compute? a b = some v := by
  simp [Expr.eval?, Option.bind_eq_some_iff]

theorem Expr.eval?_unary {names : String → Option Value} {operand : Expr} {op : UnaryOp}
    {span : Span} {v : Value} :
    (Expr.unary op operand span).eval? names = some v ↔
      ∃ a, operand.eval? names = some a ∧ op.compute? a = some v := by
  simp [Expr.eval?, Option.bind_eq_some_iff]

/-! ## Types of values -/

theorem BinaryOp.result?_of_isEquality {op : BinaryOp} {ty : Ty} (hop : op.isEquality = true)
    (hty : ty ≠ .void) : op.result? ty = some .bool := by
  cases op <;> cases hop <;> cases ty <;> first | rfl | exact absurd rfl hty

/-- An operator has a value only for operands of the one type it is made for. -/
theorem BinaryOp.compute?_ty {op : BinaryOp} {a b v : Value} (h : op.compute? a b = some v) :
    a.ty = b.ty ∧ op.result? a.ty = some v.ty := by
  unfold BinaryOp.compute? at h
  split at h
  -- quotients and remainders have a guard, equality a condition on the types
  case h_5 | h_6 =>
    split at h <;> cases h
    exact ⟨rfl, rfl⟩
  case h_11 | h_12 =>
    split at h
    · next hab => cases h; exact ⟨hab, BinaryOp.result?_of_isEquality rfl (Value.ty_ne_void _)⟩
    · cases h
  case h_15 => cases h
  all_goals
    cases h
    exact ⟨rfl, rfl⟩

theorem UnaryOp.compute?_ty {op : UnaryOp} {a v : Value} (h : op.compute? a = some v) :
    op.result? a.ty = some v.ty := by
  cases op <;> cases a <;> simp [UnaryOp.compute?] at h <;> subst h <;> rfl

/-- What is worth something at compile time has the type of its worth. -/
theorem Expr.type?_of_eval? {t : Table} : {e : Expr} → {v : Value} →
    e.eval? t.known? = some v → e.type? t = some v.ty
  | .literal value _, v, h => by
    simp only [Expr.eval?, Option.some.injEq] at h
    simp [Expr.type?, h]
  | .ident name _, v, h => by
    obtain ⟨x, hx, -, rfl⟩ := Table.known?_eq_some.1 h
    exact Expr.type?_ident.2 ⟨x, hx, rfl⟩
  | .binary left op right _, v, h => by
    obtain ⟨a, b, ha, hb, hop⟩ := Expr.eval?_binary.1 h
    obtain ⟨hab, hty⟩ := BinaryOp.compute?_ty hop
    have hright := Expr.type?_of_eval? hb
    exact Expr.type?_binary.2 ⟨a.ty, Expr.type?_of_eval? ha, hab ▸ hright, hty⟩
  | .unary op operand _, v, h => by
    obtain ⟨a, ha, hop⟩ := Expr.eval?_unary.1 h
    exact Expr.type?_unary.2 ⟨a.ty, Expr.type?_of_eval? ha, UnaryOp.compute?_ty hop⟩

/-! ## Folding -/

namespace Folded

variable {α β γ : Type}

theorem map_eq_fixed {f : α → β} {a : Folded α} {v : β} :
    a.map f = fixed v ↔ ∃ x, a = fixed x ∧ f x = v := by
  obtain ⟨value, known⟩ := a
  simp only [map, fixed, mk.injEq]
  constructor
  · rintro ⟨rfl, rfl⟩
    exact ⟨value, ⟨rfl, rfl⟩, rfl⟩
  · rintro ⟨_, ⟨rfl, rfl⟩, rfl⟩
    exact ⟨rfl, rfl⟩

theorem combine_eq_fixed {f : α → β → γ} {a : Folded α} {b : Folded β} {v : γ} :
    a.combine f b = fixed v ↔ ∃ x y, a = fixed x ∧ b = fixed y ∧ f x y = v := by
  obtain ⟨x, xKnown⟩ := a
  obtain ⟨y, yKnown⟩ := b
  simp only [combine, fixed, mk.injEq, Bool.and_eq_true]
  constructor
  · rintro ⟨rfl, rfl, rfl⟩
    exact ⟨x, y, ⟨rfl, rfl⟩, ⟨rfl, rfl⟩, rfl⟩
  · rintro ⟨_, _, ⟨rfl, rfl⟩, ⟨rfl, rfl⟩, rfl⟩
    exact ⟨rfl, rfl, rfl⟩

theorem known_iff {a : Folded α} : a.known = true ↔ ∃ v, a = fixed v := by
  obtain ⟨value, known⟩ := a
  simp [fixed]

theorem unknown_ne_fixed {a v : α} : unknown a ≠ fixed v := by
  simp [unknown, fixed]

/-- A function of two folded values computes an operator on the optional values that
the folded ones stand for, if on those values the operator is that function. -/
theorem combine_eq_fixed_of_compute {op : BinaryOp} {f : α → α → β} {inject : α → Value}
    {out : β → Value} {a b : Folded α} {l r : Option Value}
    (hop : ∀ x y v, l = some x →
      (op.compute? x y = some (out v) ↔ ∃ p q, x = inject p ∧ y = inject q ∧ f p q = v))
    (hl : ∀ x, a = fixed x ↔ l = some (inject x)) (hr : ∀ y, b = fixed y ↔ r = some (inject y))
    (v : β) :
    a.combine f b = fixed v ↔
      ∃ x y, l = some x ∧ r = some y ∧ op.compute? x y = some (out v) := by
  rw [combine_eq_fixed]
  constructor
  · rintro ⟨p, q, hp, hq, hf⟩
    have hx := (hl p).1 hp
    exact ⟨_, _, hx, (hr q).1 hq, (hop _ _ v hx).2 ⟨p, q, rfl, rfl, hf⟩⟩
  · rintro ⟨x, y, hx, hy, happly⟩
    obtain ⟨p, q, rfl, rfl, hf⟩ := (hop x y v hx).1 happly
    exact ⟨p, q, (hl p).2 hx, (hr q).2 hy, hf⟩

end Folded

/-! ## Words -/

theorem wrap_add (a b : Int32) : wrap (a.toInt + b.toInt) = a + b := by simp [wrap]

theorem wrap_sub (a b : Int32) : wrap (a.toInt - b.toInt) = a - b := by simp [wrap]

theorem wrap_mul (a b : Int32) : wrap (a.toInt * b.toInt) = a * b := by simp [wrap]

theorem wrap_neg (a : Int32) : wrap (-a.toInt) = -a := by simp [wrap]

theorem wrap_div (a b : Int32) : wrap (a.toInt.tdiv b.toInt) = a / b := by
  rw [← Int32.toInt_inj, toInt_wrap, Int32.toInt_div]

theorem wrap_mod (a b : Int32) : wrap (a.toInt.tmod b.toInt) = a % b := by
  rw [wrap, ← Int32.toInt_mod, Int32.ofInt_toInt]

theorem toInt_eq_zero (b : Int32) : b.toInt = 0 ↔ b = 0 := by
  rw [← Int32.toInt_inj, Int32.toInt_zero]

/-- A quotient or remainder is known if both words are and the divisor is not zero.
The guard looks at the divisor's word even where it is not known. -/
theorem Folded.guarded_eq_fixed {f : Int32 → Int32 → Int32} {a b : Folded Int32} {v : Int32} :
    (if b.value = 0 then unknown 0 else a.combine f b) = fixed v ↔
      ∃ x y, a = fixed x ∧ b = fixed y ∧
        (if y = 0 then none else some (Value.int (f x y))) = some (.int v) := by
  constructor
  · intro h
    split at h
    · exact absurd h unknown_ne_fixed
    · next hzero =>
      obtain ⟨x, y, rfl, rfl, rfl⟩ := combine_eq_fixed.1 h
      have hy : ¬ y = 0 := hzero
      exact ⟨x, y, rfl, rfl, if_neg hy⟩
  · rintro ⟨x, y, rfl, rfl, h⟩
    split at h
    · cases h
    · next hzero =>
      cases h
      exact if_neg hzero

/-- Arithmetic on folded words is arithmetic on values, where both words are known. -/
theorem foldArithmetic_eq_fixed {op : BinaryOp} {a b : Folded Int32} {v : Int32} :
    foldArithmetic op a b = .fixed v ↔
      ∃ x y, a = .fixed x ∧ b = .fixed y ∧ op.compute? (.int x) (.int y) = some (.int v) := by
  cases op
  case add | subtract | multiply =>
    simp only [foldArithmetic, BinaryOp.compute?, wrap_add, wrap_sub, wrap_mul,
      Folded.combine_eq_fixed, Option.some.injEq, Value.int.injEq]
  case divide | modulo =>
    simp only [foldArithmetic, BinaryOp.compute?, wrap_div, wrap_mod, toInt_eq_zero]
    exact Folded.guarded_eq_fixed
  all_goals
    constructor
    · intro h
      exact absurd h Folded.unknown_ne_fixed
    · rintro ⟨x, y, -, -, h⟩
      cases (BinaryOp.compute?_ty h).2

/-! ## The three folders -/

theorem Value.ty_eq_int {a : Value} : a.ty = .int ↔ ∃ n, a = .int n := by
  cases a <;> simp [Value.ty]

theorem Value.ty_eq_string {a : Value} : a.ty = .string ↔ ∃ s, a = .string s := by
  cases a <;> simp [Value.ty]

theorem Value.ty_eq_bool {a : Value} : a.ty = .bool ↔ ∃ b, a = .bool b := by
  cases a <;> simp [Value.ty]

theorem BinaryOp.result?_int {op : BinaryOp} {ty : Ty} (h : op.result? ty = some .int) :
    ty = .int := by
  cases op <;> cases ty <;> first | rfl | cases h

theorem BinaryOp.result?_string {op : BinaryOp} {ty : Ty} (h : op.result? ty = some .string) :
    op = .add ∧ ty = .string := by
  cases op <;> cases ty <;> first | exact ⟨rfl, rfl⟩ | cases h

/-- Only addition makes a string, by appending two. -/
theorem BinaryOp.compute?_append {a b : Value} {v : String} :
    BinaryOp.add.compute? a b = some (.string v) ↔
      ∃ p q, a = .string p ∧ b = .string q ∧ p ++ q = v := by
  cases a <;> cases b <;> simp [BinaryOp.compute?]

theorem BinaryOp.compute?_and {a b : Value} {v : Bool} :
    BinaryOp.and.compute? a b = some (.bool v) ↔
      ∃ p q, a = .bool p ∧ b = .bool q ∧ (p && q) = v := by
  cases a <;> cases b <;> simp [BinaryOp.compute?]

theorem BinaryOp.compute?_or {a b : Value} {v : Bool} :
    BinaryOp.or.compute? a b = some (.bool v) ↔
      ∃ p q, a = .bool p ∧ b = .bool q ∧ (p || q) = v := by
  cases a <;> cases b <;> simp [BinaryOp.compute?]

theorem BinaryOp.compute?_notEqual {a b : Value} {v : Bool} :
    BinaryOp.notEqual.compute? a b = some (.bool v) ↔
      BinaryOp.equal.compute? a b = some (.bool !v) := by
  unfold BinaryOp.compute?
  by_cases hab : a.ty = b.ty
  · cases v <;> simp [hab]
  · simp [hab]

/-- An order between numbers is the order of their words. -/
theorem BinaryOp.compute?_ordering {op : BinaryOp} {a b : Value} {v : Bool}
    (hop : op.isOrdering = true) :
    op.compute? a b = some (.bool v) ↔
      ∃ p q, a = .int p ∧ b = .int q ∧ compareWords op p q = v := by
  cases op <;> cases hop <;> cases a <;> cases b <;>
    simp [BinaryOp.compute?, compareWords, Int32.lt_iff_toInt_lt, Int32.le_iff_toInt_le]

/-- Where the left value is of one type, equality compares two values of that type. -/
theorem BinaryOp.compute?_equal {α : Type} [BEq α] [LawfulBEq α] {inject : α → Value} {ty : Ty}
    {a b : Value} {v : Bool} (hinj : ∀ x y, inject x = inject y ↔ x = y)
    (hty : ∀ w : Value, w.ty = ty ↔ ∃ x, w = inject x) (ha : a.ty = ty) :
    BinaryOp.equal.compute? a b = some (.bool v) ↔
      ∃ p q, a = inject p ∧ b = inject q ∧ (p == q) = v := by
  have hbeq : ∀ p q, decide (inject p = inject q) = (p == q) := by
    intro p q
    rw [Bool.eq_iff_iff]
    simp [hinj]
  constructor
  · intro h
    have hab := (BinaryOp.compute?_ty h).1
    rw [BinaryOp.compute?, if_pos hab] at h
    obtain ⟨p, rfl⟩ := (hty a).1 ha
    obtain ⟨q, rfl⟩ := (hty b).1 (hab ▸ ha)
    exact ⟨p, q, rfl, rfl, (hbeq p q).symm.trans (Value.bool.inj (Option.some.inj h))⟩
  · rintro ⟨p, q, rfl, rfl, rfl⟩
    have hb : (inject q).ty = ty := (hty _).2 ⟨q, rfl⟩
    rw [BinaryOp.compute?, if_pos (ha.trans hb.symm), hbeq]

variable {t : Table}

/-- A folder reads a name as the value its variable is known to have, if that has
the folder's type. -/
theorem Expr.foldInt_ident {name : String} {span : Span} {v : Int32} :
    (Expr.ident name span).foldInt t = .fixed v ↔ t.known? name = some (.int v) := by
  rw [Table.known?_eq_some, Expr.foldInt]
  cases t.boundVariable? name with
  | none => simp [Folded.unknown_ne_fixed]
  | some x =>
    obtain ⟨_, _, value, known, _⟩ := x
    cases value <;> simp [Folded.fixed, Folded.unknown, and_comm]

theorem Expr.foldString_ident {name : String} {span : Span} {v : String} :
    (Expr.ident name span).foldString t = .fixed v ↔ t.known? name = some (.string v) := by
  rw [Table.known?_eq_some, Expr.foldString]
  cases t.boundVariable? name with
  | none => simp [Folded.unknown_ne_fixed]
  | some x =>
    obtain ⟨_, _, value, known, _⟩ := x
    cases value <;> simp [Folded.fixed, Folded.unknown, and_comm]

theorem Expr.foldBool_ident {name : String} {span : Span} {v : Bool} :
    (Expr.ident name span).foldBool t = .fixed v ↔ t.known? name = some (.bool v) := by
  rw [Table.known?_eq_some, Expr.foldBool]
  cases t.boundVariable? name with
  | none => simp [Folded.unknown_ne_fixed]
  | some x =>
    obtain ⟨_, _, value, known, _⟩ := x
    cases value <;> simp [Folded.fixed, Folded.unknown, and_comm]

/-- Folding to a number yields a known one exactly when the expression is worth it. -/
theorem Expr.foldInt_eq_fixed : (e : Expr) → (v : Int32) →
    (e.foldInt t = .fixed v ↔ e.eval? t.known? = some (.int v))
  | .literal (.int n) _, v => by simp [Expr.foldInt, Expr.eval?, Folded.fixed]
  | .literal (.string _) _, v | .literal (.bool _) _, v => by
    simp [Expr.foldInt, Expr.eval?, Folded.unknown_ne_fixed]
  | .ident name _, v => Expr.foldInt_ident
  | .binary left op right _, v => by
    rw [Expr.foldInt, foldArithmetic_eq_fixed, Expr.eval?_binary]
    constructor
    · rintro ⟨x, y, hx, hy, hop⟩
      exact ⟨_, _, (left.foldInt_eq_fixed x).1 hx, (right.foldInt_eq_fixed y).1 hy, hop⟩
    · rintro ⟨a, b, ha, hb, hop⟩
      -- only operators on two numbers make a number
      obtain ⟨hab, hty⟩ := BinaryOp.compute?_ty hop
      have hint := BinaryOp.result?_int hty
      obtain ⟨x, rfl⟩ := Value.ty_eq_int.1 hint
      obtain ⟨y, rfl⟩ := Value.ty_eq_int.1 (hab ▸ hint)
      exact ⟨x, y, (left.foldInt_eq_fixed x).2 ha, (right.foldInt_eq_fixed y).2 hb, hop⟩
  | .unary .negate operand _, v => by
    rw [Expr.foldInt, Folded.map_eq_fixed, Expr.eval?_unary]
    constructor
    · rintro ⟨x, hx, rfl⟩
      exact ⟨_, (operand.foldInt_eq_fixed x).1 hx, by simp [UnaryOp.compute?, wrap_neg]⟩
    · rintro ⟨a, ha, hop⟩
      cases a with
      | int x =>
        refine ⟨x, (operand.foldInt_eq_fixed x).2 ha, ?_⟩
        simpa [UnaryOp.compute?, wrap_neg] using hop
      | string _ | bool _ => cases hop
  | .unary .not operand _, v => by
    rw [Expr.foldInt, Expr.eval?_unary]
    · constructor
      · intro h
        exact absurd h Folded.unknown_ne_fixed
      · rintro ⟨a, -, hop⟩
        have hty := UnaryOp.compute?_ty hop
        cases a <;> cases hty
    all_goals simp
  | .call .., v => by simp [Expr.foldInt, Expr.eval?, Folded.unknown_ne_fixed]

theorem Expr.foldString_binary {left right : Expr} {op : BinaryOp} {span : Span}
    (hop : op ≠ .add) : (Expr.binary left op right span).foldString t = .unknown "" := by
  cases op <;> first | rfl | exact absurd rfl hop

/-- Folding to a string yields a known one exactly when the expression is worth it. -/
theorem Expr.foldString_eq_fixed : (e : Expr) → (v : String) →
    (e.foldString t = .fixed v ↔ e.eval? t.known? = some (.string v))
  | .literal (.string s) _, v => by simp [Expr.foldString, Expr.eval?, Folded.fixed]
  | .literal (.int _) _, v | .literal (.bool _) _, v => by
    simp [Expr.foldString, Expr.eval?, Folded.unknown_ne_fixed]
  | .ident name _, v => Expr.foldString_ident
  | .binary left op right _, v => by
    rw [Expr.eval?_binary]
    by_cases hadd : op = .add
    · subst hadd
      exact Folded.combine_eq_fixed_of_compute (fun _ _ _ _ => BinaryOp.compute?_append)
        left.foldString_eq_fixed right.foldString_eq_fixed v
    · rw [Expr.foldString_binary hadd]
      constructor
      · intro h
        exact absurd h Folded.unknown_ne_fixed
      · rintro ⟨a, b, -, -, hop⟩
        exact absurd (BinaryOp.result?_string (BinaryOp.compute?_ty hop).2).1 hadd
  | .unary op operand _, v => by
    rw [Expr.foldString, Expr.eval?_unary]
    · constructor
      · intro h
        exact absurd h Folded.unknown_ne_fixed
      · rintro ⟨a, -, hop⟩
        have hty := UnaryOp.compute?_ty hop
        cases op <;> cases a <;> cases hty
    all_goals simp
  | .call .., v => by simp [Expr.foldString, Expr.eval?, Folded.unknown_ne_fixed]

/-- The folder that an equality compares with is the one for the type of its left
operand, so it compares values of that type. -/
theorem Expr.foldEqual_eq_fixed {left right : Expr}
    (hleft : ∀ x, left.foldBool t = .fixed x ↔ left.eval? t.known? = some (.bool x))
    (hright : ∀ y, right.foldBool t = .fixed y ↔ right.eval? t.known? = some (.bool y))
    (v : Bool) :
    (match left.type? t with
      | some .int => (left.foldInt t).combine (· == ·) (right.foldInt t)
      | some .string => (left.foldString t).combine (· == ·) (right.foldString t)
      | some .bool => (left.foldBool t).combine (· == ·) (right.foldBool t)
      | _ => .unknown false) = .fixed v ↔
      ∃ a b, left.eval? t.known? = some a ∧ right.eval? t.known? = some b ∧
        BinaryOp.equal.compute? a b = some (.bool v) := by
  have hleftTy : ∀ {ty a}, left.type? t = some ty → left.eval? t.known? = some a → a.ty = ty :=
    fun hty ha => Option.some.inj ((Expr.type?_of_eval? ha).symm.trans hty)
  split
  next hty =>
    exact Folded.combine_eq_fixed_of_compute
      (fun _ _ _ ha =>
        BinaryOp.compute?_equal (by simp) (fun _ => Value.ty_eq_int) (hleftTy hty ha))
      left.foldInt_eq_fixed right.foldInt_eq_fixed v
  next hty =>
    exact Folded.combine_eq_fixed_of_compute
      (fun _ _ _ ha =>
        BinaryOp.compute?_equal (by simp) (fun _ => Value.ty_eq_string) (hleftTy hty ha))
      left.foldString_eq_fixed right.foldString_eq_fixed v
  next hty =>
    exact Folded.combine_eq_fixed_of_compute
      (fun _ _ _ ha =>
        BinaryOp.compute?_equal (by simp) (fun _ => Value.ty_eq_bool) (hleftTy hty ha))
      hleft hright v
  next hint hstring hbool =>
    constructor
    · intro h
      exact absurd h Folded.unknown_ne_fixed
    · rintro ⟨a, b, ha, -, -⟩
      -- a left operand that is worth something has one of the three types
      have hty := Expr.type?_of_eval? ha
      cases a with
      | int => exact absurd hty hint
      | string => exact absurd hty hstring
      | bool => exact absurd hty hbool

/-- Folding to a truth value yields a known one exactly when the expression is worth it. -/
theorem Expr.foldBool_eq_fixed : (e : Expr) → (v : Bool) →
    (e.foldBool t = .fixed v ↔ e.eval? t.known? = some (.bool v))
  | .literal (.bool b) _, v => by simp [Expr.foldBool, Expr.eval?, Folded.fixed]
  | .literal (.int _) _, v | .literal (.string _) _, v => by
    simp [Expr.foldBool, Expr.eval?, Folded.unknown_ne_fixed]
  | .ident name _, v => Expr.foldBool_ident
  | .binary left op right _, v => by
    rw [Expr.eval?_binary]
    cases op with
    | and =>
      exact Folded.combine_eq_fixed_of_compute (fun _ _ _ _ => BinaryOp.compute?_and)
        left.foldBool_eq_fixed right.foldBool_eq_fixed v
    | or =>
      exact Folded.combine_eq_fixed_of_compute (fun _ _ _ _ => BinaryOp.compute?_or)
        left.foldBool_eq_fixed right.foldBool_eq_fixed v
    | less | lessEqual | greater | greaterEqual =>
      exact Folded.combine_eq_fixed_of_compute (fun _ _ _ _ => BinaryOp.compute?_ordering rfl)
        left.foldInt_eq_fixed right.foldInt_eq_fixed v
    | equal => exact Expr.foldEqual_eq_fixed left.foldBool_eq_fixed right.foldBool_eq_fixed v
    | notEqual =>
      -- inequality is folded as the negation of equality
      have hequal := Expr.foldEqual_eq_fixed left.foldBool_eq_fixed right.foldBool_eq_fixed (!v)
      simp only [BinaryOp.compute?_notEqual]
      refine Iff.trans Folded.map_eq_fixed (Iff.trans ?_ hequal)
      constructor
      · rintro ⟨x, hx, rfl⟩
        rw [Bool.not_not]
        exact hx
      · intro h
        exact ⟨!v, h, Bool.not_not v⟩
    | add | subtract | multiply | divide | modulo =>
      constructor
      · intro h
        exact absurd h Folded.unknown_ne_fixed
      · rintro ⟨a, b, -, -, hop⟩
        have hty := (BinaryOp.compute?_ty hop).2
        cases a <;> cases hty
  | .unary .not operand _, v => by
    rw [Expr.eval?_unary]
    refine Iff.trans Folded.map_eq_fixed ?_
    constructor
    · rintro ⟨x, hx, rfl⟩
      exact ⟨_, (operand.foldBool_eq_fixed x).1 hx, rfl⟩
    · rintro ⟨a, ha, hop⟩
      cases a with
      | bool x =>
        refine ⟨x, (operand.foldBool_eq_fixed x).2 ha, ?_⟩
        simpa [UnaryOp.compute?] using hop
      | int _ | string _ => cases hop
  | .unary .negate operand _, v => by
    rw [Expr.eval?_unary]
    constructor
    · intro h
      exact absurd h Folded.unknown_ne_fixed
    · rintro ⟨a, -, hop⟩
      have hty := UnaryOp.compute?_ty hop
      cases a <;> cases hty
  | .call .., v => by simp [Expr.foldBool, Expr.eval?, Folded.unknown_ne_fixed]

/-! ## Refinement -/

/-- The three folders together refine the interpreter: on every expression, fitting or
not, each yields a known value exactly when the interpreter yields a value of its type,
and then it is that value. -/
theorem folding_refines_evaluation (t : Table) (e : Expr) :
    (∀ v, e.foldInt t = .fixed v ↔ e.eval? t.known? = some (.int v)) ∧
    ((e.foldInt t).known = true ↔ ∃ v, e.eval? t.known? = some (.int v)) ∧
    (∀ v, e.foldString t = .fixed v ↔ e.eval? t.known? = some (.string v)) ∧
    ((e.foldString t).known = true ↔ ∃ v, e.eval? t.known? = some (.string v)) ∧
    (∀ v, e.foldBool t = .fixed v ↔ e.eval? t.known? = some (.bool v)) ∧
    ((e.foldBool t).known = true ↔ ∃ v, e.eval? t.known? = some (.bool v)) := by
  refine ⟨e.foldInt_eq_fixed, ?_, e.foldString_eq_fixed, ?_, e.foldBool_eq_fixed, ?_⟩
  · rw [Folded.known_iff]
    exact exists_congr e.foldInt_eq_fixed
  · rw [Folded.known_iff]
    exact exists_congr e.foldString_eq_fixed
  · rw [Folded.known_iff]
    exact exists_congr e.foldBool_eq_fixed

end Slate
