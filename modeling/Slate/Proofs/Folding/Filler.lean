-- SUMMARY: What is stored for a variable whose value is not known: the default of its type, or what an operator makes of operands that are not known.
import Slate.Proofs.Check.Holding
import Slate.Proofs.Folding.Evaluation

/-!
# Values that are not known

A variable stores a value even where none is known. For a parameter, for a call and for a
quotient by zero it is the default of the type. An operator, though, computes on what its
operands store whether that is known or not, and its result is the default only by chance.
Names pass on what they read. So a stored value that is neither known nor the default has come
from an operator with an operand that is not known.
-/

namespace Slate

variable {t t' : Table} {k : Nat}

/-- The value is that of a variable of its type which is declared without an initializer. -/
def Value.IsDefault (v : Value) : Prop := v.ty.default? = some v

instance (v : Value) : Decidable v.IsDefault :=
  inferInstanceAs (Decidable (v.ty.default? = some v))

/-! ## Operators on values of the right type -/

theorem UnaryOp.exists_compute? {op : UnaryOp} {a : Value} {ty : Ty}
    (h : op.result? a.ty = some ty) : ∃ v, op.compute? a = some v := by
  cases op <;> cases a <;> first | exact ⟨_, rfl⟩ | cases h

/-- Between operands of one type that the operator is made for, only a zero divisor is in
the way of a value. -/
theorem BinaryOp.zero_of_compute?_eq_none {op : BinaryOp} {a b : Value} {ty : Ty}
    (hab : a.ty = b.ty) (hty : op.result? a.ty = some ty) (h : op.compute? a b = none) :
    (op = .divide ∨ op = .modulo) ∧ ty = .int ∧ b = .int 0 := by
  cases op with
  | divide | modulo =>
    obtain ⟨x, rfl⟩ : ∃ x, a = .int x := by
      cases a <;> first | exact ⟨_, rfl⟩ | cases hty
    obtain ⟨y, rfl⟩ := Value.ty_eq_int.1 hab.symm
    cases hty
    by_cases hy : y = 0
    · simp [hy]
    · simp [compute?, toInt_eq_zero, hy] at h
  | equal | notEqual => simp [compute?, hab] at h
  | _ => cases a <;> cases b <;> first | (cases h; done) | (cases hab; done) | cases hty

/-! ## Folding without a known value -/

/-- The expression is an operator with an operand that has no value at compile time. -/
def Expr.CombinesUnknown (t : Table) : Expr → Prop
  | .binary left _ right _ => left.eval? t.known? = none ∨ right.eval? t.known? = none
  | .unary _ operand _ => operand.eval? t.known? = none
  | _ => False

theorem Expr.fold?_of_eval? {e : Expr} {v : Value} (h : e.eval? t.known? = some v) :
    e.fold? t v.ty = some (.fixed v) := by
  cases v with
  | int n =>
    rw [Value.ty, fold?, (e.foldInt_eq_fixed n).2 h]
    rfl
  | string s =>
    rw [Value.ty, fold?, (e.foldString_eq_fixed s).2 h]
    rfl
  | bool b =>
    rw [Value.ty, fold?, (e.foldBool_eq_fixed b).2 h]
    rfl

theorem Expr.eval?_eq_none {e : Expr} {ty : Ty} {folded : Folded Value}
    (hty : e.type? t = some ty) (hfold : e.fold? t ty = some folded)
    (hknown : folded.known = false) : e.eval? t.known? = none := by
  cases heval : e.eval? t.known? with
  | none => rfl
  | some v =>
    cases (type?_of_eval? heval).symm.trans hty
    cases (fold?_of_eval? heval).symm.trans hfold
    cases hknown

/-- A name is folded to what its variable stores. -/
theorem Expr.fold?_ident {name : String} {span : Span} {v : Variable}
    (h : t.boundVariable? name = some v) :
    (Expr.ident name span).fold? t v.value.ty = some ⟨v.value, v.known⟩ := by
  obtain ⟨_, _, value, known, _⟩ := v
  cases value <;> simp only [Value.ty, fold?, foldInt, foldString, foldBool, h] <;> rfl

theorem Expr.fold?_call {callee : String} {arguments : List Expr} {span : Span} {ty : Ty}
    {folded : Folded Value} (h : (Expr.call callee arguments span).fold? t ty = some folded) :
    folded.value.IsDefault := by
  cases ty <;> cases h <;> rfl

theorem Expr.fold?_zero {op : BinaryOp} {left right : Expr} {span : Span} {folded : Folded Value}
    (hop : op = .divide ∨ op = .modulo) (hright : right.eval? t.known? = some (.int 0))
    (h : (Expr.binary left op right span).fold? t .int = some folded) :
    folded.value.IsDefault := by
  rw [fold?, foldInt, (right.foldInt_eq_fixed 0).2 hright] at h
  obtain rfl | rfl := hop <;> cases h <;> rfl

/-- What an expression is folded to without being known is the default, unless it is computed
from operands that are not known, or read from a variable that is not known. -/
theorem Expr.fold?_not_known {e : Expr} {ty : Ty} {folded : Folded Value}
    (hty : e.type? t = some ty) (hfold : e.fold? t ty = some folded)
    (hknown : folded.known = false) :
    folded.value.IsDefault ∨ e.CombinesUnknown t ∨
      ∃ name span v, e = .ident name span ∧ t.boundVariable? name = some v ∧
        v.known = false ∧ v.value = folded.value := by
  have heval := eval?_eq_none hty hfold hknown
  cases e with
  | literal => cases heval
  | ident name span =>
    obtain ⟨v, hv, rfl⟩ := type?_ident.1 hty
    cases (fold?_ident hv).symm.trans hfold
    exact .inr (.inr ⟨name, span, v, rfl, hv, hknown, rfl⟩)
  | binary left op right span =>
    obtain ⟨operands, hleft, hright, hop⟩ := type?_binary.1 hty
    cases ha : left.eval? t.known? with
    | none => exact .inr (.inl (.inl ha))
    | some a =>
      cases hb : right.eval? t.known? with
      | none => exact .inr (.inl (.inr hb))
      | some b =>
        -- both operands have values, and still the operator has none
        cases (type?_of_eval? ha).symm.trans hleft
        have hab : a.ty = b.ty := Option.some.inj (hright.symm.trans (type?_of_eval? hb))
        have hnone : op.compute? a b = none := by
          rw [eval?, ha, hb] at heval
          exact heval
        obtain ⟨hzero, rfl, rfl⟩ := BinaryOp.zero_of_compute?_eq_none hab hop hnone
        exact .inl (fold?_zero hzero hb hfold)
  | unary op operand span =>
    obtain ⟨a, hoperand, hop⟩ := type?_unary.1 hty
    cases ha : operand.eval? t.known? with
    | none => exact .inr (.inl ha)
    | some v =>
      cases (type?_of_eval? ha).symm.trans hoperand
      obtain ⟨w, hw⟩ := UnaryOp.exists_compute? hop
      cases heval.symm.trans (eval?_unary.2 ⟨v, ha, hw⟩)
  | call => exact .inl (fold?_call hfold)

/-! ## Later tables -/

theorem Table.boundVariable?_eq_some {name : String} {v : Variable} :
    t.boundVariable? name = some v ↔ t.lookup? name = some (.var v) := by
  unfold boundVariable?
  cases t.lookup? name with
  | none => simp only [reduceCtorEq]
  | some symbol => cases symbol <;> simp

/-- What has a type has the same value at compile time ever after, or never has one. -/
theorem Table.Persists.eval? (h : t.Persists t') : {e : Expr} → {ty : Ty} →
    e.type? (t.seenFrom k) = some ty →
      e.eval? (t'.seenFrom k).known? = e.eval? (t.seenFrom k).known?
  | .literal .., _, _ => rfl
  | .ident name _, _, hty => by
    obtain ⟨v, hv, -⟩ := Expr.type?_ident.1 hty
    have hlookup := boundVariable?_eq_some.1 hv
    rw [Expr.eval?, Expr.eval?, known?, known?, hlookup, h k name _ hlookup]
  | .binary left op right _, _, hty => by
    obtain ⟨a, hleft, hright, -⟩ := Expr.type?_binary.1 hty
    rw [Expr.eval?, Expr.eval?, h.eval? hleft, h.eval? hright]
  | .unary op operand _, _, hty => by
    obtain ⟨a, hoperand, -⟩ := Expr.type?_unary.1 hty
    rw [Expr.eval?, Expr.eval?, h.eval? hoperand]
  | .call .., _, _ => rfl

theorem Expr.CombinesUnknown.later (h : t.Persists t') {e : Expr} {ty : Ty}
    (hty : e.type? (t.seenFrom k) = some ty) (he : e.CombinesUnknown (t.seenFrom k)) :
    e.CombinesUnknown (t'.seenFrom k) := by
  cases e with
  | binary left op right span =>
    obtain ⟨a, hleft, hright, -⟩ := type?_binary.1 hty
    rw [CombinesUnknown, h.eval? hleft, h.eval? hright]
    exact he
  | unary op operand span =>
    obtain ⟨a, hoperand, -⟩ := type?_unary.1 hty
    rw [CombinesUnknown, h.eval? hoperand]
    exact he
  | _ => exact he

/-! ## Stored values -/

/-- What the variable `v` of the scope `k` stores comes from an operand that is not known: its
initializer is an operator with an operand that has no value at compile time, or the name of
another variable that is not known, of which the same is true. -/
inductive Program.Computes (p : Program) (t : Table) : Nat → Variable → Prop where
  | operator {k : Nat} {v : Variable} {written : Option Ty} {e : Expr}
      (defined : .define v.name written e v.span ∈ p.simples)
      (typed : e.type? (t.seenFrom k) = some v.value.ty)
      (combines : e.CombinesUnknown (t.seenFrom k)) : Computes p t k v
  | name {k i : Nat} {v read : Variable} {written : Option Ty} {name : String} {span : Span}
      {scope : Scope} (defined : .define v.name written (.ident name span) v.span ∈ p.simples)
      (reads : (t.seenFrom k).lookup? name = some (.var read))
      (bound : t.scopes[i]? = some scope) (mem : .var read ∈ scope.symbols)
      (unknown : read.known = false) (same : read.value = v.value)
      (computed : Computes p t i read) : Computes p t k v

theorem Program.Computes.later {p : Program} {v : Variable} (hgrows : t.Grows t')
    (hpersists : t.Persists t') (h : p.Computes t k v) : p.Computes t' k v := by
  induction h with
  | operator defined typed combines =>
    exact .operator defined (hpersists.type? typed) (combines.later hpersists typed)
  | name defined reads bound mem unknown same _ ih =>
    obtain ⟨scope', hscope', hgrown⟩ := hgrows.kept _ _ bound
    exact .name defined (hpersists _ _ _ reads) hscope' (hgrown.symbols.subset mem) unknown same ih

/-- A variable without an initializer stores the default of its type. So does any whose value
is not known, unless what it stores comes from an operand that is not known. -/
def Program.AccountsFor (p : Program) (t : Table) (k : Nat) (symbol : Symbol) : Prop :=
  ∀ v, symbol = .var v → (v.initialized = false → v.value.IsDefault) ∧
    (v.known = false → v.value.IsDefault ∨ p.Computes t k v)

theorem Value.isDefault_of_default? {ty : Ty} {value : Value} (h : ty.default? = some value) :
    value.IsDefault := by
  cases ty <;> cases h <;> rfl

theorem Program.accountsFor_default {p : Program} {ty : Ty} {value : Value} {v : Variable}
    (h : ty.default? = some value) (hv : v.value = value) : p.AccountsFor t k (.var v) := by
  intro other hother
  cases hother
  have hdefault : v.value.IsDefault := hv ▸ Value.isDefault_of_default? h
  exact ⟨fun _ => hdefault, fun _ => .inl hdefault⟩

theorem Program.filling_accountsFor (p : Program) : Check.Filling p.AccountsFor where
  lasting t t' k symbol hgrows hpersists h v hv := by
    obtain ⟨hdefault, hstored⟩ := h v hv
    exact ⟨hdefault, fun hknown => (hstored hknown).imp_right (.later hgrows hpersists)⟩
  declared h t k := by
    obtain ⟨value, hvalue, rfl⟩ := Option.map_eq_some_iff.1 h
    exact accountsFor_default hvalue rfl
  parameter h t k := by
    obtain ⟨value, hvalue, rfl⟩ := Option.map_eq_some_iff.1 h
    exact accountsFor_default hvalue rfl
  function _ _ _ _ _ _ _ hv := nomatch hv

theorem Program.fills_accountsFor {p : Program} {stmt : Stmt} (hstmt : stmt ∈ p.simples) :
    stmt.Fills p.AccountsFor := by
  cases stmt with
  | define name written e span =>
    intro t t' ty folded hcoherent hholds hty hfold hdefine hlater v hv
    cases hv
    refine ⟨nofun, fun hknown => ?_⟩
    obtain hdefault | hcombines | ⟨_, _, read, rfl, hread, hunknown, hsame⟩ :=
      Expr.fold?_not_known hty hfold hknown
    · exact .inl hdefault
    · rw [← Check.fold?_ty hfold] at hty
      exact .inr (.operator hstmt (hlater.persists.type? hty)
        (hcombines.later hlater.persists hty))
    · -- what is read was stored before, and is accounted for
      have hlookup := Table.boundVariable?_eq_some.1 hread
      obtain ⟨i, scope, hscope, hmem⟩ := hcoherent.mem_of_lookup? hlookup
      obtain hdefault | hcomputed := (hholds i scope hscope _ hmem read rfl).2 hunknown
      · exact .inl (hsame ▸ hdefault)
      · have hstored : p.Computes t t.current (.mk name span folded.value folded.known true) :=
          .name hstmt hlookup hscope hmem hunknown hsame hcomputed
        exact .inr (hstored.later hlater.toGrows hlater.persists)
  | _ => trivial

/-- In the table of an accepted program every variable without an initializer stores the
default of its type. A variable whose value is not known stores that default as well, unless
what it stores comes, by way of names, from an operator with an operand that is not known. -/
theorem Program.filler_of_analyze {p : Program} {t : Table} (h : p.analyze = .ok t) :
    ∀ (k : Nat) (scope : Scope), t.scopes[k]? = some scope →
      ∀ v : Variable, .var v ∈ scope.symbols →
        (v.initialized = false → v.value.IsDefault) ∧
          (v.known = false → v.value.IsDefault ∨ p.Computes t k v) := by
  intro k scope hscope v hv
  exact holds_of_analyze p.filling_accountsFor (fun _ => fills_accountsFor) h k scope hscope _ hv
    v rfl

namespace Program

/-- A number read at run time, the number with five added to it, and a copy of that. -/
def readAhead (span : Span) : Program :=
  ⟨[.define "x" none (.call "getInt" [] span) span,
    .define "y" none (.binary (.ident "x" span) .add (.literal (.int 5) span) span) span,
    .define "z" none (.ident "y" span) span]⟩

/-- Five is stored for the copy, and has been computed from the number that is not known. -/
theorem filler_of_analyze_readAhead :
    ∃ t v k, (readAhead default).analyze = .ok t ∧ t.boundVariable? "z" = some v ∧
      v.known = false ∧ v.value = .int 5 ∧ (readAhead default).Computes t k v := by
  have hcopy : ((readAhead default).analyze.toOption.bind (·.boundVariable? "z")).map
      (fun v => (v.known, v.value)) = some (false, .int 5) := by
    decide +kernel
  obtain ⟨t, ht⟩ :=
    exists_analyze (by decide +kernel : (readAhead default).analyze.toBool = true)
  rw [ht] at hcopy
  obtain ⟨v, hv, heq⟩ := Option.map_eq_some_iff.1 hcopy
  obtain ⟨hknown, hvalue⟩ := Prod.mk.inj heq
  obtain ⟨k, scope, hscope, hmem⟩ :=
    (coherent_of_analyze ht).mem_of_lookup? (Table.boundVariable?_eq_some.1 hv)
  have hstored := (filler_of_analyze ht k scope hscope v hmem).2 hknown
  exact ⟨t, v, k, ht, hv, hknown, hvalue, hstored.resolve_left (hvalue ▸ by decide)⟩

/-- Five is stored for a variable whose value is not known, and is not the default. -/
theorem unknown_not_default :
    ((analyze ⟨[.define "x" none (.binary (.call "getInt" [] default) .add
        (.literal (.int 5) default) default) default]⟩).toOption.bind (·.boundVariable? "x")).map
          (fun v => (v.known, v.value)) = some (false, .int 5) ∧
      ¬(Value.int 5).IsDefault := by
  decide +kernel

end Program

end Slate
