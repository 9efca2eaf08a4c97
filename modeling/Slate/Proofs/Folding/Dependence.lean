-- SUMMARY: What an expression means depends only on what its leaves mean, and on what its names stand for.
import Slate.Folding
import Slate.Proofs.Syntax.Names
import Slate.Returns
import Slate.Typing.Resolution

/-!
# Dependence on leaves and names

Typing, resolution and folding build the meaning of an expression from the meanings of its
operands. So two expressions, each read with a table of its own, are interchangeable if
they have the same shape and their leaves are. In particular an expression is
interchangeable with itself under two tables that agree on its names, whatever else these
hold.
-/

namespace Slate

/-! ## Interchangeable expressions -/

/-- Nothing that is asked of an expression tells `e`, read with `t`, from `e'`, read with
`t'`. -/
structure Expr.Interchangeable (t t' : Table) (e e' : Expr) : Prop where
  span : e'.span = e.span
  fits : ∀ ty, e'.fits t' ty = e.fits t ty
  type? : e'.type? t' = e.type? t
  resolve : e'.resolve t' = e.resolve t
  foldInt : e'.foldInt t' = e.foldInt t
  foldString : e'.foldString t' = e.foldString t
  foldBool : e'.foldBool t' = e.foldBool t

/-- The same for the arguments of a call. -/
structure ArgumentsInterchangeable (t t' : Table) (es es' : List Expr) : Prop where
  length : es'.length = es.length
  fit : ∀ types, argumentsFit t' types es' = argumentsFit t types es
  resolveAll : resolveAll t' es' = resolveAll t es
  resolveArguments : ∀ callee position types,
    t'.resolveArguments callee position types es' = t.resolveArguments callee position types es

section Interchangeable

variable {t t' : Table} {name callee : String} {span : Span}

theorem ArgumentsInterchangeable.nil : ArgumentsInterchangeable t t' [] [] where
  length := rfl
  fit types := by cases types <;> rfl
  resolveAll := rfl
  resolveArguments callee position types := by cases types <;> rfl

theorem ArgumentsInterchangeable.cons {e e' : Expr} {es es' : List Expr}
    (he : e.Interchangeable t t' e') (hes : ArgumentsInterchangeable t t' es es') :
    ArgumentsInterchangeable t t' (e :: es) (e' :: es') where
  length := by simp only [List.length_cons, hes.length]
  fit types := by cases types <;> simp only [argumentsFit, he.fits, hes.fit]
  resolveAll := by simp only [Slate.resolveAll, he.resolve, hes.resolveAll]
  resolveArguments callee position types := by
    cases types <;>
      simp only [Table.resolveArguments, he.fits, he.type?, he.span, hes.resolveArguments]

namespace Expr.Interchangeable

theorem literal {value : Value} :
    (Expr.literal value span).Interchangeable t t' (.literal value span) where
  span := rfl
  fits _ := by simp only [Expr.fits]
  type? := by simp only [Expr.type?]
  resolve := by simp only [Expr.resolve]
  foldInt := by cases value <;> simp only [Expr.foldInt]
  foldString := by cases value <;> simp only [Expr.foldString]
  foldBool := by cases value <;> simp only [Expr.foldBool]

theorem ident (hname : t'.lookup? name = t.lookup? name) :
    (Expr.ident name span).Interchangeable t t' (.ident name span) where
  span := rfl
  fits _ := by simp only [Expr.fits, Table.boundVariable?, hname]
  type? := by simp only [Expr.type?, Table.boundVariable?, hname]
  resolve := by simp only [Expr.resolve, hname]
  foldInt := by simp only [Expr.foldInt, Table.boundVariable?, hname]
  foldString := by simp only [Expr.foldString, Table.boundVariable?, hname]
  foldBool := by simp only [Expr.foldBool, Table.boundVariable?, hname]

variable {left left' right right' operand operand' : Expr}

theorem binary (hleft : left.Interchangeable t t' left')
    (hright : right.Interchangeable t t' right') (op : BinaryOp) :
    (Expr.binary left op right span).Interchangeable t t' (.binary left' op right' span) where
  span := rfl
  fits ty := by cases ty <;> simp only [Expr.fits, hleft.fits, hright.fits]
  type? := by simp only [Expr.type?, hleft.type?, hright.type?]
  resolve := by simp only [Expr.resolve, hleft.resolve, hright.resolve]
  foldInt := by simp only [Expr.foldInt, hleft.foldInt, hright.foldInt]
  foldString := by
    cases op <;> simp only [Expr.foldString, hleft.foldString, hright.foldString]
  foldBool := by
    -- an equality looks at the type of its left operand and may use any of the evaluators
    simp only [Expr.foldBool, hleft.type?, hleft.foldInt, hright.foldInt, hleft.foldString,
      hright.foldString, hleft.foldBool, hright.foldBool]

theorem unary (hoperand : operand.Interchangeable t t' operand') (op : UnaryOp) :
    (Expr.unary op operand span).Interchangeable t t' (.unary op operand' span) where
  span := rfl
  fits ty := by cases ty <;> cases op <;> simp only [Expr.fits, hoperand.fits]
  type? := by simp only [Expr.type?, hoperand.type?]
  resolve := by simp only [Expr.resolve, hoperand.resolve]
  foldInt := by cases op <;> simp only [Expr.foldInt, hoperand.foldInt]
  foldString := by simp only [Expr.foldString]
  foldBool := by cases op <;> simp only [Expr.foldBool, hoperand.foldBool]

theorem call {arguments arguments' : List Expr}
    (harguments : ArgumentsInterchangeable t t' arguments arguments')
    (hcallee : t'.lookup? callee = t.lookup? callee) :
    (Expr.call callee arguments span).Interchangeable t t' (.call callee arguments' span) where
  span := rfl
  fits ty := by simp only [Expr.fits, Table.signature?, hcallee, harguments.fit]
  type? := by
    simp only [Expr.type?, Table.callType?, Table.signature?, hcallee, harguments.fit]
  resolve := by
    simp only [Expr.resolve, Table.resolveCall, Table.signature?, hcallee,
      harguments.resolveAll, harguments.length, harguments.resolveArguments]
  foldInt := by simp only [Expr.foldInt]
  foldString := by simp only [Expr.foldString]
  foldBool := by simp only [Expr.foldBool]

theorem fold? {e e' : Expr} (h : e.Interchangeable t t' e') (ty : Ty) :
    e'.fold? t' ty = e.fold? t ty := by
  cases ty <;> simp only [Expr.fold?, h.foldInt, h.foldString, h.foldBool]

end Expr.Interchangeable

end Interchangeable

/-! ## Tables that agree -/

/-- The names in `N` stand for the same in both tables. -/
def Table.Agree (N : String → Prop) (t t' : Table) : Prop :=
  ∀ ⦃name⦄, N name → t'.lookup? name = t.lookup? name

variable {N : String → Prop} {t t' : Table}

mutual

/-- An expression means the same under tables that agree on its names. -/
theorem Expr.interchangeable_of_agree (agree : t.Agree N t') :
    (e : Expr) → (∀ name ∈ e.names, N name) → e.Interchangeable t t' e
  | .literal .., _ => .literal
  | .ident .., hN => .ident (agree (hN _ List.mem_cons_self))
  | .binary left op right _, hN => by
    rw [Expr.names, List.forall_mem_append] at hN
    exact .binary (left.interchangeable_of_agree agree hN.1)
      (right.interchangeable_of_agree agree hN.2) op
  | .unary op operand _, hN => .unary (operand.interchangeable_of_agree agree hN) op
  | .call callee arguments _, hN => by
    rw [Expr.names, List.forall_mem_cons] at hN
    exact .call (argumentsInterchangeable_of_agree agree arguments hN.2) (agree hN.1)

theorem argumentsInterchangeable_of_agree (agree : t.Agree N t') :
    (es : List Expr) → (∀ name ∈ argumentNames es, N name) →
      ArgumentsInterchangeable t t' es es
  | [], _ => .nil
  | e :: es, hN => by
    rw [argumentNames, List.forall_mem_append] at hN
    exact .cons (e.interchangeable_of_agree agree hN.1)
      (argumentsInterchangeable_of_agree agree es hN.2)

end

theorem Returns.inspect_eq (agree : t.Agree N t') (r : Returns) (value : Option Expr) (span : Span)
    (hN : ∀ e, value = some e → ∀ name ∈ e.names, N name) :
    r.inspect t' value span = r.inspect t value span := by
  cases value with
  | none => rfl
  | some e =>
    have he := e.interchangeable_of_agree agree (hN e rfl)
    have hagrees :
        Returns.agrees t' r.declared (some e) = Returns.agrees t r.declared (some e) := by
      simp only [Returns.agrees, he.fits]
    have hcarried : Returns.carried t' (some e) = Returns.carried t (some e) := he.type?
    simp only [Returns.inspect, hagrees, hcarried]

end Slate
