-- SUMMARY: A variable of known value can be replaced by the literal of that value, wherever it is read.
import Slate.Proofs.Folding.Dependence
import Slate.Proofs.Scope.Coherent

/-!
# Inlining of known variables

`Expr.Inlines` puts the literal of a value at any of the places where an expression reads
a name. The names of callees are not read and stay. If the name stands for a variable of
that known value, the expression before and the one after are interchangeable: neither
their types, nor their values, nor what resolution says about them tells them apart.
-/

namespace Slate

mutual

/-- `e.Inlines name value e'`: some reads of `name` in `e` are literals of `value` in `e'`,
over the same source text. -/
inductive Expr.Inlines (name : String) (value : Value) : Expr → Expr → Prop where
  | read {span : Span} : Expr.Inlines name value (.ident name span) (.literal value span)
  | ident {other : String} {span : Span} :
      Expr.Inlines name value (.ident other span) (.ident other span)
  | literal {other : Value} {span : Span} :
      Expr.Inlines name value (.literal other span) (.literal other span)
  | binary {left left' right right' : Expr} {op : BinaryOp} {span : Span} :
      left.Inlines name value left' → right.Inlines name value right' →
      Expr.Inlines name value (.binary left op right span) (.binary left' op right' span)
  | unary {operand operand' : Expr} {op : UnaryOp} {span : Span} :
      operand.Inlines name value operand' →
      Expr.Inlines name value (.unary op operand span) (.unary op operand' span)
  | call {callee : String} {arguments arguments' : List Expr} {span : Span} :
      InlinesAll name value arguments arguments' →
      Expr.Inlines name value (.call callee arguments span) (.call callee arguments' span)

/-- The same for the arguments of a call, one by one. -/
inductive InlinesAll (name : String) (value : Value) : List Expr → List Expr → Prop where
  | nil : InlinesAll name value [] []
  | cons {e e' : Expr} {es es' : List Expr} :
      e.Inlines name value e' → InlinesAll name value es es' →
      InlinesAll name value (e :: es) (e' :: es')

end

section Known

variable {t : Table} {name : String} {v : Variable}

/-- A name of a variable of known value reads as the literal of that value. -/
theorem Expr.interchangeable_read (hname : t.lookup? name = some (.var v)) (hknown : v.known = true)
    (span : Span) :
    (Expr.ident name span).Interchangeable t t (.literal v.value span) := by
  have hbound : t.boundVariable? name = some v := by simp only [Table.boundVariable?, hname]
  obtain ⟨name', span', value, known, initialized⟩ := v
  cases hknown
  exact {
    span := rfl
    fits := fun ty => by simp only [Expr.fits, hbound]
    type? := by simp only [Expr.type?, hbound, Option.map_some]
    resolve := by simp only [Expr.resolve, hname]
    foldInt := by cases value <;> simp only [Expr.foldInt, hbound, Folded.fixed]
    foldString := by cases value <;> simp only [Expr.foldString, hbound, Folded.fixed]
    foldBool := by cases value <;> simp only [Expr.foldBool, hbound, Folded.fixed] }

mutual

theorem Expr.Inlines.interchangeable (hname : t.lookup? name = some (.var v))
    (hknown : v.known = true) {e e' : Expr} : e.Inlines name v.value e' →
    e.Interchangeable t t e'
  | .read => Expr.interchangeable_read hname hknown _
  | .ident => .ident rfl
  | .literal => .literal
  | .binary hleft hright =>
    .binary (hleft.interchangeable hname hknown) (hright.interchangeable hname hknown) _
  | .unary hoperand => .unary (hoperand.interchangeable hname hknown) _
  | .call harguments => .call (harguments.interchangeable hname hknown) rfl

theorem InlinesAll.interchangeable (hname : t.lookup? name = some (.var v))
    (hknown : v.known = true) {es es' : List Expr} : InlinesAll name v.value es es' →
    ArgumentsInterchangeable t t es es'
  | .nil => .nil
  | .cons he hes => .cons (he.interchangeable hname hknown) (hes.interchangeable hname hknown)

end

end Known

/-- Reads of a variable of known value and literals of that value are interchangeable, in
every expression, fitting or not: types, checks, folded values and what resolution reports
stay the same. -/
theorem known_variable_as_literal {t : Table} {name : String} {v : Variable} {e e' : Expr}
    (hname : t.lookup? name = some (.var v)) (hknown : v.known = true)
    (h : e.Inlines name v.value e') :
    e'.type? t = e.type? t ∧ (∀ ty, e'.fits t ty = e.fits t ty) ∧
      e'.foldInt t = e.foldInt t ∧ e'.foldString t = e.foldString t ∧
      e'.foldBool t = e.foldBool t ∧ e'.resolve t = e.resolve t := by
  have same := h.interchangeable hname hknown
  exact ⟨same.type?, same.fits, same.foldInt, same.foldString, same.foldBool, same.resolve⟩

/-- A table of one variable, whose value is known. -/
def Table.ofKnown (name : String) (value : Value) : Table :=
  { Table.empty with
    scopes := [(Scope.empty 0 none none).push (.initialized name default value true)] }

/-- `stringLength(x) + x`, where the argument is the expression given. -/
def lengthPlus (argument : Expr) : Expr :=
  .binary (.call "stringLength" [argument] default) .add (.ident "x" default) default

/-- A number is no argument of `stringLength`, be it read or written out; only one of the two
reads is replaced. -/
theorem known_variable_as_literal_refused :
    let t := Table.ofKnown "x" (.int 4)
    let read := lengthPlus (.ident "x" default)
    let written := lengthPlus (.literal (.int 4) default)
    (∃ v, t.lookup? "x" = some (.var v) ∧ v.known = true ∧ read.Inlines "x" v.value written) ∧
      written.resolve t = read.resolve t ∧
      written.resolve t =
        .error (.spanned (.wrongArgument 1 "stringLength" .string (some .int)) default) := by
  intro t read written
  have hname : t.lookup? "x" = some (.initialized "x" default (.int 4) true) := by
    rw [Table.lookup?_eq, Table.visible, Table.enclosing_root rfl rfl]
    rfl
  have hinlines : read.Inlines "x" (.int 4) written :=
    .binary (.call (.cons .read .nil)) .ident
  obtain ⟨-, -, -, -, -, hresolve⟩ := known_variable_as_literal hname rfl hinlines
  exact ⟨⟨_, hname, rfl, hinlines⟩, hresolve, rfl⟩

end Slate
