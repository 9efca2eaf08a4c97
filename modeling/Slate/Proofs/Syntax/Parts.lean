-- SUMMARY: The parts of an expression in the order of their evaluation.
import Slate.Proofs.Syntax.Spans

/-!
# Parts of an expression

An expression is walked from left to right: the operands of an operator before the
operator, the arguments of a call before the call. The parts of an expression are all
the expressions that such a walk meets, in that order, the whole one last.
-/

namespace Slate

mutual

/-- The parts of an expression, in the order of evaluation. -/
def Expr.parts : Expr → List Expr
  | .literal value span => [.literal value span]
  | .ident name span => [.ident name span]
  | .binary left op right span => left.parts ++ right.parts ++ [.binary left op right span]
  | .unary op operand span => operand.parts ++ [.unary op operand span]
  | .call callee arguments span => argumentParts arguments ++ [.call callee arguments span]

/-- The parts of the arguments of a call. -/
def argumentParts : List Expr → List Expr
  | [] => []
  | e :: es => e.parts ++ argumentParts es

end

theorem Expr.self_mem_parts (e : Expr) : e ∈ e.parts := by
  cases e <;> simp [Expr.parts]

/-! ## What parts inherit -/

/-- What is said of an expression holds of its operands and arguments too. -/
structure Expr.Inherited (P : Expr → Prop) : Prop where
  left : ∀ {left op right span}, P (.binary left op right span) → P left
  right : ∀ {left op right span}, P (.binary left op right span) → P right
  operand : ∀ {op operand span}, P (.unary op operand span) → P operand
  argument : ∀ {callee arguments span}, P (.call callee arguments span) → ∀ e ∈ arguments, P e

namespace Expr.Inherited

variable {P : Expr → Prop}

mutual

theorem parts (hP : Expr.Inherited P) : (e : Expr) → P e → ∀ part ∈ e.parts, P part
  | .literal .., h | .ident .., h => by
    simpa only [Expr.parts, List.mem_singleton, forall_eq] using h
  | .binary left op right span, h => by
    simp only [Expr.parts, List.forall_mem_append, List.forall_mem_singleton]
    exact ⟨⟨hP.parts left (hP.left h), hP.parts right (hP.right h)⟩, h⟩
  | .unary op operand span, h => by
    simp only [Expr.parts, List.forall_mem_append, List.forall_mem_singleton]
    exact ⟨hP.parts operand (hP.operand h), h⟩
  | .call callee arguments span, h => by
    simp only [Expr.parts, List.forall_mem_append, List.forall_mem_singleton]
    exact ⟨hP.argumentParts arguments (hP.argument h), h⟩

theorem argumentParts (hP : Expr.Inherited P) : (es : List Expr) → (∀ e ∈ es, P e) →
    ∀ part ∈ Slate.argumentParts es, P part
  | [], _ => by simp [Slate.argumentParts]
  | e :: es, h => by
    rw [List.forall_mem_cons] at h
    simp only [Slate.argumentParts, List.forall_mem_append]
    exact ⟨hP.parts e h.1, hP.argumentParts es h.2⟩

end

end Expr.Inherited

/-! ## Spans of the parts -/

theorem mem_argumentSpans {span : Span} {e : Expr} : {es : List Expr} → e ∈ es →
    span ∈ e.spans → span ∈ argumentSpans es
  | e' :: es, he, hspan => by
    rw [argumentSpans, List.mem_append]
    rcases List.mem_cons.1 he with rfl | he
    · exact .inl hspan
    · exact .inr (mem_argumentSpans he hspan)

/-- A part of an expression has no spans but those of the expression. -/
theorem Expr.spans_of_mem_parts {P : Span → Prop} (e : Expr) (hP : ∀ span ∈ e.spans, P span) :
    ∀ part ∈ e.parts, ∀ span ∈ part.spans, P span := by
  have inherited : Expr.Inherited fun part => ∀ span ∈ part.spans, P span := {
    left := fun h span hspan => h span (by simp [Expr.spans, hspan])
    right := fun h span hspan => h span (by simp [Expr.spans, hspan])
    operand := fun h span hspan => h span (by simp [Expr.spans, hspan])
    argument := fun h e he span hspan =>
      h span (List.mem_cons_of_mem _ (mem_argumentSpans he hspan)) }
  exact inherited.parts e hP

end Slate
