-- SUMMARY: Only expressions that have a type and call nothing are ever known at compile time.
import Slate.Proofs.Folding.Evaluation
import Slate.Proofs.Syntax.Parts

/-!
# Types of known expressions

The folders take any expression, so nothing but their own cases keeps them from marking
an expression as known that has no type. None is: what is known to a folder has the type
of that folder, so it is known to no other one, and since each of its parts is worth
something there is no call among them.
-/

namespace Slate

/-- Whether the folder of a type marks an expression as known. -/
def Expr.knownAs (t : Table) (e : Expr) : Ty → Bool
  | .int => (e.foldInt t).known
  | .string => (e.foldString t).known
  | .bool => (e.foldBool t).known
  | .void => false

namespace Expr

variable {t : Table} {e : Expr}

/-- What is known to the folder of a type is worth a value of that type. -/
theorem eval?_of_knownAs {ty : Ty} (h : e.knownAs t ty = true) :
    ∃ v, e.eval? t.known? = some v ∧ v.ty = ty := by
  cases ty with
  | int =>
    obtain ⟨v, hv⟩ := Folded.known_iff.1 h
    exact ⟨.int v, (e.foldInt_eq_fixed v).1 hv, rfl⟩
  | string =>
    obtain ⟨v, hv⟩ := Folded.known_iff.1 h
    exact ⟨.string v, (e.foldString_eq_fixed v).1 hv, rfl⟩
  | bool =>
    obtain ⟨v, hv⟩ := Folded.known_iff.1 h
    exact ⟨.bool v, (e.foldBool_eq_fixed v).1 hv, rfl⟩
  | void => cases h

theorem type?_of_knownAs {ty : Ty} (h : e.knownAs t ty = true) : e.type? t = some ty := by
  obtain ⟨v, hv, rfl⟩ := eval?_of_knownAs h
  exact type?_of_eval? hv

/-- Both operands of an operator are evaluated, so every part of an expression that has a
value has one itself. -/
theorem eval?_of_mem_parts {names : String → Option Value} (e : Expr) {v : Value}
    (h : e.eval? names = some v) : ∀ part ∈ e.parts, ∃ w, part.eval? names = some w := by
  have inherited : Inherited fun part => ∃ w, part.eval? names = some w := {
    left := by
      rintro left op right span ⟨w, hw⟩
      obtain ⟨a, -, hleft, -⟩ := eval?_binary.1 hw
      exact ⟨a, hleft⟩
    right := by
      rintro left op right span ⟨w, hw⟩
      obtain ⟨-, b, -, hright, -⟩ := eval?_binary.1 hw
      exact ⟨b, hright⟩
    operand := by
      rintro op operand span ⟨w, hw⟩
      obtain ⟨a, hoperand, -⟩ := eval?_unary.1 hw
      exact ⟨a, hoperand⟩
    argument := by
      rintro callee arguments span ⟨w, hw⟩
      cases hw }
  exact inherited.parts e ⟨v, h⟩

/-- A part without a value keeps an expression from being known. -/
theorem knownAs_eq_false {part : Expr} (hpart : part ∈ e.parts)
    (hnone : part.eval? t.known? = none) (ty : Ty) : e.knownAs t ty = false := by
  rw [Bool.eq_false_iff]
  intro hknown
  obtain ⟨v, hv, -⟩ := eval?_of_knownAs hknown
  obtain ⟨w, hw⟩ := e.eval?_of_mem_parts hv part hpart
  cases hnone.symm.trans hw

end Expr

/-- Whatever the expression, checked or not: what a folder knows fits the type of that
folder, which is the type that the expression has. So no two folders know an expression,
and none does if a part of it has no type or calls a function. -/
theorem known_only_if_typed (t : Table) (e : Expr) :
    (∀ ty, e.knownAs t ty = true → e.fits t ty = true ∧ e.type? t = some ty) ∧
    (∀ a b, e.knownAs t a = true → e.knownAs t b = true → a = b) ∧
    (∀ part ∈ e.parts, part.type? t = none → ∀ ty, e.knownAs t ty = false) ∧
    (∀ callee arguments span, .call callee arguments span ∈ e.parts →
      ∀ ty, e.knownAs t ty = false) := by
  refine ⟨fun ty h => ?_, fun a b ha hb => ?_, fun part hpart htype => ?_, ?_⟩
  · have hvoid : ty ≠ .void := by
      rintro rfl
      cases h
    have htype := Expr.type?_of_knownAs h
    exact ⟨(Expr.fits_iff_type? t e ty).2 ⟨hvoid, htype⟩, htype⟩
  · exact Option.some.inj ((Expr.type?_of_knownAs ha).symm.trans (Expr.type?_of_knownAs hb))
  · refine Expr.knownAs_eq_false hpart ?_
    -- a value would give the part a type
    rw [Option.eq_none_iff_forall_ne_some]
    intro v hv
    cases htype.symm.trans (Expr.type?_of_eval? hv)
  · intro callee arguments span hcall
    exact Expr.knownAs_eq_false hcall rfl

/-- Two literals compared. -/
def literalsEqual (left right : Value) : Expr :=
  .binary (.literal left default) .equal (.literal right default) default

/-- A call behind a sign, which has a type. -/
def negatedCall : Expr := .unary .negate (.call "getInt" [] default) default

theorem known_only_if_typed_literals :
    (literalsEqual (.int 1) (.int 2)).knownAs .empty .bool = true ∧
      (literalsEqual (.int 1) (.int 2)).fits .empty .bool = true ∧
      (literalsEqual (.int 1) (.string "a")).type? .empty = none ∧
      (∀ ty, (literalsEqual (.int 1) (.string "a")).knownAs .empty ty = false) ∧
      negatedCall.type? .empty = some .int ∧ ∀ ty, negatedCall.knownAs .empty ty = false := by
  have hknown : (literalsEqual (.int 1) (.int 2)).knownAs .empty .bool = true := by decide
  have hnone : (literalsEqual (.int 1) (.string "a")).type? .empty = none := by decide
  have hcall : .call "getInt" [] default ∈ negatedCall.parts := List.mem_cons_self
  exact ⟨hknown, ((known_only_if_typed _ _).1 _ hknown).1, hnone,
    (known_only_if_typed _ _).2.2.1 _ (Expr.self_mem_parts _) hnone, by decide +kernel,
    (known_only_if_typed _ _).2.2.2 _ _ _ hcall⟩

end Slate
