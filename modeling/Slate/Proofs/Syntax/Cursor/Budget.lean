-- SUMMARY: More budget changes nothing for a cursor that does not spend what it has.
import Slate.Proofs.Syntax.Cursor.Expression

/-!
# The budget of a cursor

A budget is no part of what is read. Given more of it, a cursor does what it did before, be it
that it yields something, that it stops at a fault, or that it springs a trap; only a run that had
spent its budget can go on. All readers with a budget are one family here, so that one induction
on the budget is enough for them all.
-/

namespace Slate

open Slate.Parser (Reader precedence)

namespace Cursor

variable {α β : Type} {m m' n n' : CursorM α} {k k' : α → CursorM β} {budget budget' : Nat}

/-- The second program does what the first one does, unless that one spends its budget. -/
def Refines (m m' : CursorM α) : Prop :=
  ∀ c, (∃ c₁, m c = .error (.failure .exhausted) c₁) ∨ m' c = m c

namespace Refines

theorem refl (m : CursorM α) : Refines m m := fun _ => .inr rfl

theorem exhausted (m' : CursorM α) : Refines (throw (.failure .exhausted)) m' :=
  fun c => .inl ⟨c, rfl⟩

theorem bind (h : Refines m m') (hk : ∀ a, Refines (k a) (k' a)) :
    Refines (m >>= k) (m' >>= k') := by
  intro c
  obtain ⟨c₁, hspent⟩ | heq := h c
  · exact .inl ⟨c₁, bind_of_error hspent⟩
  · cases hm : m c with
    | ok a c₁ =>
      rw [bind_of_ok hm, bind_of_ok (heq.trans hm)]
      exact hk a c₁
    | error stop c₁ => exact .inr (by rw [bind_of_error hm, bind_of_error (heq.trans hm)])

/-- What is done behind the same program. -/
theorem behind (m : CursorM α) (hk : ∀ a, Refines (k a) (k' a)) : Refines (m >>= k) (m >>= k') :=
  (refl m).bind hk

/-- What is done with the result is the same. -/
theorem andThen (h : Refines m m') (k : α → CursorM β) : Refines (m >>= k) (m' >>= k) :=
  h.bind fun a => refl (k a)

theorem ite {p : Prop} [Decidable p] (h : Refines m m') (hn : Refines n n') :
    Refines (if p then m else n) (if p then m' else n') := by
  split
  · exact h
  · exact hn

/-- A choice between two programs with one continuation. -/
theorem ite_bind {p : Prop} [Decidable p] (h : Refines m m') (hn : Refines n n')
    (hk : ∀ a, Refines (k a) (k' a)) :
    Refines (if p then m >>= k else n >>= k) (if p then m' >>= k' else n' >>= k') :=
  .ite (h.bind hk) (hn.bind hk)

theorem recovering {m m' : CursorM Stmt} (h : Refines m m') :
    Refines (recovering m) (recovering m') := by
  intro c
  unfold Cursor.recovering
  refine (h c).imp (fun ⟨c₁, hspent⟩ => ⟨c₁, by rw [hspent]⟩) fun heq => by rw [heq]

theorem nested (h : Refines m m') : Refines (nested m) (nested m') :=
  .behind _ fun _ => h.andThen _

end Refines

/-! ## Readers -/

section

variable (h : Refines (expression budget) (expression budget'))
include h

theorem refines_initializer : Refines (initializer budget) (initializer budget') :=
  .behind _ fun _ => h.andThen _

theorem refines_declaration : Refines (declaration budget) (declaration budget') :=
  .behind _ fun _ => .behind _ fun _ => .behind _ fun _ =>
    .ite (.behind _ fun _ => .behind _ fun _ => .ite (.refl _) ((refines_initializer h).andThen _))
      ((refines_initializer h).andThen _)

theorem refines_ret : Refines (ret budget) (ret budget') :=
  .behind _ fun _ => .behind _ fun _ => .ite (.refl _) ((h.andThen _).andThen _)

theorem refines_assignmentOrExpression :
    Refines (assignmentOrExpression budget) (assignmentOrExpression budget') :=
  .behind _ fun _ => .behind _ fun _ =>
    .ite (.behind _ fun _ => (refines_initializer h).andThen _) (h.andThen _)

end

/-- What is read with some budget is read with more of it. -/
theorem refines_scan (hle : budget ≤ budget') : ∀ {γ : Type} (r : Reader γ),
    Refines (scan r budget) (scan r budget') := by
  induction budget generalizing budget' with
  | zero =>
    have h : Refines (expression 0) (expression budget') := .exhausted _
    intro γ r
    cases r with
    | initializer => exact refines_initializer h
    | declaration => exact refines_declaration h
    | ret => exact refines_ret h
    | assignmentOrExpression => exact refines_assignmentOrExpression h
    | _ => exact .exhausted _
  | succ budget ih =>
    obtain ⟨budget', rfl⟩ : ∃ b, budget' = b + 1 := ⟨budget' - 1, by omega⟩
    have ih : ∀ {γ : Type} (r : Reader γ), Refines (scan r budget) (scan r budget') :=
      ih (Nat.le_of_succ_le_succ hle)
    have h : Refines (expression (budget + 1)) (expression (budget' + 1)) :=
      ih (.binary precedence List.suffix_rfl)
    intro γ r
    cases r with
    | expression => exact h
    | binary tables levels =>
      cases tables with
      | nil => exact ih .unary
      | cons table tighter =>
        exact (ih (.binary tighter (Parser.tighter_levels levels))).bind fun left =>
          ih (.operators table tighter left levels)
    | operators table tighter left levels =>
      refine .behind _ fun found => ?_
      cases found with
      | some op =>
        exact (ih (.binary tighter (Parser.tighter_levels levels))).bind fun right =>
          ih (.operators table tighter (left.join op right) levels)
      | none => exact .refl _
    | unary =>
      refine .behind _ fun _ => .behind _ fun _ => .ite (.refl _) (.behind _ fun found => ?_)
      cases found with
      | some op => exact .behind _ fun _ => (ih .unary).andThen _
      | none => exact ih .primary
    | primary =>
      refine .behind _ fun token => ?_
      dsimp only
      split
      · exact .refl _
      · exact .refl _
      · exact .refl _
      · exact .refl _
      · exact .behind _ fun r => .behind _ fun _ => .ite (ih (.call r.1 r.2)) (.refl _)
      · exact .behind _ fun _ => (ih .expression).andThen _
      · exact .refl _
    | call callee start =>
      exact .behind _ fun _ => .behind _ fun _ => .ite (.refl _) ((ih .arguments).andThen _)
    | arguments =>
      exact (ih .expression).bind fun _ => .behind _ fun _ =>
        .ite ((ih .arguments).andThen _) (.refl _)
    | initializer => exact refines_initializer h
    | declaration => exact refines_declaration h
    | ret => exact refines_ret h
    | assignmentOrExpression => exact refines_assignmentOrExpression h
    | params =>
      exact .behind _ fun _ => .behind _ fun _ => .behind _ fun _ => .behind _ fun _ =>
        .ite ((ih .params).andThen _) (.refl _)
    | statement => exact (ih .strictStatement).recovering
    | strictStatement =>
      refine .behind _ fun token => ?_
      dsimp only
      split
      · exact ih .declaration
      · exact .refl _
      · exact .behind _ fun _ => .ite (.refl _) (ih .function)
      · exact ih .ifChain
      · exact .behind _ fun _ => (ih .guarded).andThen _
      · exact (ih .block).andThen _
      · exact ih .ret
      · exact .refl _
      · exact .refl _
      · exact ih .assignmentOrExpression
    | function =>
      exact .behind _ fun _ => .behind _ fun _ => .behind _ fun _ => .behind _ fun _ =>
        .ite_bind (.refl _) (ih .params) fun _ => .behind _ fun _ => .behind _ fun _ =>
          .ite_bind (.refl _) (.refl _) fun _ => (ih .block).andThen _
    | ifChain =>
      exact .behind _ fun _ => (ih .guarded).bind fun _ => (ih .elseBranches).andThen _
    | elseBranches =>
      exact .behind _ fun _ => .ite (.behind _ fun _ => .ite
        (.behind _ fun _ => .behind _ fun _ => (ih .guarded).bind fun _ =>
          (ih .elseBranches).andThen _) ((ih .block).andThen _)) (.refl _)
    | guarded =>
      exact .behind _ fun _ => (ih .expression).bind fun _ => .behind _ fun _ =>
        (ih .block).andThen _
    | block => exact .behind _ fun _ => (ih .blockStatements).nested.andThen _
    | blockStatements =>
      exact .behind _ fun _ => .behind _ fun _ => .ite (.refl _) ((ih .statement).bind fun _ =>
        (ih .blockStatements).andThen _)
    | programStatements =>
      exact .behind _ fun _ => .ite (.refl _) ((ih .statement).bind fun _ =>
        (ih .programStatements).andThen _)

end Cursor

end Slate
