-- SUMMARY: An expression that the parser reads derives from the grammar, as the tree that the parser builds.
import Slate.Proofs.Syntax.Derivation
import Slate.Proofs.Syntax.Tokens

/-!
# Soundness of reading expressions

By induction on the budget, with one lemma for each function of the descent. A
reader promises, for what it yields, that the tokens it has passed over spell it
and that what it leaves is the end of the same stream.
-/

namespace Slate

namespace Parser

open Grammar

/-- What the program yields, read from these tokens, is in the relation with what
it leaves behind, and the rest of the state is as before. -/
def Sound {α : Type} (m : ParseM α) (ts : List Token) (last : Token)
    (R : α → List Token → Prop) : Prop :=
  ∀ ⦃depth a s'⦄, m ⟨ts, last, depth⟩ = .ok a s' →
    ∃ rest, s' = ⟨rest, last, depth⟩ ∧ R a rest ∧ Sane rest last

theorem Sound.throw {α : Type} {failure : Failure} {ts : List Token} {last : Token}
    {R : α → List Token → Prop} : Sound (throw failure) ts last R := nofun

variable {budget depth : Nat} {ts : List Token} {last : Token}

/-! ## One step of the descent -/

/-- The readers of expressions are sound with this budget. -/
structure SoundExpressions (budget : Nat) : Prop where
  expression : ∀ {ts last}, Sane ts last → Due ts last →
    Sound (expression budget) ts last (Expression ts)
  binary : ∀ {ts last} tables, Sane ts last → Due ts last →
    Sound (binary budget tables) ts last (Level tables ts)
  operators : ∀ {ts last} table tighter left, Sane ts last →
    Sound (operators budget table tighter left) ts last fun e rest =>
      ∃ more, Operands table tighter ts more rest ∧ e = joinAll left more
  unary : ∀ {ts last}, Sane ts last → Due ts last → Sound (unary budget) ts last (Unary ts)
  primary : ∀ {ts last}, Sane ts last → Due ts last → Sound (primary budget) ts last (Primary ts)
  call : ∀ {ts last} (name : Token), name.kind = .identifier → Sane ts last →
    Sound (call budget name.text name.span) ts last (Primary (name :: ts))
  arguments : ∀ {ts last}, Sane ts last → Due ts last →
    Sound (arguments budget) ts last (Arguments ts)

namespace SoundExpressions

theorem zero : SoundExpressions 0 where
  expression _ _ := .throw
  binary _ _ _ := .throw
  operators _ _ _ _ := .throw
  unary _ _ := .throw
  primary _ _ := .throw
  call _ _ _ := .throw
  arguments _ _ := .throw

variable (ih : SoundExpressions budget)
include ih

theorem expression_succ (hs : Sane ts last) (hd : Due ts last) :
    Sound (Parser.expression (budget + 1)) ts last (Expression ts) := by
  intro depth e s' h
  rw [Parser.expression] at h
  exact ih.binary precedence hs hd h

theorem binary_succ (tables : List Operators) (hs : Sane ts last) (hd : Due ts last) :
    Sound (Parser.binary (budget + 1) tables) ts last (Level tables ts) := by
  intro depth e s' h
  cases tables with
  | nil =>
    rw [Parser.binary] at h
    obtain ⟨rest, rfl, he, hrest⟩ := ih.unary hs hd h
    exact ⟨rest, rfl, .unary he, hrest⟩
  | cons table tighter =>
    rw [Parser.binary, bind_ok] at h
    obtain ⟨left, s₁, h₁, h₂⟩ := h
    obtain ⟨mid, rfl, hleft, hmid⟩ := ih.binary tighter hs hd h₁
    obtain ⟨rest, rfl, ⟨more, hmore, rfl⟩, hrest⟩ := ih.operators table tighter left hmid h₂
    exact ⟨rest, rfl, .joined hleft hmore, hrest⟩

theorem operators_succ (table : Operators) (tighter : List Operators) (left : Expr)
    (hs : Sane ts last) :
    Sound (Parser.operators (budget + 1) table tighter left) ts last fun e rest =>
      ∃ more, Operands table tighter ts more rest ∧ e = joinAll left more := by
  intro depth e s' h
  rw [Parser.operators, bind_ok] at h
  obtain ⟨next, s₁, h₁, h₂⟩ := h
  cases next with
  | none =>
    obtain ⟨-, rfl⟩ := acceptOperator?_none.1 h₁
    obtain ⟨rfl, rfl⟩ := pure_ok.1 h₂
    exact ⟨ts, rfl, ⟨[], .none, rfl⟩, hs⟩
  | some next =>
    obtain ⟨op, span⟩ := next
    obtain ⟨operator, ts, mark, rfl, hk, hop, -, rfl⟩ := acceptOperator?_some h₁
    obtain ⟨right, s₂, h₃, h₄⟩ := bind_ok.1 h₂
    have hd : Due ts last := hs.due hk rfl
    obtain ⟨mid, rfl, hright, hmid⟩ := ih.binary tighter hs.tail hd h₃
    obtain ⟨rest, rfl, ⟨more, hmore, rfl⟩, hrest⟩ :=
      ih.operators table tighter (left.join op right) hmid h₄
    exact ⟨rest, rfl, ⟨(op, right) :: more, .more hk hop hright hmore, rfl⟩, hrest⟩

theorem unary_succ (hs : Sane ts last) (hd : Due ts last) :
    Sound (Parser.unary (budget + 1)) ts last (Unary ts) := by
  intro depth e s' h
  rw [Parser.unary, get_bind_ok] at h
  by_cases hneg : (State.sees ⟨ts, last, depth⟩ (.mark .minus) &&
      State.seesSecond ⟨ts, last, depth⟩ .integer) = true
  · rw [if_pos hneg] at h
    obtain ⟨hfirst, hsecond⟩ := Bool.and_eq_true_iff.1 hneg
    obtain ⟨minus, digits, rest, rfl, hdigits⟩ := seesSecond_iff.1 hsecond
    have hminus := sees_cons.1 hfirst
    obtain ⟨_, s₁, ⟨⟩, h₂⟩ := bind_ok.1 h
    obtain ⟨hne, hall⟩ := hs.tail.head.of_integer hdigits
    obtain ⟨n, hn, hbound, rfl, rfl⟩ := (integerLiteral_ok hne hall).1 h₂
    exact ⟨rest, rfl, .negative hminus hdigits hn hbound, hs.tail.tail⟩
  · rw [if_neg hneg, bind_ok] at h
    obtain ⟨next, s₁, h₁, h₂⟩ := h
    cases next with
    | none =>
      obtain ⟨-, rfl⟩ := acceptOperator?_none.1 h₁
      obtain ⟨rest, rfl, he, hrest⟩ := ih.primary hs hd h₂
      exact ⟨rest, rfl, .primary he, hrest⟩
    | some next =>
      obtain ⟨op, span⟩ := next
      obtain ⟨operator, ts, mark, rfl, hk, hop, rfl, rfl⟩ := acceptOperator?_some h₁
      obtain ⟨operand, s₂, h₃, h₄⟩ := bind_ok.1 h₂
      obtain ⟨rest, rfl, hoperand, hrest⟩ :=
        ih.unary hs.tail (hs.due hk rfl) h₃
      obtain ⟨rfl, rfl⟩ := pure_ok.1 h₄
      refine ⟨rest, rfl, ?_, hrest⟩
      simp only [unaryOperators, List.mem_cons, Prod.mk.injEq, List.not_mem_nil, or_false] at hop
      obtain ⟨rfl, rfl⟩ | ⟨rfl, rfl⟩ := hop
      · -- a minus before an integer was taken for its sign above
        refine .negate hk ?_ hoperand
        rintro digits more rfl hdigits
        exact hneg (Bool.and_eq_true_iff.2
          ⟨sees_cons.2 hk, seesSecond_iff.2 ⟨_, _, _, rfl, hdigits⟩⟩)
      · exact .not hk hoperand

/-- Past the end only a parenthesis could open an operand, and what is in it would
have to stand past the end as well. -/
theorem not_primary_nil {e : Expr} {s' : State} (hd : Due [] last) :
    ¬ Parser.primary (budget + 1) ⟨[], last, depth⟩ = .ok e s' := by
  intro h
  have hlast := hd rfl
  rw [Parser.primary, get_bind_ok] at h
  simp only [State.view, List.headD_nil] at h
  cases hk : last.kind with
  | integer | string | typeName _ => simp [hk, isSelfContained] at hlast
  | identifier =>
    rw [hk] at h
    obtain ⟨_, _, h₁, -⟩ := bind_ok.1 h
    obtain ⟨_, _, ⟨⟩, -⟩ := expectIdentifier_ok.1 h₁
  | keyword k =>
    cases k with
    | trueKw | falseKw => simp [hk, isSelfContained] at hlast
    | _ => rw [hk] at h; exact not_unexpected_ok h
  | mark m =>
    cases m with
    | leftParen =>
      rw [hk] at h
      obtain ⟨_, s₁, ⟨⟩, h₂⟩ := bind_ok.1 h
      obtain ⟨_, _, h₃, -⟩ := bind_ok.1 h₂
      obtain ⟨_, -, he, -⟩ := ih.expression Sane.nil hd h₃
      exact he.opens.ne_nil rfl
    | _ => rw [hk] at h; exact not_unexpected_ok h

theorem primary_succ (hs : Sane ts last) (hd : Due ts last) :
    Sound (Parser.primary (budget + 1)) ts last (Primary ts) := by
  intro depth e s' h
  cases ts with
  | nil => exact absurd h (ih.not_primary_nil hd)
  | cons t ts =>
    rw [Parser.primary, get_bind_ok] at h
    simp only [State.view, List.headD_cons] at h
    cases hk : t.kind with
    | integer =>
      rw [hk] at h
      obtain ⟨hne, hall⟩ := hs.head.of_integer hk
      obtain ⟨n, hn, hbound, rfl, rfl⟩ := (integerLiteral_ok hne hall).1 h
      rw [Span.merge_self]
      exact ⟨ts, rfl, .integer hk hn hbound, hs.tail⟩
    | string =>
      rw [hk] at h
      obtain ⟨value, hv, rfl, rfl⟩ := (stringLiteral_ok (hs.head.of_string hk)).1 h
      exact ⟨ts, rfl, .string hk hv, hs.tail⟩
    | identifier =>
      rw [hk] at h
      obtain ⟨_, s₁, h₁, h₂⟩ := bind_ok.1 h
      obtain ⟨_, _, ⟨⟩, -, rfl, rfl⟩ := expectIdentifier_ok.1 h₁
      simp only [get_bind_ok] at h₂
      split at h₂
      · exact ih.call t hk hs.tail h₂
      · obtain ⟨rfl, rfl⟩ := pure_ok.1 h₂
        exact ⟨ts, rfl, .ident hk, hs.tail⟩
    | keyword k =>
      cases k with
      | trueKw => rw [hk] at h; cases h; exact ⟨ts, rfl, .true hk, hs.tail⟩
      | falseKw => rw [hk] at h; cases h; exact ⟨ts, rfl, .false hk, hs.tail⟩
      | _ => rw [hk] at h; exact absurd h not_unexpected_ok
    | mark m =>
      cases m with
      | leftParen =>
        rw [hk] at h
        obtain ⟨_, s₁, ⟨⟩, h₂⟩ := bind_ok.1 h
        obtain ⟨inner, s₂, h₃, h₄⟩ := bind_ok.1 h₂
        obtain ⟨mid, rfl, hinner, hmid⟩ :=
          ih.expression hs.tail (hs.due hk rfl) h₃
        obtain ⟨span, s₃, h₅, h₆⟩ := bind_ok.1 h₄
        obtain ⟨right, rest, rfl, hright, -, rfl⟩ := expect_ok.1 h₅
        obtain ⟨rfl, rfl⟩ := pure_ok.1 h₆
        exact ⟨rest, rfl, .parens hk hinner hright, hmid.tail⟩
      | _ => rw [hk] at h; exact absurd h not_unexpected_ok
    | typeName ty => rw [hk] at h; exact absurd h not_unexpected_ok

theorem call_succ (name : Token) (hname : name.kind = .identifier) (hs : Sane ts last) :
    Sound (Parser.call (budget + 1) name.text name.span) ts last (Primary (name :: ts)) := by
  intro depth e s' h
  rw [Parser.call, bind_ok] at h
  obtain ⟨_, s₁, h₁, h⟩ := h
  obtain ⟨left, ts, rfl, hleft, -, rfl⟩ := expect_ok.1 h₁
  rw [get_bind_ok, ite_bind_ok] at h
  obtain ⟨list, s₂, h₂, h⟩ := h
  obtain ⟨stop, s₃, h₃, h⟩ := bind_ok.1 h
  obtain ⟨rfl, rfl⟩ := pure_ok.1 h
  split at h₂
  · obtain ⟨rfl, rfl⟩ := pure_ok.1 h₂
    obtain ⟨right, rest, rfl, hright, rfl, rfl⟩ := expect_ok.1 h₃
    exact ⟨rest, rfl, .call hname hleft hright, hs.tail.tail⟩
  · obtain ⟨mid, rfl, hlist, hmid⟩ :=
      ih.arguments hs.tail (hs.due hleft rfl) h₂
    obtain ⟨right, rest, rfl, hright, rfl, rfl⟩ := expect_ok.1 h₃
    exact ⟨rest, rfl, .callWith hname hleft hlist hright, hmid.tail⟩

theorem arguments_succ (hs : Sane ts last) (hd : Due ts last) :
    Sound (Parser.arguments (budget + 1)) ts last (Arguments ts) := by
  intro depth list s' h
  rw [Parser.arguments, bind_ok] at h
  obtain ⟨first, s₁, h₁, h⟩ := h
  obtain ⟨mid, rfl, hfirst, hmid⟩ := ih.expression hs hd h₁
  obtain ⟨comma, s₂, h₂, h⟩ := bind_ok.1 h
  obtain ⟨comma, mid, rfl, hcomma, rfl, rfl⟩ | ⟨-, rfl, rfl⟩ := accept?_ok.1 h₂
  · obtain ⟨more, s₃, h₃, h₄⟩ := bind_ok.1 h
    obtain ⟨rest, rfl, hmore, hrest⟩ :=
      ih.arguments hmid.tail (hmid.due hcomma rfl) h₃
    obtain ⟨rfl, rfl⟩ := pure_ok.1 h₄
    exact ⟨rest, rfl, .more hfirst hcomma hmore, hrest⟩
  · obtain ⟨rfl, rfl⟩ := pure_ok.1 h
    exact ⟨mid, rfl, .last hfirst, hmid⟩

theorem succ : SoundExpressions (budget + 1) where
  expression := ih.expression_succ
  binary := ih.binary_succ
  operators := ih.operators_succ
  unary := ih.unary_succ
  primary := ih.primary_succ
  call := ih.call_succ
  arguments := ih.arguments_succ

end SoundExpressions

/-! ## The whole descent -/

theorem soundExpressions (budget : Nat) : SoundExpressions budget := by
  induction budget with
  | zero => exact .zero
  | succ budget ih => exact ih.succ

end Parser

end Slate
