-- SUMMARY: Reading expressions goes the same way in a longer stream of tokens, and with a larger budget.
import Slate.Proofs.Syntax.Tokens

/-!
# Reading in a longer stream

A stream of tokens may go on behind its end. Until a reader has reached the old
end it cannot tell, so what it does in the short stream it also does in the long
one; a larger budget makes no difference either, unless the smaller one is spent.
`AgreesAt` states this for two runs side by side. A run that stops at the end of
the short stream says nothing about the long one, and nothing has to be shown of it.

The two streams meet at a `Seam`: behind a semicolon or a brace that closes a block,
or nowhere at all, if only the budgets differ.
-/

namespace Slate.Parser

open Grammar (NotNext)

variable {α β : Type} {more ts : List Token} {last t : Token} {s s₁ s₂ : State} {kind : Kind}

/-! ## Two streams -/

namespace State

/-- The first state is followed by the second one, some tokens later. -/
structure Reaches (s s₁ : State) : Prop where
  suffix : s₁.rest <:+ s.rest
  last : s₁.last = s.last

/-- The same place in the stream that goes on with `more`. -/
def extend (s : State) (more : List Token) (last : Token) : State :=
  ⟨s.rest ++ more, last, s.depth⟩

/-- From this place, `more` cannot be seen behind the end of the stream. -/
def Clear (more : List Token) (s : State) : Prop := s.rest ≠ [] ∨ more = []

theorem Reaches.refl (s : State) : s.Reaches s := ⟨List.suffix_rfl, rfl⟩

theorem Reaches.trans (h : s.Reaches s₁) (h₁ : s₁.Reaches s₂) : s.Reaches s₂ :=
  ⟨h₁.suffix.trans h.suffix, h₁.last.trans h.last⟩

theorem Reaches.clear (h : s.Reaches s₁) (hc : s₁.Clear more) : s.Clear more := by
  refine hc.imp_left fun hne hnil => hne ?_
  rw [← List.suffix_nil, ← hnil]
  exact h.suffix

theorem Reaches.length_le (h : s.Reaches s₁) : s₁.rest.length ≤ s.rest.length := h.suffix.length_le

theorem clear_of_length_lt (h : s₁.rest.length < s.rest.length) : s.Clear more := by
  refine .inl fun hnil => ?_
  rw [hnil] at h
  exact absurd h (Nat.not_lt_zero _)

end State

open State

/-- Where one stream ends and may be joined by `more`, so that `last` is the last
token of both: the token before the seam ends a statement. An `else` would go on
with the statement that a closing brace ends. -/
structure Seam (more : List Token) (last : Token) (s : State) : Prop where
  last : more = [] → s.last = last
  closed : more ≠ [] → ∀ t, s.rest.getLast? = some t →
    t.kind = .mark .semicolon ∨ t.kind = .mark .rightBrace ∧ NotNext (.keyword .elseKw) more

namespace Seam

/-- A stream goes on with nothing at its own end. -/
theorem self (s : State) : Seam [] s.last s := ⟨fun _ => rfl, fun h => absurd rfl h⟩

theorem reaches (h : Seam more last s) (hs : s.Reaches s₁) : Seam more last s₁ where
  last hnil := hs.last.trans (h.last hnil)
  closed hne t ht := by
    obtain ⟨before, hrest⟩ := hs.suffix
    refine h.closed hne t ?_
    rw [← hrest, List.getLast?_append, ht, Option.some_or]

/-- Without more tokens there is only one stream. -/
theorem extend_nil (h : Seam [] last s) : s.extend [] last = s := by
  obtain ⟨rest, last', depth⟩ := s
  obtain rfl : last' = last := h.last rfl
  rw [extend, List.append_nil]

/-- A token that ends no statement is not the last one before more tokens. -/
theorem second {depth : Nat} (h : Seam more last ⟨t :: ts, last', depth⟩)
    (hsemicolon : t.kind ≠ .mark .semicolon) (hbrace : t.kind ≠ .mark .rightBrace) :
    ts ≠ [] ∨ more = [] := by
  by_cases hmore : more = []
  · exact .inr hmore
  · refine .inl ?_
    rintro rfl
    obtain hk | ⟨hk, -⟩ := h.closed hmore t rfl
    · exact hsemicolon hk
    · exact hbrace hk

end Seam

/-! ## Looking ahead -/

section lookahead

variable (h : Seam more last s) (hc : s.Clear more)
include h hc

theorem view_extend : (s.extend more last).view = s.view := by
  obtain ⟨_ | ⟨t, ts⟩, last', depth⟩ := s
  · obtain rfl : more = [] := hc.resolve_left fun hne => hne rfl
    rw [h.extend_nil]
  · rfl

theorem atEnd_extend : (s.extend more last).atEnd = s.atEnd := by
  obtain ⟨_ | ⟨t, ts⟩, last', depth⟩ := s
  · obtain rfl : more = [] := hc.resolve_left fun hne => hne rfl
    rw [h.extend_nil]
  · rfl

theorem sees_extend : (s.extend more last).sees kind = s.sees kind := by
  obtain ⟨_ | ⟨t, ts⟩, last', depth⟩ := s
  · obtain rfl : more = [] := hc.resolve_left fun hne => hne rfl
    rw [h.extend_nil]
  · rfl

/-- Two tokens ahead can be seen if the first one does not end a statement. -/
theorem sees_and_seesSecond_extend {second : Kind} (hsemicolon : kind ≠ .mark .semicolon)
    (hbrace : kind ≠ .mark .rightBrace) :
    ((s.extend more last).sees kind && (s.extend more last).seesSecond second) =
      (s.sees kind && s.seesSecond second) := by
  rw [sees_extend h hc]
  cases hs : s.sees kind with
  | false => rfl
  | true =>
    obtain ⟨ts, last', depth⟩ := s
    obtain ⟨t, ts, rfl, rfl⟩ := sees_iff.1 hs
    obtain hne | rfl := h.second hsemicolon hbrace
    · obtain ⟨u, ts, rfl⟩ := List.exists_cons_of_ne_nil hne
      rfl
    · rw [h.extend_nil]

end lookahead

/-! ## Runs side by side -/

/-- What `m` does at this place, `m'` does where the stream goes on with `more`,
except if `m` reaches the end of its own stream or spends its budget. -/
def AgreesAt (more : List Token) (last : Token) (s : State) (m m' : ParseM α) : Prop :=
  wp m
    (fun a s₁ => s.Reaches s₁ ∧ s₁.depth = s.depth ∧
      (s₁.Clear more → m' (s.extend more last) = .ok a (s₁.extend more last)))
    (fun failure s₁ => s.Reaches s₁ ∧
      (failure ≠ .exhausted → s₁.Clear more →
        m' (s.extend more last) = .error failure (s₁.extend more last)))
    s

/-- The two programs do the same in the two streams. -/
def Agrees (more : List Token) (last : Token) (m m' : ParseM α) : Prop :=
  ∀ ⦃s⦄, Seam more last s → AgreesAt more last s m m'

variable {m m' m'' : ParseM α} {k k' : α → ParseM β} {f f' : State → ParseM α} {a : α}
  {failure : Failure}

namespace AgreesAt

theorem reaches (h : AgreesAt more last s m m') (hm : m s = .ok a s₁) : s.Reaches s₁ :=
  (wp_of_ok h hm).1

theorem depth_eq (h : AgreesAt more last s m m') (hm : m s = .ok a s₁) : s₁.depth = s.depth :=
  (wp_of_ok h hm).2.1

theorem ok (h : AgreesAt more last s m m') (hm : m s = .ok a s₁) (hc : s₁.Clear more) :
    m' (s.extend more last) = .ok a (s₁.extend more last) :=
  (wp_of_ok h hm).2.2 hc

theorem reaches_error (h : AgreesAt more last s m m') (hm : m s = .error failure s₁) :
    s.Reaches s₁ :=
  (wp_of_error h hm).1

theorem error (h : AgreesAt more last s m m') (hm : m s = .error failure s₁)
    (hf : failure ≠ .exhausted) (hc : s₁.Clear more) :
    m' (s.extend more last) = .error failure (s₁.extend more last) :=
  (wp_of_error h hm).2 hf hc

/-- Where the stream is the same, both programs have the same outcome, unless the first one
spends its budget. -/
theorem eq_of_completed (h : AgreesAt [] s.last s m m')
    (hm : ∀ s₁, m s ≠ .error .exhausted s₁) : m' s = m s := by
  have hself : Seam [] s.last s := .self s
  rw [← hself.extend_nil]
  cases hrun : m s with
  | ok a s₁ =>
    rw [h.ok hrun (.inr rfl), (hself.reaches (h.reaches hrun)).extend_nil, hself.extend_nil, hrun]
  | error failure s₁ =>
    have hf : failure ≠ .exhausted := by
      rintro rfl
      exact hm s₁ hrun
    rw [h.error hrun hf (.inr rfl), (hself.reaches (h.reaches_error hrun)).extend_nil,
      hself.extend_nil, hrun]

/-- At the end of the short stream the other program does not matter. -/
theorem of_not_clear (h : AgreesAt more last s m m') (hc : ¬ s.Clear more) :
    AgreesAt more last s m m'' :=
  wp_mono h (fun _ _ ⟨hr, hdepth, _⟩ => ⟨hr, hdepth, fun hc₁ => absurd (hr.clear hc₁) hc⟩)
    (fun _ _ ⟨hr, _⟩ => ⟨hr, fun _ hc₁ => absurd (hr.clear hc₁) hc⟩)

/-- Looking at the state is safe where the two states cannot be told apart. -/
theorem get_bind (hf : s.Clear more → f' (s.extend more last) = f' s)
    (h : AgreesAt more last s (f s) (f' s)) :
    AgreesAt more last s (get >>= f) (get >>= f') := by
  change AgreesAt more last s (f s) (fun s₁ => f' s₁ s₁)
  by_cases hc : s.Clear more
  · have heq : f' (s.extend more last) (s.extend more last) = f' s (s.extend more last) := by
      rw [hf hc]
    unfold AgreesAt at h ⊢
    simpa only [heq] using h
  · exact h.of_not_clear hc

theorem bind (hs : Seam more last s) (h : AgreesAt more last s m m')
    (hk : ∀ a, Agrees more last (k a) (k' a)) :
    AgreesAt more last s (m >>= k) (m' >>= k') := by
  unfold AgreesAt
  rw [wp_bind]
  refine wp_mono h ?_ ?_
  · rintro a s₁ ⟨hr, hdepth, hok⟩
    refine wp_mono (hk a (hs.reaches hr)) ?_ ?_
    · rintro b s₂ ⟨hr₁, hdepth₁, hok₁⟩
      refine ⟨hr.trans hr₁, hdepth₁.trans hdepth, fun hc => ?_⟩
      rw [bind_of_ok (hok (hr₁.clear hc)), hok₁ hc]
    · rintro failure s₂ ⟨hr₁, herror₁⟩
      refine ⟨hr.trans hr₁, fun hf hc => ?_⟩
      rw [bind_of_ok (hok (hr₁.clear hc)), herror₁ hf hc]
  · rintro failure s₁ ⟨hr, herror⟩
    exact ⟨hr, fun hf hc => bind_of_error (herror hf hc)⟩

end AgreesAt

namespace Agrees

theorem pure (a : α) : Agrees more last (pure a) (pure a) := fun s _ => ⟨.refl s, rfl, fun _ => rfl⟩

theorem exhausted : Agrees more last (throw .exhausted) m' :=
  fun s _ => ⟨.refl s, fun hf => absurd rfl hf⟩

theorem failAt (fault : Fault) (span : Span) :
    Agrees more last (failAt fault span : ParseM α) (Parser.failAt fault span) :=
  fun s _ => ⟨.refl s, fun _ _ => rfl⟩

theorem bind (h : Agrees more last m m') (hk : ∀ a, Agrees more last (k a) (k' a)) :
    Agrees more last (m >>= k) (m' >>= k') := fun _ hs => (h hs).bind hs hk

theorem map {g : α → β} (h : Agrees more last m m') :
    Agrees more last (g <$> m) (g <$> m') := h.bind fun a => pure (g a)

/-- A choice by the next token. -/
theorem ite_sees {n n' : ParseM α} (h : Agrees more last m m') (hn : Agrees more last n n') :
    Agrees more last (get >>= fun s => if s.sees kind = true then m else n)
      (get >>= fun s => if s.sees kind = true then m' else n') := by
  intro s hs
  refine .get_bind (fun hc => by simp only [sees_extend hs hc]) ?_
  split
  · exact h hs
  · exact hn hs

/-- A choice by the next token between two programs with one continuation. -/
theorem ite_sees_bind {n n' : ParseM α} (h : Agrees more last m m') (hn : Agrees more last n n')
    (hk : ∀ a, Agrees more last (k a) (k' a)) :
    Agrees more last (get >>= fun s => if s.sees kind = true then m >>= k else n >>= k)
      (get >>= fun s => if s.sees kind = true then m' >>= k' else n' >>= k') :=
  .ite_sees (h.bind hk) (hn.bind hk)

end Agrees

/-! ## Single tokens -/

theorem agrees_advance : Agrees more last advance advance := by
  rintro ⟨_ | ⟨t, ts⟩, last', depth⟩ hs
  · refine ⟨.refl _, rfl, fun hc => ?_⟩
    obtain rfl : more = [] := hc.resolve_left fun hne => hne rfl
    rfl
  · exact ⟨⟨List.suffix_cons t ts, rfl⟩, rfl, fun _ => rfl⟩

theorem agrees_unexpected (what : Expectation) :
    Agrees more last (unexpected what : ParseM α) (unexpected what) := by
  intro s hs
  refine .get_bind (fun hc => ?_) (Agrees.failAt _ _ hs)
  simp only [view_extend hs hc, atEnd_extend hs hc]

theorem agrees_accept? (kind : Kind) : Agrees more last (accept? kind) (accept? kind) := by
  intro s hs
  refine .get_bind (fun hc => by simp only [view_extend hs hc, sees_extend hs hc]) ?_
  split
  · exact agrees_advance.bind (fun _ => .pure _) hs
  · exact Agrees.pure none hs

theorem agrees_expect (kind : Kind) : Agrees more last (expect kind) (expect kind) := by
  refine .bind (agrees_accept? kind) fun accepted => ?_
  cases accepted with
  | some span => exact .pure span
  | none => exact agrees_unexpected (.kind kind)

theorem agrees_expectIdentifier : Agrees more last expectIdentifier expectIdentifier := by
  intro s hs
  refine .get_bind (fun hc => by simp only [view_extend hs hc, sees_extend hs hc]) ?_
  split
  · exact agrees_advance.bind (fun _ => .pure _) hs
  · exact agrees_unexpected .identifier hs

theorem agrees_expectType : Agrees more last expectType expectType := by
  intro s hs
  refine .get_bind (fun hc => by simp only [view_extend hs hc]) ?_
  split
  · next ty _ => exact agrees_advance.bind (fun _ => .pure ty) hs
  · exact agrees_unexpected .type hs

theorem agrees_acceptOperator? (table : List (Mark × α)) :
    Agrees more last (acceptOperator? table) (acceptOperator? table) := by
  induction table with
  | nil => exact .pure none
  | cons entry table ih =>
    refine .bind (agrees_accept? _) fun accepted => ?_
    cases accepted with
    | some span => exact .pure _
    | none => exact ih

theorem agrees_integerLiteral (negative : Bool) (start : Span) :
    Agrees more last (integerLiteral negative start) (integerLiteral negative start) := by
  intro s hs
  refine .get_bind (fun hc => by simp only [view_extend hs hc]) ?_
  dsimp only
  split
  · exact agrees_advance.bind (fun _ => .pure _) hs
  · exact Agrees.failAt _ _ hs

theorem agrees_stringLiteral : Agrees more last stringLiteral stringLiteral := by
  intro s hs
  refine .get_bind (fun hc => by simp only [view_extend hs hc]) ?_
  dsimp only
  split
  · exact agrees_advance.bind (fun _ => .pure _) hs
  · exact Agrees.failAt _ _ hs

/-! ## One step of the descent -/

variable {budget budget' : Nat}

/-- A budget that is not smaller can be spent as well. -/
theorem exists_of_succ_le (h : budget + 1 ≤ budget') :
    ∃ left, budget' = left + 1 ∧ budget ≤ left := by
  cases budget' with
  | zero => exact absurd h (Nat.not_succ_le_zero budget)
  | succ left => exact ⟨left, rfl, Nat.le_of_succ_le_succ h⟩

/-- The readers of expressions do the same in the two streams, with the smaller
budget in the short one. -/
structure ExpressionsAgree (more : List Token) (last : Token) (budget budget' : Nat) : Prop where
  expression : Agrees more last (expression budget) (expression budget')
  binary : ∀ tables, Agrees more last (binary budget tables) (binary budget' tables)
  operators : ∀ table tighter left,
    Agrees more last (operators budget table tighter left) (operators budget' table tighter left)
  unary : Agrees more last (unary budget) (unary budget')
  primary : Agrees more last (primary budget) (primary budget')
  call : ∀ name start, Agrees more last (call budget name start) (call budget' name start)
  arguments : Agrees more last (arguments budget) (arguments budget')

namespace ExpressionsAgree

theorem zero : ExpressionsAgree more last 0 budget' where
  expression := .exhausted
  binary _ := .exhausted
  operators _ _ _ := .exhausted
  unary := .exhausted
  primary := .exhausted
  call _ _ := .exhausted
  arguments := .exhausted

variable (ih : ExpressionsAgree more last budget budget')
include ih

theorem binary_succ (tables : List (List (Mark × BinaryOp))) :
    Agrees more last (Parser.binary (budget + 1) tables) (Parser.binary (budget' + 1) tables) := by
  cases tables with
  | nil => exact ih.unary
  | cons table tighter =>
    exact (ih.binary tighter).bind fun left => ih.operators table tighter left

theorem operators_succ (table : List (Mark × BinaryOp)) (tighter : List (List (Mark × BinaryOp)))
    (left : Expr) :
    Agrees more last (Parser.operators (budget + 1) table tighter left)
      (Parser.operators (budget' + 1) table tighter left) := by
  refine .bind (agrees_acceptOperator? table) fun accepted => ?_
  cases accepted with
  | some operator => exact (ih.binary tighter).bind fun right => ih.operators table tighter _
  | none => exact .pure left

theorem unary_succ :
    Agrees more last (Parser.unary (budget + 1)) (Parser.unary (budget' + 1)) := by
  intro s hs
  refine .get_bind (fun hc => ?_) ?_
  · simp only [view_extend hs hc, sees_and_seesSecond_extend hs hc, ne_eq, reduceCtorEq,
      not_false_eq_true, Kind.mark.injEq]
  split
  · exact agrees_advance.bind (fun _ => agrees_integerLiteral true _) hs
  · refine Agrees.bind (agrees_acceptOperator? unaryOperators) (fun accepted => ?_) hs
    cases accepted with
    | some operator => exact ih.unary.bind fun operand => .pure _
    | none => exact ih.primary

theorem primary_succ :
    Agrees more last (Parser.primary (budget + 1)) (Parser.primary (budget' + 1)) := by
  intro s hs
  refine .get_bind (fun hc => by simp only [view_extend hs hc]) ?_
  dsimp only
  cases s.view.kind with
  | integer => exact agrees_integerLiteral false _ hs
  | string => exact agrees_stringLiteral hs
  | identifier =>
    refine Agrees.bind agrees_expectIdentifier (fun r => ?_) hs
    exact .ite_sees (ih.call r.1 r.2) (.pure _)
  | keyword k =>
    cases k with
    | trueKw | falseKw => exact agrees_advance.bind (fun _ => .pure _) hs
    | _ => exact agrees_unexpected .expression hs
  | mark m =>
    cases m with
    | leftParen =>
      exact agrees_advance.bind (fun _ => ih.expression.bind fun inner =>
        .bind (agrees_expect _) fun _ => .pure inner) hs
    | _ => exact agrees_unexpected .expression hs
  | _ => exact agrees_unexpected .expression hs

theorem call_succ (name : String) (start : Span) :
    Agrees more last (Parser.call (budget + 1) name start)
      (Parser.call (budget' + 1) name start) :=
  .bind (agrees_expect _) fun _ => .ite_sees_bind (.pure []) ih.arguments fun _ =>
    .bind (agrees_expect _) fun _ => .pure _

theorem arguments_succ :
    Agrees more last (Parser.arguments (budget + 1)) (Parser.arguments (budget' + 1)) := by
  refine .bind ih.expression fun first => .bind (agrees_accept? _) fun accepted => ?_
  cases accepted with
  | some span => exact ih.arguments.bind fun rest => .pure _
  | none => exact .pure [first]

theorem succ : ExpressionsAgree more last (budget + 1) (budget' + 1) where
  expression := ih.binary precedence
  binary := ih.binary_succ
  operators := ih.operators_succ
  unary := ih.unary_succ
  primary := ih.primary_succ
  call := ih.call_succ
  arguments := ih.arguments_succ

end ExpressionsAgree

/-! ## The whole descent -/

theorem expressionsAgree (h : budget ≤ budget') : ExpressionsAgree more last budget budget' := by
  induction budget generalizing budget' with
  | zero => exact .zero
  | succ budget ih =>
    obtain ⟨budget', rfl, hle⟩ := exists_of_succ_le h
    exact (ih hle).succ

end Slate.Parser
