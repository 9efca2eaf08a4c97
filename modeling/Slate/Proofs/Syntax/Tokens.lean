-- SUMMARY: What the readers of single tokens succeed on, with the value and the state they leave.
import Slate.Proofs.Run
import Slate.Proofs.Syntax.Literal
import Slate.Syntax.Parser

/-!
# Single tokens

Most readers look at the first token that is left and at nothing else; for these,
success is an equivalence. The readers of literals and of type names look at the
token in view, which is the last one of the stream once nothing is left: a
literal at the very end would be read again and again. That never happens because
what stands before an operand is an operator, a keyword or a mark, and `Due` says
so of the end of the stream. `Sane` is what a state keeps from the whole stream.
-/

namespace Slate.Parser

open Grammar (NotNext Decimal Quoted)

variable {t last : Token} {ts : List Token} {depth : Nat} {s' : State} {kind : Kind}

/-! ## States -/

/-- The tokens that are read for themselves, also where they are only in view. -/
def isSelfContained : Kind → Bool
  | .integer | .string | .keyword .trueKw | .keyword .falseKw | .typeName _ => true
  | _ => false

/-- What is left is the end of a well spelled stream. -/
structure Sane (ts : List Token) (last : Token) : Prop where
  spelled : ∀ t ∈ ts, t.WellSpelled
  ends : ∀ t, ts.getLast? = some t → t = last

/-- If nothing is left, then what stays in view is not read for itself. -/
def Due (ts : List Token) (last : Token) : Prop := ts = [] → isSelfContained last.kind = false

theorem Sane.nil : Sane [] last := ⟨by simp, by simp⟩

theorem Sane.tail (h : Sane (t :: ts) last) : Sane ts last where
  spelled := fun u hu => h.spelled u (List.mem_cons_of_mem t hu)
  ends := by
    intro u hu
    cases ts with
    | nil => cases hu
    | cons v vs => exact h.ends u (by rwa [List.getLast?_cons_cons])

theorem Sane.head (h : Sane (t :: ts) last) : t.WellSpelled := h.spelled t List.mem_cons_self

/-- Behind an operator, a keyword or a mark, reading for an operand is safe. -/
theorem Sane.due (h : Sane (t :: ts) last) (hk : t.kind = kind)
    (hself : isSelfContained kind = false) : Due ts last := by
  rintro rfl
  rwa [← h.ends t rfl, hk]

theorem Due.cons : Due (t :: ts) last := nofun

/-! ## Marks, keywords and names -/

theorem sees_cons : State.sees ⟨t :: ts, last, depth⟩ kind = true ↔ t.kind = kind := by
  simp [State.sees]

theorem sees_iff : State.sees ⟨ts, last, depth⟩ kind = true ↔
    ∃ t rest, ts = t :: rest ∧ t.kind = kind := by
  cases ts <;> simp [State.sees]

theorem not_sees_iff : State.sees ⟨ts, last, depth⟩ kind = false ↔ NotNext kind ts := by
  cases ts <;> simp [State.sees, NotNext]

theorem seesSecond_iff : State.seesSecond ⟨ts, last, depth⟩ kind = true ↔
    ∃ t u rest, ts = t :: u :: rest ∧ u.kind = kind := by
  match ts with
  | [] | [t] => simp [State.seesSecond]
  | t :: u :: ts => simp [State.seesSecond, and_assoc]

theorem advance_cons : advance ⟨t :: ts, last, depth⟩ = .ok ⟨⟩ ⟨ts, last, depth⟩ := rfl

@[simp] theorem not_unexpected_ok {α : Type} {what : Expectation} {s : State} {a : α} :
    ¬ unexpected what s = .ok a s' := by
  rintro ⟨⟩

theorem accept?_eq (kind : Kind) (s : State) :
    accept? kind s =
      if s.sees kind = true then .ok (some s.view.span) { s with rest := s.rest.tail }
      else .ok none s := by
  change (if s.sees kind = true then _ else _ : ParseM (Option Span)) s = _
  split <;> rfl

theorem accept?_ok {r : Option Span} :
    accept? kind ⟨ts, last, depth⟩ = .ok r s' ↔
      (∃ t rest, ts = t :: rest ∧ t.kind = kind ∧ r = some t.span ∧ s' = ⟨rest, last, depth⟩) ∨
      (NotNext kind ts ∧ r = none ∧ s' = ⟨ts, last, depth⟩) := by
  rw [accept?_eq]
  cases hs : State.sees ⟨ts, last, depth⟩ kind with
  | true =>
    obtain ⟨t, rest, rfl, hk⟩ := sees_iff.1 hs
    constructor
    · rintro ⟨⟩
      exact .inl ⟨t, rest, rfl, hk, rfl, rfl⟩
    · rintro (⟨_, _, ⟨⟩, -, rfl, rfl⟩ | ⟨hn, -⟩)
      · rfl
      · exact absurd hk (hn t rest rfl)
  | false =>
    have hn := not_sees_iff.1 hs
    constructor
    · rintro ⟨⟩
      exact .inr ⟨hn, rfl, rfl⟩
    · rintro (⟨t, rest, rfl, hk, -⟩ | ⟨-, rfl, rfl⟩)
      · exact absurd hk (hn t rest rfl)
      · rfl

theorem accept?_cons (h : t.kind = kind) :
    accept? kind ⟨t :: ts, last, depth⟩ = .ok (some t.span) ⟨ts, last, depth⟩ :=
  accept?_ok.2 (.inl ⟨t, ts, rfl, h, rfl, rfl⟩)

theorem accept?_none (h : NotNext kind ts) :
    accept? kind ⟨ts, last, depth⟩ = .ok none ⟨ts, last, depth⟩ :=
  accept?_ok.2 (.inr ⟨h, rfl, rfl⟩)

theorem expect_ok {span : Span} :
    expect kind ⟨ts, last, depth⟩ = .ok span s' ↔
      ∃ t rest, ts = t :: rest ∧ t.kind = kind ∧ span = t.span ∧ s' = ⟨rest, last, depth⟩ := by
  rw [expect, bind_ok]
  constructor
  · rintro ⟨r, s₁, h₁, h₂⟩
    obtain ⟨t, rest, rfl, hk, rfl, rfl⟩ | ⟨-, rfl, rfl⟩ := accept?_ok.1 h₁
    · obtain ⟨rfl, rfl⟩ := pure_ok.1 h₂
      exact ⟨t, rest, rfl, hk, rfl, rfl⟩
    · exact absurd h₂ not_unexpected_ok
  · rintro ⟨t, rest, rfl, hk, rfl, rfl⟩
    exact ⟨some t.span, ⟨rest, last, depth⟩, accept?_ok.2 (.inl ⟨t, rest, rfl, hk, rfl, rfl⟩), rfl⟩

theorem expect_cons (h : t.kind = kind) :
    expect kind ⟨t :: ts, last, depth⟩ = .ok t.span ⟨ts, last, depth⟩ :=
  expect_ok.2 ⟨t, ts, rfl, h, rfl, rfl⟩

theorem expectIdentifier_ok {name : String × Span} :
    expectIdentifier ⟨ts, last, depth⟩ = .ok name s' ↔
      ∃ t rest, ts = t :: rest ∧ t.kind = .identifier ∧ name = (t.text, t.span) ∧
        s' = ⟨rest, last, depth⟩ := by
  rw [expectIdentifier, get_bind_ok]
  cases hs : State.sees ⟨ts, last, depth⟩ .identifier with
  | true =>
    obtain ⟨t, rest, rfl, hk⟩ := sees_iff.1 hs
    constructor
    · rintro ⟨⟩
      exact ⟨t, rest, rfl, hk, rfl, rfl⟩
    · rintro ⟨_, _, ⟨⟩, -, rfl, rfl⟩
      rfl
  | false =>
    constructor
    · intro h
      exact absurd h not_unexpected_ok
    · rintro ⟨t, rest, rfl, hk, -⟩
      exact absurd hk (not_sees_iff.1 hs t rest rfl)

theorem expectIdentifier_cons (h : t.kind = .identifier) :
    expectIdentifier ⟨t :: ts, last, depth⟩ = .ok (t.text, t.span) ⟨ts, last, depth⟩ :=
  expectIdentifier_ok.2 ⟨t, ts, rfl, h, rfl, rfl⟩

theorem semicolon_ok {u : Unit} :
    semicolon ⟨ts, last, depth⟩ = .ok u s' ↔
      ∃ t rest, ts = t :: rest ∧ t.kind = .mark .semicolon ∧ s' = ⟨rest, last, depth⟩ := by
  rw [semicolon, bind_ok]
  constructor
  · rintro ⟨span, s₁, h₁, h₂⟩
    obtain ⟨t, rest, rfl, hk, -, rfl⟩ := expect_ok.1 h₁
    exact ⟨t, rest, rfl, hk, (pure_ok.1 h₂).2⟩
  · rintro ⟨t, rest, rfl, hk, rfl⟩
    exact ⟨t.span, _, expect_ok.2 ⟨t, rest, rfl, hk, rfl, rfl⟩, rfl⟩

theorem semicolon_cons (h : t.kind = .mark .semicolon) :
    semicolon ⟨t :: ts, last, depth⟩ = .ok () ⟨ts, last, depth⟩ :=
  semicolon_ok.2 ⟨t, ts, rfl, h, rfl⟩

/-- The mark that is accepted is the first of the table that stands there. -/
theorem acceptOperator?_some {α : Type} {table : List (Mark × α)} {op : α} {span : Span}
    (h : acceptOperator? table ⟨ts, last, depth⟩ = .ok (some (op, span)) s') :
    ∃ t rest mark, ts = t :: rest ∧ t.kind = .mark mark ∧ (mark, op) ∈ table ∧ span = t.span ∧
      s' = ⟨rest, last, depth⟩ := by
  induction table with
  | nil => cases h
  | cons entry table ih =>
    obtain ⟨mark, op'⟩ := entry
    rw [acceptOperator?, bind_ok] at h
    obtain ⟨r, s₁, h₁, h₂⟩ := h
    obtain ⟨t, rest, rfl, hk, rfl, rfl⟩ | ⟨-, rfl, rfl⟩ := accept?_ok.1 h₁
    · obtain ⟨heq, rfl⟩ := pure_ok.1 h₂
      cases heq
      exact ⟨t, rest, mark, rfl, hk, List.mem_cons_self, rfl, rfl⟩
    · obtain ⟨t, rest, mark, rfl, hk, hmem, hspan, hs⟩ := ih h₂
      exact ⟨t, rest, mark, rfl, hk, List.mem_cons_of_mem _ hmem, hspan, hs⟩

/-- A mark that stands in the table once is accepted with what the table holds for it. -/
theorem acceptOperator?_of_mem {α : Type} {table : List (Mark × α)} {mark : Mark} {op : α}
    (hnodup : (table.map Prod.fst).Nodup) (hmem : (mark, op) ∈ table)
    (hk : t.kind = .mark mark) :
    acceptOperator? table ⟨t :: ts, last, depth⟩ = .ok (some (op, t.span)) ⟨ts, last, depth⟩ := by
  induction table with
  | nil => cases hmem
  | cons entry table ih =>
    obtain ⟨mark', op'⟩ := entry
    obtain ⟨hnot, hnodup⟩ := List.nodup_cons.1 hnodup
    rw [acceptOperator?]
    rcases List.mem_cons.1 hmem with heq | hin
    · cases heq
      exact bind_ok.2 ⟨_, _, accept?_cons hk, rfl⟩
    · have hne : t.kind ≠ .mark mark' := by
        intro hk'
        obtain rfl : mark = mark' := by simpa [hk] using hk'
        exact hnot (List.mem_map.2 ⟨(mark, op), hin, rfl⟩)
      exact bind_ok.2 ⟨none, _, accept?_none (.cons hne), ih hnodup hin⟩

theorem acceptOperator?_none {α : Type} {table : List (Mark × α)} :
    acceptOperator? table ⟨ts, last, depth⟩ = .ok none s' ↔
      (∀ entry ∈ table, NotNext (.mark entry.1) ts) ∧ s' = ⟨ts, last, depth⟩ := by
  induction table with
  | nil => simp [acceptOperator?]
  | cons entry table ih =>
    obtain ⟨mark, op⟩ := entry
    rw [acceptOperator?, bind_ok]
    constructor
    · rintro ⟨r, s₁, h₁, h₂⟩
      obtain ⟨t, rest, rfl, hk, rfl, rfl⟩ | ⟨hn, rfl, rfl⟩ := accept?_ok.1 h₁
      · exact absurd (pure_ok.1 h₂).1 nofun
      · obtain ⟨hall, rfl⟩ := ih.1 h₂
        exact ⟨List.forall_mem_cons.2 ⟨hn, hall⟩, rfl⟩
    · rintro ⟨hall, rfl⟩
      obtain ⟨hn, hall⟩ := List.forall_mem_cons.1 hall
      exact ⟨none, _, accept?_none hn, ih.2 ⟨hall, rfl⟩⟩

/-! ## Type names and literals -/

theorem expectType_ok {ty : Ty} (hd : Due ts last) :
    expectType ⟨ts, last, depth⟩ = .ok ty s' ↔
      ∃ t rest, ts = t :: rest ∧ t.kind = .typeName ty ∧ s' = ⟨rest, last, depth⟩ := by
  rw [expectType, get_bind_ok]
  cases ts with
  | nil =>
    have hlast := hd rfl
    simp only [State.view, List.headD_nil]
    constructor
    · intro h
      cases hk : last.kind with
      | typeName ty' => simp [hk, isSelfContained] at hlast
      | _ => rw [hk] at h; exact absurd h not_unexpected_ok
    · rintro ⟨t, rest, ⟨⟩, -⟩
  | cons t ts =>
    simp only [State.view, List.headD_cons]
    constructor
    · intro h
      cases hk : t.kind with
      | typeName ty' => rw [hk] at h; cases h; exact ⟨t, ts, rfl, hk, rfl⟩
      | _ => rw [hk] at h; exact absurd h not_unexpected_ok
    · rintro ⟨_, _, ⟨⟩, hk, rfl⟩
      rw [hk]
      rfl

theorem expectType_cons {ty : Ty} (h : t.kind = .typeName ty) :
    expectType ⟨t :: ts, last, depth⟩ = .ok ty ⟨ts, last, depth⟩ :=
  (expectType_ok .cons).2 ⟨t, ts, rfl, h, rfl⟩

theorem integerLiteral_ok {negative : Bool} {start : Span} {e : Expr}
    (hne : t.text.toList ≠ []) (hd : ∀ c ∈ t.text.toList, c.isDigit = true) :
    integerLiteral negative start ⟨t :: ts, last, depth⟩ = .ok e s' ↔
      ∃ n, Decimal t.text n ∧ n ≤ Literal.bound negative ∧
        e = .literal (.int (Int32.ofInt (if negative then -(n : Int) else n)))
          (start.merge t.span) ∧ s' = ⟨ts, last, depth⟩ := by
  rw [integerLiteral, get_bind_ok]
  simp only [State.view, List.headD_cons]
  constructor
  · intro h
    cases hw : Literal.integer? negative t.text with
    | some w =>
      rw [hw] at h
      cases h
      obtain ⟨n, hn, hbound, rfl⟩ := (Literal.integer?_eq_some hne hd).1 hw
      exact ⟨n, hn, hbound, rfl, rfl⟩
    | none => rw [hw] at h; cases h
  · rintro ⟨n, hn, hbound, rfl, rfl⟩
    rw [(Literal.integer?_eq_some hne hd).2 ⟨n, hn, hbound, rfl⟩]
    rfl

theorem stringLiteral_ok {e : Expr} (hq : ∃ inside, t.text.toList = '"' :: (inside ++ ['"'])) :
    stringLiteral ⟨t :: ts, last, depth⟩ = .ok e s' ↔
      ∃ value, Quoted t.text value ∧ e = .literal (.string value) t.span ∧
        s' = ⟨ts, last, depth⟩ := by
  rw [stringLiteral, get_bind_ok]
  simp only [State.view, List.headD_cons]
  constructor
  · intro h
    cases hv : Literal.string t.text with
    | ok value =>
      rw [hv] at h
      cases h
      exact ⟨value, (Literal.string_eq_ok hq).1 hv, rfl, rfl⟩
    | error fault => rw [hv] at h; cases h
  · rintro ⟨value, hv, rfl, rfl⟩
    rw [(Literal.string_eq_ok hq).2 hv]
    rfl

end Slate.Parser
