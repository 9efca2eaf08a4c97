-- SUMMARY: An integer literal is read as the number it spells or refused, wherever an operand is due, and the sign belongs to it there only.
import Slate.Proofs.Syntax.Acceptance
import Slate.Proofs.Syntax.Walk.Statement
import Slate.Proofs.Syntax.Extension.Statement
import Slate.Proofs.Syntax.Operands
import Slate.Proofs.Token.Printing

/-!
# Integer literals

A row of digits spells a number of any size; a literal denotes it if it fits a signed word of
32 bits. There is one more negative word than there are positive ones, so the bound depends on
whether a minus in front belongs to the literal. It does where an operand is due, and only
there: behind an operand the minus joins two of them. The number goes through a word of 64 bits
before it is cut down to 32, and is turned round in between. For digits alone this never
overflows, as what they spell is not negative.
-/

namespace Slate

namespace Literal

/-! ## Words of 64 bits -/

variable {n : Int} {text : String} {m : Int64}

theorem doubleWord?_eq_some : doubleWord? n = some m ↔ n = m.toInt := by
  have hleast := m.le_toInt
  have hgreatest := m.toInt_lt
  unfold doubleWord?
  constructor
  · intro h
    split at h
    · next hn =>
      obtain rfl := Option.some.inj h
      exact (Int64.toInt_ofInt_of_le (by omega) (by omega)).symm
    · cases h
  · rintro rfl
    rw [if_pos (by omega), Int64.ofInt_toInt]

theorem doubleWord?_eq_none : doubleWord? n = none ↔
    n < -9223372036854775808 ∨ 9223372036854775807 < n := by
  unfold doubleWord?
  split
  · next hn => simp only [reduceCtorEq, false_iff]; omega
  · next hn => simp only [true_iff]; omega

theorem word?_eq_none (h : n < -2147483648 ∨ 2147483647 < n) : word? n = none :=
  if_neg (by omega)

/-- The word that a literal denotes can be found by way of a double word. It does not matter
that the least double word cannot be turned round, since it would not fit a word either way. -/
theorem integer?_eq_of_magnitude? (negative : Bool) (text : String) :
    integer? negative text =
      (magnitude? text).bind fun m => word? (if negative then -m else m).toInt := by
  unfold integer? magnitude?
  cases signed? text.toList with
  | none => rfl
  | some n =>
    simp only [Option.bind_eq_bind, Option.bind_some]
    cases hm : doubleWord? n with
    | none =>
      have hn := doubleWord?_eq_none.1 hm
      refine word?_eq_none ?_
      split <;> omega
    | some m =>
      obtain rfl := doubleWord?_eq_some.1 hm
      rw [Option.bind_some]
      cases negative with
      | false => rfl
      | true =>
        have hleast := m.le_toInt
        have hgreatest := m.toInt_lt
        simp only [if_true, Int64.toInt_neg]
        by_cases hmin : m.toInt = -9223372036854775808
        · rw [hmin]
          decide
        · rw [Int.bmod_eq_of_le (by omega) (by omega)]

/-! ## Rows of digits -/

variable {negative : Bool} {value : Nat}

/-- The text is a row of decimal digits that denotes this number, be it as long as it may. -/
structure Digits (text : String) (value : Nat) : Prop where
  nonempty : text.toList ≠ []
  digits : ∀ c ∈ text.toList, c.isDigit = true
  value : Nat.ofDigitChars 10 text.toList 0 = value

theorem Digits.signed?_eq (h : Digits text value) : signed? text.toList = some (value : Int) := by
  rw [signed?_of_digits h.nonempty h.digits, ← h.value]
  rfl

theorem Digits.integer?_eq (h : Digits text value) : integer? negative text =
    if value ≤ bound negative then
      some (Int32.ofInt (if negative then -(value : Int) else value)) else none := by
  simp only [integer?, h.signed?_eq, Option.bind_eq_bind, Option.bind_some, word?_signed]

/-- Within the bound, a row of digits denotes a word of its value. -/
theorem Digits.exists_word (h : Digits text value) (hvalue : value ≤ bound negative) :
    ∃ w : Int32, w.toInt = (if negative then -(value : Int) else value) ∧
      integer? negative text = some w := by
  have hfits : -2147483648 ≤ (if negative then -(value : Int) else value) ∧
      (if negative then -(value : Int) else value) < 2147483648 := by
    unfold bound at hvalue
    cases negative with
    | true =>
      simp only [if_true] at hvalue ⊢
      omega
    | false =>
      simp only [Bool.false_eq_true, if_false] at hvalue ⊢
      omega
  exact ⟨_, Int32.toInt_ofInt_of_le hfits.1 hfits.2, by rw [h.integer?_eq, if_pos hvalue]⟩

theorem Digits.integer?_eq_none (h : Digits text value) (hvalue : bound negative < value) :
    integer? negative text = none := by
  rw [h.integer?_eq, if_neg (Nat.not_le.2 hvalue)]

/-- What digits spell is turned round without overflow. -/
theorem Digits.negated (h : Digits text value) (hm : magnitude? text = some m) :
    m ≠ Int64.minValue ∧ (-m).toInt = -m.toInt := by
  rw [magnitude?, h.signed?_eq] at hm
  have hvalue := doubleWord?_eq_some.1 hm
  have hgreatest := m.toInt_lt
  constructor
  · rintro rfl
    rw [Int64.toInt_minValue] at hvalue
    omega
  · rw [Int64.toInt_neg, Int.bmod_eq_of_le (by omega) (by omega)]

/-- The lexer makes integers of digits alone. -/
theorem exists_digits {t : Token} (hspelled : t.WellSpelled) (hk : t.kind = .integer) :
    ∃ value, Digits t.text value :=
  have h := hspelled.of_integer hk
  ⟨_, h.1, h.2, rfl⟩

end Literal

namespace Parser

open Grammar

variable {budget value : Nat} {ts here : List Token} {span : Span} {d last : Token} {depth : Nat}
variable {negative : Bool} {left : Expr}

/-! ## Reading integer literals -/

/-- The ways to write digits as a literal, alone or behind a minus that belongs to it, with the
span that the literal has. -/
inductive WrittenAs (d : Token) : Bool → List Token → Span → Prop
  | alone : WrittenAs d false [d] d.span
  | behindMinus {minus : Token} : minus.kind = .mark .minus →
      WrittenAs d true [minus, d] (minus.span.merge d.span)

theorem WrittenAs.beginsInteger (h : WrittenAs d negative here span) (hd : d.kind = .integer) :
    BeginsInteger (here ++ ts) := by
  cases h with
  | alone => exact .alone hd
  | behindMinus hminus => exact .behindMinus hminus hd

/-- The digits decide what a literal is read as. -/
theorem unary_writtenAs (h : WrittenAs d negative here span) (hd : d.kind = .integer) :
    unary (budget + 2) ⟨here ++ ts, last, depth⟩ =
      match Literal.integer? negative d.text with
      | some w => .ok (.literal (.int w) span) ⟨ts, last, depth⟩
      | none => .error (.fault .integerOutOfRange span) ⟨d :: ts, last, depth⟩ := by
  cases h with
  | alone =>
    rw [List.singleton_append, unary_of_not_minus (.cons (by simp [hd])) (.cons (by simp [hd])),
      primary, get_bind_apply]
    simp only [State.view, List.headD_cons, hd]
    rw [integerLiteral, get_bind_apply]
    simp only [State.view, List.headD_cons, Span.merge_self]
    cases Literal.integer? false d.text <;> rfl
  | @behindMinus minus hminus =>
    rw [List.cons_append, List.singleton_append, unary, get_bind_apply,
      if_pos (Bool.and_eq_true_iff.2 ⟨sees_cons.2 hminus, seesSecond_iff.2 ⟨_, _, _, rfl, hd⟩⟩),
      bind_of_ok advance_cons, integerLiteral, get_bind_apply]
    simp only [State.view, List.headD_cons]
    cases Literal.integer? true d.text <;> rfl

/-- A literal that denotes a word is an expression of the grammar. -/
theorem WrittenAs.expression {w : Int32} (h : WrittenAs d negative here span)
    (hd : d.kind = .integer) (hdigits : Literal.Digits d.text value)
    (hw : Literal.integer? negative d.text = some w) :
    Expression (here ++ ts) (.literal (.int w) span) ts := by
  obtain ⟨n, hdecimal, hbound, rfl⟩ :=
    (Literal.integer?_eq_some hdigits.nonempty hdigits.digits).1 hw
  have hunary : Unary (here ++ ts)
      (.literal (.int (Int32.ofInt (if negative then -(n : Int) else n))) span) ts := by
    cases h with
    | alone => exact .primary (.integer hd hdecimal hbound)
    | behindMinus hminus => exact .negative hminus hd hdecimal hbound
  exact .joined (.joined (.joined (.joined (.joined (.joined (.unary hunary) .none) .none) .none)
    .none) .none) .none

/-- The tokens are read as a literal of this value wherever an operand is due; they are a whole
expression where nothing goes on with it. -/
def ReadAsInteger (here : List Token) (n : Int) (span : Span) : Prop :=
  ∃ w : Int32, w.toInt = n ∧
    (∀ (ts : List Token) (last : Token) (depth budget : Nat), 2 ≤ budget →
      unary budget ⟨here ++ ts, last, depth⟩ =
        .ok (.literal (.int w) span) ⟨ts, last, depth⟩) ∧
    ∀ (ts : List Token) (last : Token) (depth budget : Nat), Stops levels ts → 42 ≤ budget →
      expression budget ⟨here ++ ts, last, depth⟩ =
        .ok (.literal (.int w) span) ⟨ts, last, depth⟩

/-- The tokens, which end with `d`, are refused wherever an operand is due, and then so is the
expression around them, and the statement becomes an error node that says so. -/
structure RefusedInteger (here : List Token) (d : Token) (span : Span) : Prop where
  operand : ∀ (ts : List Token) (last : Token) (depth budget : Nat), 2 ≤ budget →
    unary budget ⟨here ++ ts, last, depth⟩ =
      .error (.fault .integerOutOfRange span) ⟨d :: ts, last, depth⟩
  expression : ∀ (begin ts : List Token) (last : Token) (depth budget : Nat),
    LevelAsks levels begin (here ++ ts) →
      16 * begin.length + 10 ≤ 16 * (here ++ ts).length + budget →
        expression budget ⟨begin, last, depth⟩ =
          .error (.fault .integerOutOfRange span) ⟨d :: ts, last, depth⟩
  statement : ∀ (begin ts : List Token) (last : Token) (depth budget : Nat),
    StatementAsks begin (here ++ ts) →
      16 * begin.length + 13 ≤ 16 * (here ++ ts).length + budget →
        statement budget ⟨begin, last, depth⟩ =
          .ok (.error d.text Fault.integerOutOfRange.reason span)
            (State.recovered ⟨begin, last, depth⟩ ⟨d :: ts, last, depth⟩)
  /-- At the top of a program, behind other statements. -/
  program : ∀ (tokens begin ts : List Token) (list : List Stmt) (program : Program),
    Statements true tokens list begin → StatementAsks begin (here ++ ts) →
      parse tokens = .ok program → ∃ others,
        program.statements = list ++ .error d.text Fault.integerOutOfRange.reason span :: others

theorem readAsInteger (h : WrittenAs d negative here span) (hd : d.kind = .integer)
    (hdigits : Literal.Digits d.text value) (hvalue : value ≤ Literal.bound negative) :
    ReadAsInteger here (if negative then -(value : Int) else value) span := by
  obtain ⟨w, hw, hread⟩ := hdigits.exists_word hvalue
  refine ⟨w, hw, fun ts last depth budget hbudget => ?_,
    fun ts last depth budget hstops hbudget => ?_⟩
  · obtain ⟨budget, rfl⟩ : ∃ b, budget = b + 2 := ⟨budget - 2, by omega⟩
    rw [unary_writtenAs h hd, hread]
  · have hlength : here.length ≤ 2 := by cases h <;> simp
    refine (completeExpressions budget).expression (h.expression hd hdigits hread) hstops ?_
    rw [List.length_append]
    omega

theorem WrittenAs.refusedAt (h : WrittenAs d negative here span) (hd : d.kind = .integer)
    (hdigits : Literal.Digits d.text value) (hvalue : Literal.bound negative < value)
    (ts : List Token) (last : Token) (depth : Nat) :
    RefusedAt (here ++ ts) last depth (.fault .integerOutOfRange span) ⟨d :: ts, last, depth⟩ where
  begins := h.beginsInteger hd
  operand budget hbudget := by
    obtain ⟨budget, rfl⟩ : ∃ b, budget = b + 2 := ⟨budget - 2, by omega⟩
    rw [unary_writtenAs h hd, hdigits.integer?_eq_none hvalue]

theorem WrittenAs.statement_eq (h : WrittenAs d negative here span) (hd : d.kind = .integer)
    (hdigits : Literal.Digits d.text value) (hvalue : Literal.bound negative < value)
    {begin : List Token} (hasks : StatementAsks begin (here ++ ts))
    (hbudget : 16 * begin.length + 13 ≤ 16 * (here ++ ts).length + budget) :
    statement budget ⟨begin, last, depth⟩ =
      .ok (.error d.text Fault.integerOutOfRange.reason span)
        (State.recovered ⟨begin, last, depth⟩ ⟨d :: ts, last, depth⟩) := by
  have := hasks.length_le
  obtain ⟨budget, rfl⟩ : ∃ b, budget = b + 1 := ⟨budget - 1, by omega⟩
  have hstopped : strictStatement budget ⟨begin, last, depth⟩ =
      .error (.fault .integerOutOfRange span) ⟨d :: ts, last, depth⟩ :=
    (h.refusedAt hd hdigits hvalue ts last depth).strictStatement hasks (by omega)
  exact recovering_fault hstopped rfl

theorem refusedInteger (h : WrittenAs d negative here span) (hd : d.kind = .integer)
    (hdigits : Literal.Digits d.text value) (hvalue : Literal.bound negative < value) :
    RefusedInteger here d span where
  operand ts last depth := (h.refusedAt hd hdigits hvalue ts last depth).operand
  expression _ ts last depth _ hasks hbudget :=
    (h.refusedAt hd hdigits hvalue ts last depth).expression hasks hbudget
  statement _ _ _ _ _ hasks hbudget := h.statement_eq hd hdigits hvalue hasks hbudget
  program tokens begin ts list program hlist hasks hparse := by
    have hopens := hasks.opens (h.beginsInteger hd)
    have hlength : 0 < (here ++ ts).length :=
      List.length_pos_of_ne_nil (h.beginsInteger hd).opens.ne_nil
    unfold parse at hparse
    split at hparse
    · next hlast =>
      rw [List.getLast?_eq_none_iff] at hlast
      have := hlist.shrinks
      simp only [hlast, List.length_nil, Nat.le_zero_eq, List.length_eq_zero_iff] at this
      exact absurd this hopens.ne_nil
    · next last hlast =>
      have hbudget : 16 * tokens.length + 13 ≤ budgetFor tokens.length := by
        unfold budgetFor
        omega
      obtain ⟨left, hleft, hbehind⟩ := programStatements_behind hlist (hopens.notNext rfl) hbudget
      obtain ⟨left, rfl⟩ : ∃ b, left = b + 1 := ⟨left - 1, by omega⟩
      dsimp only at hparse
      rw [hbehind, programStatements] at hparse
      split at hparse
      · next statements s₁ hrun =>
        cases hparse
        obtain ⟨others, s₂, hothers, hall⟩ := bind_ok.1 hrun
        rw [get_bind_ok, not_atEnd hopens, if_neg Bool.false_ne_true,
          bind_of_ok (h.statement_eq hd hdigits hvalue hasks (by omega))] at hothers
        obtain ⟨more, s₃, -, hmore⟩ := bind_ok.1 hothers
        exact ⟨more, by rw [(pure_ok.1 hall).1, (pure_ok.1 hmore).1]⟩
      · cases hparse

/-! ## Behind an operand -/

/-- Behind an operand, a minus before the digits takes them as its right operand. -/
structure Subtracts (d : Token) (value : Nat) : Prop where
  /-- Products do not go on over the minus. -/
  factor : ∀ (minus : Token) (left : Expr) (ts : List Token) (last : Token) (depth budget : Nat),
    minus.kind = .mark .minus →
      operators (budget + 1) factorLevel [] left ⟨minus :: d :: ts, last, depth⟩ =
        .ok left ⟨minus :: d :: ts, last, depth⟩
  term : value ≤ 2147483647 → ∃ w : Int32, w.toInt = value ∧
    ∀ (minus : Token) (left : Expr) (ts : List Token) (last : Token) (depth budget : Nat),
      minus.kind = .mark .minus →
        operators (budget + 5) termLevel [factorLevel] left ⟨minus :: d :: ts, last, depth⟩ =
          (operators (budget + 3) factorLevel [] (.literal (.int w) d.span) >>= fun right =>
            operators (budget + 4) termLevel [factorLevel] (left.join .subtract right))
          ⟨ts, last, depth⟩
  refused : 2147483647 < value →
    ∀ (minus : Token) (left : Expr) (ts : List Token) (last : Token) (depth budget : Nat),
      minus.kind = .mark .minus →
        operators (budget + 5) termLevel [factorLevel] left ⟨minus :: d :: ts, last, depth⟩ =
          .error (.fault .integerOutOfRange d.span) ⟨d :: ts, last, depth⟩

/-- A minus behind an operand is taken by the level of sums, and the operand behind it is read
like any other. -/
theorem operators_minus {minus : Token} (hk : minus.kind = .mark .minus) :
    operators (budget + 3) termLevel [factorLevel] left ⟨minus :: ts, last, depth⟩ =
      (unary budget >>= fun first => operators (budget + 1) factorLevel [] first >>= fun right =>
        operators (budget + 2) termLevel [factorLevel] (left.join .subtract right))
      ⟨ts, last, depth⟩ := by
  have hmem : (Mark.minus, BinaryOp.subtract) ∈ termLevel := by decide
  rw [operators, bind_of_ok (acceptOperator?_of_mem (by decide) hmem hk)]
  dsimp only
  rw [binary, binary, bind_assoc]

theorem subtracts (hd : d.kind = .integer) (hdigits : Literal.Digits d.text value) :
    Subtracts d value where
  factor minus left ts last depth budget hk := by
    have hnone : ∀ entry ∈ factorLevel, NotNext (.mark entry.1) (minus :: d :: ts) := by
      simp only [factorLevel, List.forall_mem_cons]
      exact ⟨.cons (by simp [hk]), .cons (by simp [hk]), .cons (by simp [hk]), nofun⟩
    rw [operators, bind_of_ok (acceptOperator?_none.2 ⟨hnone, rfl⟩)]
    rfl
  term hvalue := by
    obtain ⟨w, hw, hread, -⟩ := readAsInteger .alone hd hdigits hvalue
    refine ⟨w, hw, fun minus left ts last depth budget hk => ?_⟩
    rw [operators_minus hk]
    exact bind_of_ok (hread ts last depth (budget + 2) (by omega))
  refused hvalue minus left ts last depth budget hk := by
    have hrefused := (refusedInteger .alone hd hdigits hvalue).operand ts last depth (budget + 2)
    rw [operators_minus hk]
    exact bind_of_error (hrefused (by omega))

/-! ## Where reading stops -/

/-- Among the tokens, the digits `d` are a literal with a value out of range, at this span. -/
def OutOfRange (tokens : List Token) (d : Token) (span : Span) : Prop :=
  ∃ negative here value, WrittenAs d negative here span ∧ here <:+: tokens ∧
    Literal.Digits d.text value ∧ Literal.bound negative < value

/-- Among the tokens, the digits `d` are a literal with a value within the range. -/
def InRange (tokens : List Token) (d : Token) : Prop :=
  ∃ negative here span value, WrittenAs d negative here span ∧ here <:+: tokens ∧
    Literal.Digits d.text value ∧ value ≤ Literal.bound negative

theorem OutOfRange.mono {tokens tokens' : List Token} (h : OutOfRange tokens d span)
    (hwithin : tokens <:+: tokens') : OutOfRange tokens' d span := by
  obtain ⟨negative, here, value, hwritten, hhere, hvalue⟩ := h
  exact ⟨negative, here, value, hwritten, hhere.trans hwithin, hvalue⟩

theorem InRange.mono {tokens tokens' : List Token} (h : InRange tokens d)
    (hwithin : tokens <:+: tokens') : InRange tokens' d := by
  obtain ⟨negative, here, span, value, hwritten, hhere, hvalue⟩ := h
  exact ⟨negative, here, span, value, hwritten, hhere.trans hwithin, hvalue⟩

/-- A fault that is met at an integer says that something else than an expression was due, or
that the number is out of range. -/
theorem Charged.at_integer {fault : Fault} (h : Charged here d ts fault span)
    (hd : d.kind = .integer) (hdigits : Literal.Digits d.text value) (hsuffix : d :: ts <:+ here) :
    (∃ what, what ≠ .expression ∧ fault = .expected what (some d.text)) ∨
      fault = .integerOutOfRange ∧ OutOfRange here d span := by
  have hvalue : ∀ {negative}, Literal.integer? negative d.text = none →
      Literal.bound negative < value := by
    intro negative hnone
    by_contra hle
    obtain ⟨w, -, hw⟩ := hdigits.exists_word (Nat.not_lt.1 hle)
    rw [hnone] at hw
    cases hw
  cases h with
  | unexpected what operand =>
    exact .inl ⟨what, fun hwhat => (operand hwhat).1 hd, rfl⟩
  | nestedFunction fn => rw [hd] at fn; cases fn
  | string literal => rw [hd] at literal; cases literal
  | integer _ tooLarge =>
    have hwithin : [d] <:+: here := (List.prefix_append [d] ts).isInfix.trans hsuffix.isInfix
    exact .inr ⟨rfl, false, [d], value, .alone, hwithin, hdigits, hvalue tooLarge⟩
  | @negative minus _ tooLarge sign before =>
    have hwithin : [minus, d] <:+: here :=
      (List.prefix_append [minus, d] ts).isInfix.trans before.isInfix
    exact .inr ⟨rfl, true, [minus, d], value, .behindMinus sign, hwithin, hdigits, hvalue tooLarge⟩

/-- A statement that is stopped at an integer becomes an error node for either reason. -/
theorem statement_stopped_at_integer {s s₁ : State} {fault : Fault} (hd : d.kind = .integer)
    (hdigits : Literal.Digits d.text value)
    (hstopped : strictStatement budget s = .error (.fault fault span) s₁)
    (hrest : s₁.rest = d :: ts) :
    statement (budget + 1) s = .ok (.error d.text fault.reason span) (s.recovered s₁) ∧
      ((∃ what, what ≠ .expression ∧ fault = .expected what (some d.text)) ∨
        fault = .integerOutOfRange ∧ OutOfRange s.rest d span) := by
  obtain ⟨⟨passages, blocks, hread⟩, hcharged⟩ := strictStatement_charged hstopped hrest
  refine ⟨?_, hcharged.at_integer hd hdigits hread.suffix⟩
  rw [← view_of_cons hrest]
  exact recovering_fault hstopped (by rw [State.atEnd, hrest]; rfl)

/-- What the parser does with the digits `d` of this value, wherever they stand. -/
structure HandlesDigits (d : Token) (value : Nat) : Prop where
  read : ∀ (negative : Bool) (here : List Token) (span : Span),
    WrittenAs d negative here span → value ≤ Literal.bound negative →
      ReadAsInteger here (if negative then -(value : Int) else value) span
  refused : ∀ (negative : Bool) (here : List Token) (span : Span),
    WrittenAs d negative here span → Literal.bound negative < value → RefusedInteger here d span
  subtracted : Subtracts d value
  /-- A statement that is stopped at the digits, wherever it begins. -/
  stopped : ∀ (budget : Nat) (s s₁ : State) (fault : Fault) (span : Span) (ts : List Token),
    strictStatement budget s = .error (.fault fault span) s₁ → s₁.rest = d :: ts →
      statement (budget + 1) s = .ok (.error d.text fault.reason span) (s.recovered s₁) ∧
        ((∃ what, what ≠ .expression ∧ fault = .expected what (some d.text)) ∨
          fault = .integerOutOfRange ∧ OutOfRange s.rest d span)

theorem handlesDigits (hd : d.kind = .integer) (hdigits : Literal.Digits d.text value) :
    HandlesDigits d value where
  read _ _ _ h hvalue := readAsInteger h hd hdigits hvalue
  refused _ _ _ h hvalue := refusedInteger h hd hdigits hvalue
  subtracted := subtracts hd hdigits
  stopped _ _ _ _ _ _ hstopped hrest := statement_stopped_at_integer hd hdigits hstopped hrest

/-! ## Programs -/

section

variable {outside : Bool} {there : List Token} {passages : List Passage} {blocks : List Block}

/-- An integer that is no literal within the range is passed over for an error node. -/
theorem Course.inRange (h : Course outside here passages blocks there)
    (hspelled : ∀ t ∈ here, t.WellSpelled) :
    ∃ inner, here = inner ++ there ∧ ∀ d ∈ inner, d.kind = .integer →
      InRange inner d ∨ ∃ p ∈ passages, d ∈ p.tokens := by
  have hvalue : ∀ {negative : Bool} {d : Token} {w : Int32}, d.WellSpelled → d.kind = .integer →
      Literal.integer? negative d.text = some w →
        ∃ value, Literal.Digits d.text value ∧ value ≤ Literal.bound negative := by
    intro negative d w hd hk hw
    obtain ⟨value, hdigits⟩ := Literal.exists_digits hd hk
    refine ⟨value, hdigits, Nat.not_lt.1 fun hlt => ?_⟩
    rw [hdigits.integer?_eq_none hlt] at hw
    cases hw
  induction h with
  | rest here => exact ⟨[], rfl, List.forall_mem_nil _⟩
  | @plain _ t ts token =>
    refine ⟨[t], rfl, List.forall_mem_singleton.2 fun hk => .inl ?_⟩
    obtain ⟨w, hw⟩ := token.fits hk
    obtain ⟨value, hdigits, hbound⟩ := hvalue (hspelled t List.mem_cons_self) hk hw
    exact ⟨false, [t], t.span, value, .alone, List.infix_rfl, hdigits, hbound⟩
  | @negative _ minus t ts w sign literal fits =>
    refine ⟨[minus, t], rfl, ?_⟩
    simp only [List.forall_mem_cons]
    refine ⟨fun hk => ?_, fun hk => .inl ?_, List.forall_mem_nil _⟩
    · cases hk.symm.trans sign
    · obtain ⟨value, hdigits, hbound⟩ := hvalue (hspelled t (by simp)) hk fits
      exact ⟨true, [minus, t], _, value, .behindMinus sign, List.infix_rfl, hdigits, hbound⟩
  | append hbefore _ before behind =>
    obtain ⟨inner, rfl, hinner⟩ := before hspelled
    obtain ⟨inner', rfl, hinner'⟩ := behind fun t ht => hspelled t (List.mem_append_right _ ht)
    refine ⟨inner ++ inner', (List.append_assoc ..).symm, List.forall_mem_append.2 ⟨?_, ?_⟩⟩
    · exact fun d hd hk => (hinner d hd hk).imp
        (fun hin => hin.mono (List.prefix_append _ _).isInfix)
        fun ⟨p, hp, hmem⟩ => ⟨p, List.mem_append_left _ hp, hmem⟩
    · exact fun d hd hk => (hinner' d hd hk).imp
        (fun hin => hin.mono (List.suffix_append _ _).isInfix)
        fun ⟨p, hp, hmem⟩ => ⟨p, List.mem_append_right _ hp, hmem⟩
  | @error _ _ _ _ _ tokens _ _ _ _ _ _ _ passed _ =>
    exact ⟨tokens, passed, fun d hd _ => .inr ⟨_, List.mem_singleton_self _, hd⟩⟩
  | @stray t _ _ _ _ _ =>
    exact ⟨[t], rfl, fun d hd _ => .inr ⟨_, List.mem_singleton_self _, hd⟩⟩
  | @block _ opening closing inner after _ _ left right _ _ ih =>
    obtain ⟨inner', rfl, hinner⟩ := ih fun t ht => hspelled t (List.mem_cons_of_mem _ ht)
    refine ⟨opening :: (inner' ++ [closing]), by simp, ?_⟩
    simp only [List.forall_mem_cons, List.forall_mem_append]
    refine ⟨fun hk => ?_, fun d hd hk => ?_, fun hk => ?_, List.forall_mem_nil _⟩
    · cases hk.symm.trans left
    · exact (hinner d hd hk).imp_left fun hin => hin.mono ⟨[opening], [closing], rfl⟩
    · cases hk.symm.trans right

end

/-- The error node was made at the token `t`; if that is an integer, the node says that it is out
of range, or something else than an expression was due there. -/
structure MadeAt (tokens : List Token) (node : ErrorNode) (t : Token) : Prop where
  quoted : node.text = t.text
  integer : t.kind = .integer →
    (∃ what, what ≠ .expression ∧ node.reason = (Fault.expected what (some t.text)).reason) ∨
      node.reason = Fault.integerOutOfRange.reason ∧ OutOfRange tokens t node.span

end Parser

/-- In a program that is read from a text, every integer is a literal of its value within the
range, or it was passed over for an error node; error nodes that are made at an integer say that
it is out of range, unless something else than an expression was due there. -/
theorem integers_of_tokenize {source : String} {tokens : List Token} {program : Program}
    (htokens : tokenize source = .ok tokens) (h : parse tokens = .ok program) :
    ∃ passages, Parser.Course true tokens passages program.blocks [] ∧
      passages.map Parser.Passage.node = program.errors ∧
      (∀ d ∈ tokens, d.kind = .integer →
        Parser.InRange tokens d ∨ ∃ p ∈ passages, d ∈ p.tokens) ∧
      ∀ node ∈ program.errors, ∃ t ∈ tokens, Parser.MadeAt tokens node t := by
  have hspelled := wellSpelled_of_tokenize htokens
  obtain ⟨passages, hcourse, hnodes⟩ := parse_course h
  obtain ⟨inner, hinner, hintegers⟩ := hcourse.inRange hspelled
  rw [List.append_nil] at hinner
  obtain rfl : tokens = inner := hinner
  refine ⟨passages, hcourse, hnodes, hintegers, fun node hnode => ?_⟩
  rw [← hnodes] at hnode
  obtain ⟨p, hp, rfl⟩ := List.mem_map.1 hnode
  obtain ⟨begin, t, ts, fault, span, hbegin, hts, hcharged, hnode⟩ := hcourse.charged p hp
  have ht : t ∈ tokens := (hts.trans hbegin).mem List.mem_cons_self
  refine ⟨t, ht, by rw [hnode], fun hk => ?_⟩
  obtain ⟨value, hdigits⟩ := Literal.exists_digits (hspelled t ht) hk
  rw [hnode]
  obtain ⟨what, hwhat, rfl⟩ | ⟨rfl, hout⟩ := hcharged.at_integer hk hdigits hts
  · exact .inl ⟨what, hwhat, rfl⟩
  · exact .inr ⟨rfl, hout.mono hbegin.isInfix⟩

/-! ## Every word has a literal -/

section

open Lexer

variable {text : String} {value : Nat} {w : Int32}

/-- A row of digits is one token. -/
theorem takes_digits (h : Literal.Digits text value) :
    (Rule.token .integer).Takes text.toList (text.toList ++ []) := by
  refine takes_integer_of_blank ?_ nofun
  obtain ⟨c, cs, hcs⟩ := List.exists_cons_of_ne_nil h.nonempty
  have hdigits := h.digits
  rw [hcs] at hdigits ⊢
  obtain ⟨hc, hdigits⟩ := List.forall_mem_cons.1 hdigits
  exact mem_run.2 ⟨c, cs, isDigit_iff.1 hc, fun d hd => isDigit_iff.1 (hdigits d hd), rfl⟩

theorem tokenize_digits (h : Literal.Digits text value) :
    ∃ span, tokenize text = .ok [⟨.integer, text, span⟩] := by
  have hstart : Reached text.toList 0 (text.toList ++ []) [] := by
    rw [List.append_nil]
    exact .start
  have htokens := tokenize_of_reached (hstart.token (takes_digits h))
  rw [List.nil_append, String.ofList_toList] at htokens
  exact ⟨_, htokens⟩

/-- A minus in front of digits is a token of its own. -/
theorem takes_minus (h : Literal.Digits text value) :
    (Rule.token (.mark .minus)).Takes ['-'] ('-' :: text.toList) := by
  obtain ⟨c, cs, hcs⟩ := List.exists_cons_of_ne_nil h.nonempty
  have hdigit : c.isDigit = true := h.digits c (by rw [hcs]; exact List.mem_cons_self)
  have hgreater : '>' ≠ c := by
    rintro rfl
    cases hdigit
  rw [hcs]
  exact takes_mark rfl (gapLength_eq_zero.2 ⟨rfl, nofun⟩)
    (by simp [markAt, Mark.all, Mark.text, List.isPrefixOf, hgreater])

theorem tokenize_minus_digits (h : Literal.Digits text value) :
    ∃ span span', tokenize ("-" ++ text) =
      .ok [⟨.mark .minus, "-", span⟩, ⟨.integer, text, span'⟩] := by
  have hwhole : ("-" ++ text).toList = ['-'] ++ (text.toList ++ []) := by simp
  have hminus : (Rule.token (.mark .minus)).Takes ['-'] (['-'] ++ (text.toList ++ [])) := by
    rw [List.append_nil]
    exact takes_minus h
  have hstart : Reached ("-" ++ text).toList 0 (['-'] ++ (text.toList ++ [])) [] := by
    rw [← hwhole]
    exact .start
  have htokens := tokenize_of_reached ((hstart.token hminus).token (takes_digits h))
  rw [List.nil_append, List.singleton_append, String.ofList_toList] at htokens
  exact ⟨_, _, htokens⟩

/-- The decimal digits of a number denote it. -/
theorem digits_repr (n : Nat) : Literal.Digits n.repr n where
  nonempty := by
    rw [Nat.toList_repr]
    exact Nat.toDigits_ne_nil
  digits c hc := by
    rw [Nat.toList_repr] at hc
    exact Nat.isDigit_of_mem_toDigits (by decide) (by decide) hc
  value := by
    rw [Nat.toList_repr]
    exact Nat.ofDigitChars_toDigits (by decide) (by decide)

theorem parse_writtenAs {d semicolon : Token} {negative : Bool} {here : List Token} {span : Span}
    (h : Parser.WrittenAs d negative here span) (hd : d.kind = .integer)
    (hdigits : Literal.Digits d.text value) (hw : Literal.integer? negative d.text = some w)
    (hk : semicolon.kind = .mark .semicolon) :
    parse (here ++ [semicolon]) = .ok ⟨[.expression (.literal (.int w) span) span]⟩ :=
  parse_of_derives (.more (.expression (h.expression hd hdigits hw) hk) .none)

/-- The decimal spelling of a word is read as that word, also that of the least one. -/
theorem parse_toString (w : Int32) : ∃ tokens span, tokenize (toString w) = .ok tokens ∧
    ∀ semicolon : Token, semicolon.kind = .mark .semicolon →
      parse (tokens ++ [semicolon]) =
        .ok ⟨[.expression (.literal (.int w) span) span]⟩ := by
  have hleast := w.le_toInt
  have hgreatest := w.toInt_lt
  change ∃ tokens span, tokenize (toString w.toInt) = .ok tokens ∧ _
  cases hsign : w.toInt with
  | ofNat n =>
    have hvalue : (n : Int) = w.toInt := hsign.symm
    have hbound : n ≤ Literal.bound false := by
      change n ≤ 2147483647
      omega
    have hword : Literal.integer? false n.repr = some w := by
      rw [(digits_repr n).integer?_eq, if_pos hbound, if_neg Bool.false_ne_true, hvalue,
        Int32.ofInt_toInt]
    obtain ⟨span, htokens⟩ := tokenize_digits (digits_repr n)
    exact ⟨_, span, htokens, fun semicolon hk =>
      parse_writtenAs .alone rfl (digits_repr n) hword hk⟩
  | negSucc n =>
    have hvalue : -((n + 1 : Nat) : Int) = w.toInt := hsign.symm
    have hbound : n + 1 ≤ Literal.bound true := by
      change n + 1 ≤ 2147483648
      omega
    have hword : Literal.integer? true (n + 1).repr = some w := by
      rw [(digits_repr (n + 1)).integer?_eq, if_pos hbound, if_pos rfl, hvalue, Int32.ofInt_toInt]
    obtain ⟨span, span', htokens⟩ := tokenize_minus_digits (digits_repr (n + 1))
    exact ⟨_, span.merge span', htokens, fun semicolon hk =>
      parse_writtenAs (.behindMinus rfl) rfl (digits_repr (n + 1)) hword hk⟩

end

/-! ## Integer literals denote their value -/

/-- A row of digits, be it as long as it may, is one token. Where an operand is due it is read as
its value, alone up to the greatest word and behind a minus that belongs to it up to one more,
which gives the least word. Above the bound it is refused, and with it the expression and the
statement that came to it, wherever in them the operand is due: the statement becomes an error
node that says so. Behind an operand, a minus is always a subtraction. In a whole program, no
integer is left that is neither a literal within the range nor passed over for an error node. So
every word has a literal, its decimal spelling, and no literal that the lexer makes has a double
word on its way that cannot be turned round. -/
theorem integer_literals_denote_or_refused :
    (∀ (text : String) (value : Nat), Literal.Digits text value →
      (∃ span, tokenize text = .ok [⟨.integer, text, span⟩]) ∧
      ∀ d : Token, d.kind = .integer → d.text = text → Parser.HandlesDigits d value) ∧
    (∀ w : Int32, ∃ tokens span, tokenize (toString w) = .ok tokens ∧
      ∀ semicolon : Token, semicolon.kind = .mark .semicolon →
        parse (tokens ++ [semicolon]) =
          .ok ⟨[.expression (.literal (.int w) span) span]⟩) ∧
    ∀ (source : String) (tokens : List Token), tokenize source = .ok tokens →
      (∀ program, parse tokens = .ok program →
        ∃ passages, Parser.Course true tokens passages program.blocks [] ∧
          passages.map Parser.Passage.node = program.errors ∧
          (∀ d ∈ tokens, d.kind = .integer →
            Parser.InRange tokens d ∨ ∃ p ∈ passages, d ∈ p.tokens) ∧
          ∀ node ∈ program.errors, ∃ t ∈ tokens, Parser.MadeAt tokens node t) ∧
      ∀ t ∈ tokens, t.kind = .integer →
        (∀ negative, Literal.integer? negative t.text = (Literal.magnitude? t.text).bind fun m =>
          Literal.word? (if negative then -m else m).toInt) ∧
        ∀ m, Literal.magnitude? t.text = some m →
          m ≠ Int64.minValue ∧ (-m).toInt = -m.toInt := by
  refine ⟨fun text value h => ⟨tokenize_digits h, ?_⟩, parse_toString,
    fun source tokens htokens => ⟨fun program h => integers_of_tokenize htokens h,
      fun t ht hk =>
        ⟨fun negative => Literal.integer?_eq_of_magnitude? negative t.text, fun m hm => ?_⟩⟩⟩
  · rintro d hd rfl
    exact Parser.handlesDigits hd h
  · obtain ⟨value, hdigits⟩ :=
      Literal.exists_digits (wellSpelled_of_tokenize htokens t ht) hk
    exact hdigits.negated hm

/-- One more than the greatest word, with zeros in front. -/
theorem digits_leadingZeros : Literal.Digits "002147483648" 2147483648 where
  nonempty := nofun
  digits := List.all_eq_true.1 rfl
  value := rfl

def leadingZeros : Token := ⟨.integer, "002147483648", default⟩

/-- The tokens of `return f(a, b - 002147483648;` without their places. -/
def unfinishedReturn : List Token :=
  [(.keyword .returnKw, "return"), (.identifier, "f"), (.mark .leftParen, "("), (.identifier, "a"),
    (.mark .comma, ","), (.identifier, "b"), (.mark .minus, "-"), (.integer, "002147483648"),
    (.mark .semicolon, ";")].map fun (kind, text) => ⟨kind, text, default⟩

/-- The digits are the right operand of a sum that is the second argument of a call. -/
theorem statementAsks_unfinishedReturn : Grammar.StatementAsks unfinishedReturn
    [leadingZeros, ⟨.mark .semicolon, ";", default⟩] := by
  have hfirst {ts : List Token} : Grammar.Expression (⟨.identifier, "a", default⟩ :: ts)
      (.ident "a" default) ts :=
    .joined (.joined (.joined (.joined (.joined (.joined (.unary (.primary (.ident rfl))) .none)
      .none) .none) .none) .none) .none
  have hfactor {ts : List Token} : Grammar.Level [Grammar.factorLevel]
      (⟨.identifier, "b", default⟩ :: ts) (.ident "b" default) ts :=
    .joined (.unary (.primary (.ident rfl))) .none
  have hminus : (Mark.minus, BinaryOp.subtract) ∈ Grammar.termLevel := .tail _ (.head _)
  have hsecond : Grammar.LevelAsks Grammar.levels (unfinishedReturn.drop 5)
      (unfinishedReturn.drop 7) :=
    .first (.first (.first (.first (.joined hfactor
      (.right rfl hminus (.first (.unary .here)))))))
  have hcall : Grammar.UnaryAsks (unfinishedReturn.drop 1) (unfinishedReturn.drop 7) :=
    .argument rfl rfl (.more hfirst rfl (.first hsecond))
  exact .ret rfl (.first (.first (.first (.first (.first (.first (.unary hcall)))))))

/-- Alone the digits are refused, and the statement that asks for them with it; behind a minus
they are the least word. -/
theorem integer_literals_denote_or_refused_leadingZeros :
    Literal.Digits "002147483648" 2147483648 ∧
      Parser.ReadAsInteger [⟨.mark .minus, "-", default⟩, leadingZeros] (-2147483648)
        (Span.merge default default) ∧
      Grammar.StatementAsks unfinishedReturn
        [leadingZeros, ⟨.mark .semicolon, ";", default⟩] ∧
      Parser.statement 200 ⟨unfinishedReturn, ⟨.mark .semicolon, ";", default⟩, 0⟩ =
        .ok (.error "002147483648" Fault.integerOutOfRange.reason default)
          ⟨[], ⟨.mark .semicolon, ";", default⟩, 0⟩ := by
  have handled := (integer_literals_denote_or_refused.1 _ _ digits_leadingZeros).2
    leadingZeros rfl rfl
  have hrefused := handled.refused false [leadingZeros] default .alone (by decide)
  exact ⟨digits_leadingZeros, handled.read true _ _ (.behindMinus rfl) (by decide),
    statementAsks_unfinishedReturn,
    hrefused.statement _ _ _ 0 200 statementAsks_unfinishedReturn (by decide)⟩

end Slate
