-- SUMMARY: Parsing goes statement by statement: what is read before a seam does not depend on what follows it, errors included.
import Slate.Proofs.Syntax.Walk.Statement

/-!
# Programs one behind the other

If a stream of tokens parses and its last token ends a statement, then the program of
any longer stream begins with the statements of the short one and goes on with the
program of the other tokens, read by themselves. Error nodes are statements like all
others here, so that an error is confined to the statement in which it occurs.
-/

namespace Slate

namespace Parser

open State

variable {more ts : List Token} {last : Token} {s s₁ : State} {budget budget' : Nat}
  {list : List Stmt}

theorem agrees_programStatements (h : budget ≤ budget') :
    Agrees more last (programStatements budget) (programStatements budget') := by
  induction budget generalizing budget' with
  | zero => exact .exhausted
  | succ budget ih =>
    obtain ⟨budget', rfl, hle⟩ := exists_of_succ_le h
    intro s hs
    refine .get_bind (fun hc => by simp only [atEnd_extend hs hc]) ?_
    split
    · exact Agrees.pure [] hs
    · exact (statementsAgree hle).statement.bind (fun _ => (ih hle).bind fun _ => .pure _) hs

theorem programStatements_of_not_atEnd (h : s.atEnd = false) :
    programStatements (budget + 1) s =
      (statement budget >>= fun first => programStatements budget >>= fun others =>
        pure (first :: others)) s := by
  rw [programStatements]
  change (if s.atEnd = true then _ else _ : ParseM (List Stmt)) s = _
  rw [h, if_neg Bool.false_ne_true]

/-- A larger budget makes no difference, unless the smaller one is spent. -/
theorem programStatements_of_completed (h : ∀ s₁, programStatements budget s ≠ .error .exhausted s₁)
    (hle : budget ≤ budget') : programStatements budget' s = programStatements budget s :=
  (agrees_programStatements hle (.self s)).eq_of_completed h

/-- A larger budget than enough makes no difference. -/
theorem programStatements_of_le (h : Enough 13 budget s) (hle : budget ≤ budget') :
    programStatements budget' s = programStatements budget s :=
  programStatements_of_completed (fun _ => programStatements_not_exhausted h) hle

/-- Behind the statements before the seam, reading goes on as at the start of what
follows. No more budget has been spent than tokens were passed over. -/
theorem programStatements_extend (hs : Seam more last s)
    (h : programStatements budget s = .ok list s₁) (hbudget : budget ≤ budget') :
    ∃ left, budget' ≤ left + s.rest.length ∧
      programStatements budget' (s.extend more last) =
        ((list ++ ·) <$> programStatements left) ⟨more, last, s.depth⟩ := by
  induction budget generalizing s s₁ list budget' with
  | zero => cases h
  | succ budget ih =>
    obtain ⟨budget', rfl, hle⟩ := exists_of_succ_le hbudget
    rw [programStatements, get_bind_ok] at h
    split at h
    · next hend =>
      obtain ⟨rfl, -⟩ := pure_ok.1 h
      obtain ⟨ts, last', depth⟩ := s
      obtain rfl : ts = [] := List.isEmpty_iff.1 hend
      exact ⟨budget' + 1, Nat.le_refl _, by simp [extend]⟩
    · obtain ⟨first, s₂, hfirst, h⟩ := bind_ok.1 h
      obtain ⟨others, s₃, hothers, h⟩ := bind_ok.1 h
      obtain ⟨rfl, -⟩ := pure_ok.1 h
      have hagree : AgreesAt more last s (statement budget) (statement budget') :=
        (statementsAgree hle).statement hs
      obtain ⟨hlt, hfirst'⟩ := firm_statement hle hs hfirst
      obtain ⟨left, hleft, hothers'⟩ := ih (hs.reaches (hagree.reaches hfirst)) hothers hle
      have hmore : (s.extend more last).atEnd = false := by
        rw [atEnd_extend hs (clear_of_length_lt hlt), ← Bool.not_eq_true]
        assumption
      refine ⟨left, by omega, ?_⟩
      calc programStatements (budget' + 1) (s.extend more last)
        _ = (statement budget' >>= fun first => programStatements budget' >>= fun others =>
              pure (first :: others)) (s.extend more last) := programStatements_of_not_atEnd hmore
        _ = (programStatements budget' >>= fun others => pure (first :: others))
              (s₂.extend more last) := bind_of_ok hfirst'
        _ = (((others ++ ·) <$> programStatements left) >>= fun others => pure (first :: others))
              ⟨more, last, s₂.depth⟩ := bind_congr_run hothers'
        _ = ((first :: others ++ ·) <$> programStatements left) ⟨more, last, s.depth⟩ := by
              rw [hagree.depth_eq hfirst]
              simp only [map_eq_pure_bind, bind_assoc, pure_bind, List.cons_append]

end Parser

variable {A B : List Token} {p : Program}

/-- The last token of the stream ends a statement, with `more` behind it. -/
def EndsStatement (ts more : List Token) : Prop :=
  ∃ t, ts.getLast? = some t ∧
    (t.kind = .mark .semicolon ∨
      t.kind = .mark .rightBrace ∧ Grammar.NotNext (.keyword .elseKw) more)

/-- A stream that parses up to the end of a statement, and another one behind it, are
read as the statements of the one and then those of the other. If the other one is
refused, then both together are refused with the same error. -/
theorem parse_append (hA : parse A = .ok p) (hends : EndsStatement A B)
    (hB : ∀ t, B.getLast? = some t → t.kind ≠ .mark .leftParen) :
    parse (A ++ B) = (parse B).map fun q => ⟨p.statements ++ q.statements⟩ := by
  obtain ⟨stop, hstop, hkind⟩ := hends
  cases hlast : B.getLast? with
  | none =>
    obtain rfl : B = [] := List.getLast?_eq_none_iff.1 hlast
    rw [List.append_nil, hA]
    simp [parse, Except.map]
  | some last =>
    have hseam : Parser.Seam B last ⟨A, stop, 0⟩ := by
      refine ⟨?_, ?_⟩
      · rintro rfl
        cases hlast
      · intro _ t ht
        rw [hstop] at ht
        cases ht
        exact hkind
    have henough : Parser.Enough 13 (Parser.budgetFor B.length) ⟨B, last, 0⟩ :=
      ⟨hB last hlast, by change 16 * B.length + 13 ≤ 16 * (B.length + 2); omega⟩
    have hlast' : (A ++ B).getLast? = some last := by
      rw [List.getLast?_append, hlast, Option.some_or]
    simp only [parse, hstop] at hA
    split at hA
    · next list s₁ hread =>
      cases hA
      have hbudget : Parser.budgetFor A.length ≤ Parser.budgetFor (A ++ B).length := by
        rw [List.length_append]
        unfold Parser.budgetFor
        omega
      obtain ⟨left, hleft, hread'⟩ := Parser.programStatements_extend hseam hread hbudget
      have hle : Parser.budgetFor B.length ≤ left := by
        rw [List.length_append] at hleft
        unfold Parser.budgetFor at hleft ⊢
        dsimp only at hleft
        omega
      have hsame := Parser.programStatements_of_le henough hle
      simp only [Parser.State.extend] at hread'
      simp only [parse, hlast, hlast', hread', Functor.map, EStateM.map, hsame]
      cases Parser.programStatements (Parser.budgetFor B.length) ⟨B, last, 0⟩ <;> rfl
    · cases hA

/-- The tokens of `x y;`, without their places. -/
def twoNames : List Token :=
  [(.identifier, "x"), (.identifier, "y"), (.mark .semicolon, ";")].map fun (kind, text) =>
    ⟨kind, text, default⟩

/-- The tokens of `z;`, without their places. -/
def oneName : List Token :=
  [(.identifier, "z"), (.mark .semicolon, ";")].map fun (kind, text) => ⟨kind, text, default⟩

/-- The error in `x y;` leaves the `z;` behind it alone. -/
theorem parse_append_twoNames :
    parse twoNames = .ok ⟨[.error "y"
      (Fault.expected (.kind (.mark .semicolon)) (some "y")).reason default]⟩ ∧
    EndsStatement twoNames oneName ∧
    (∀ t, oneName.getLast? = some t → t.kind ≠ .mark .leftParen) ∧
    parse (twoNames ++ oneName) = .ok ⟨[.error "y"
      (Fault.expected (.kind (.mark .semicolon)) (some "y")).reason default,
      .expression (.ident "z" default) default]⟩ := by
  have hends : EndsStatement twoNames oneName := ⟨_, rfl, .inl rfl⟩
  have hlast : ∀ t, oneName.getLast? = some t → t.kind ≠ .mark .leftParen := by
    rintro t ⟨⟩
    exact nofun
  refine ⟨?read, hends, hlast, ?joined⟩
  case read => rfl
  case joined => exact (parse_append rfl hends hlast).trans rfl

end Slate
