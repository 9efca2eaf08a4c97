-- SUMMARY: The parser fails only where its input ends too early; whatever is wrong before the end becomes an error node.
import Slate.Proofs.Syntax.Walk.Statement

/-!
# Input that stops too early

Recovery asks one question only: is anything left? A walk that is stopped at the end lacks a token,
and one that is stopped before the end does not, so the recovery from the latter is never out of
place. What is left to be said is what becomes of the error node.
-/

namespace Slate.Parser

open State

variable {s s₁ : State} {budget : Nat}

/-- What is charged to a token is not that nothing was found. -/
theorem Charged.ne_expected_none {here ts : List Token} {t : Token} {fault : Fault} {span : Span}
    (h : Charged here t ts fault span) (what : Expectation) : fault ≠ .expected what none := by
  rintro rfl
  cases h with
  | string _ wrong => obtain ⟨c, hc⟩ | hc := Literal.isEscapeFault_of_string wrong <;> cases hc

/-- The statement that begins at `s` and is stopped at `s₁` is read as an error node. The node
is put into the statements of the program, or of the block around it, and reading goes on
behind it. -/
structure Recovers (budget : Nat) (s s₁ : State) (fault : Fault) (span : Span) : Prop where
  statement : statement (budget + 1) s = .ok (errorNode s₁ fault span) (s.recovered s₁)
  program : programStatements (budget + 2) s =
    ((errorNode s₁ fault span :: ·) <$> programStatements (budget + 1)) (s.recovered s₁)
  block : s.sees (.mark .rightBrace) = false → blockStatements (budget + 2) s =
    ((errorNode s₁ fault span :: ·) <$> blockStatements (budget + 1)) (s.recovered s₁)

section

variable {fault : Fault} {span : Span}

theorem recovers (hrest : s.rest ≠ [])
    (hstopped : strictStatement budget s = .error (.fault fault span) s₁)
    (hleft : s₁.rest ≠ []) : Recovers budget s s₁ fault span := by
  have hstatement : statement (budget + 1) s = .ok (errorNode s₁ fault span) (s.recovered s₁) :=
    recovering_fault hstopped (List.isEmpty_eq_false_iff.2 hleft)
  have hgoesOn : s.atEnd = false := List.isEmpty_eq_false_iff.2 hrest
  refine { statement := hstatement, program := ?_, block := fun hbrace => ?_ }
  · rw [programStatements, map_eq_pure_bind]
    change (if s.atEnd = true then _ else _ : ParseM (List Stmt)) s = _
    rw [if_neg (by rw [hgoesOn]; exact Bool.false_ne_true), bind_of_ok hstatement]
  · rw [blockStatements, map_eq_pure_bind]
    change (if (s.sees (.mark .rightBrace) || s.atEnd) = true then _ else _ :
      ParseM (List Stmt)) s = _
    rw [if_neg (by rw [hbrace, hgoesOn]; exact Bool.false_ne_true), bind_of_ok hstatement]

/-- A statement that begins somewhere in the stream is stopped either at the end, for want of
a token, or before it, for another reason; and then it becomes an error node. -/
theorem strictStatement_stopped (hends : s.Ends) (hrest : s.rest ≠ [])
    (hstopped : strictStatement budget s = .error (.fault fault span) s₁) :
    (s₁.rest = [] ∧ (∃ what, fault = .expected what none) ∧ span = s.last.span) ∨
      (s₁.rest ≠ [] ∧ (∀ what, fault ≠ .expected what none) ∧
        Recovers budget s s₁ fault span) := by
  cases Reader.halts .strictStatement hstopped with
  | missing nothingLeft lacks =>
    obtain ⟨what, hfault, hspan⟩ := lacks ⟨hends, hrest⟩
    exact .inl ⟨nothingLeft, ⟨what, hfault⟩, hspan⟩
  | charged left gone charged =>
    have hleft : s₁.rest ≠ [] := by rw [left]; exact List.cons_ne_nil _ _
    exact .inr ⟨hleft, charged.ne_expected_none, recovers hrest hstopped hleft⟩

end

end Slate.Parser

namespace Slate

/-- Only input that stops too early is refused. If a stream does not end in an opening
parenthesis, an error of the parser says that a token is missing at the end, where nothing is
left, and points at the last token. Wherever in the stream and however deep inside of blocks a
statement begins, it fails for good only in this way; stopped by anything else, a fault of a
literal or a function out of place no less than an unexpected token, it is stopped before the
end and becomes an error node. -/
theorem parse_error_at_end {tokens : List Token}
    (h : ∀ last, tokens.getLast? = some last → last.kind ≠ .mark .leftParen) :
    (∀ d, parse tokens = .error d → ∃ last what s, tokens.getLast? = some last ∧
      d = .spanned (.syntaxFault (.expected what none)) last.span ∧
      Parser.programStatements (Parser.budgetFor tokens.length) ⟨tokens, last, 0⟩ =
        .error (.fault (.expected what none) last.span) s ∧ s.rest = []) ∧
    ∀ last, tokens.getLast? = some last →
      ∀ s : Parser.State, s.last = last → s.rest <:+ tokens → s.rest ≠ [] →
        ∀ budget fault span s₁,
          Parser.strictStatement budget s = .error (.fault fault span) s₁ →
            (s₁.rest = [] ∧ (∃ what, fault = .expected what none) ∧ span = last.span) ∨
              (s₁.rest ≠ [] ∧ (∀ what, fault ≠ .expected what none) ∧
                Parser.Recovers budget s s₁ fault span) := by
  constructor
  · intro d hd
    obtain ⟨-, last, hlast, hkind⟩ | hmissing := parse_stopped hd
    · exact absurd hkind (h last hlast)
    · exact hmissing
  · rintro last hlast s rfl hsuffix hrest budget fault span s₁ hstopped
    exact Parser.strictStatement_stopped (Parser.State.ends_of_suffix hlast hsuffix) hrest hstopped

/-- A block that is never closed, and in it a definition with too large a number. -/
def openBlock : List Token :=
  [⟨.mark .leftBrace, "\x7b", default⟩, ⟨.keyword .letKw, "let", default⟩,
    ⟨.identifier, "big", default⟩, ⟨.mark .equal, "=", default⟩,
    ⟨.integer, "2147483648", default⟩, ⟨.mark .semicolon, ";", default⟩]

/-- The number is made an error node of, and only the end of the block is missed. -/
theorem parse_error_at_end_openBlock :
    (∀ last, openBlock.getLast? = some last → last.kind ≠ .mark .leftParen) ∧
      (∃ d last what s, parse openBlock = .error d ∧ openBlock.getLast? = some last ∧
        d = .spanned (.syntaxFault (.expected what none)) last.span ∧
        Parser.programStatements (Parser.budgetFor openBlock.length) ⟨openBlock, last, 0⟩ =
          .error (.fault (.expected what none) last.span) s ∧ s.rest = []) ∧
      ∃ s s₁ span, s.rest = openBlock.tail ∧
        Parser.strictStatement 20 s = .error (.fault .integerOutOfRange span) s₁ ∧
        Parser.Recovers 20 s s₁ .integerOutOfRange span := by
  have hlast : ∀ last, openBlock.getLast? = some last → last.kind ≠ .mark .leftParen := by
    rintro _ ⟨⟩
    nofun
  have hclaim := parse_error_at_end hlast
  refine ⟨hlast, ?_, ?_⟩
  · obtain ⟨d, hd⟩ : ∃ d, parse openBlock = .error d := ⟨_, rfl⟩
    obtain ⟨last, what, s, h⟩ := hclaim.1 d hd
    exact ⟨d, last, what, s, hd, h⟩
  · obtain ⟨s₁, span, hstopped⟩ : ∃ s₁ span, Parser.strictStatement 20
        ⟨openBlock.tail, ⟨.mark .semicolon, ";", default⟩, 1⟩ =
          .error (.fault .integerOutOfRange span) s₁ := ⟨_, _, rfl⟩
    obtain ⟨-, ⟨what, hwhat⟩, -⟩ | ⟨-, -, hrecovers⟩ := hclaim.2 _ rfl _ rfl
      (List.tail_suffix openBlock) (List.cons_ne_nil _ _) 20 _ span s₁ hstopped
    · cases hwhat
    · exact ⟨_, s₁, span, rfl, hstopped, hrecovers⟩

end Slate
