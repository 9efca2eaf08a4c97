-- SUMMARY: On what the lexer yields, parsing with a cursor springs no trap and has the outcome of the parser.
import Slate.Proofs.Syntax.Cursor.Expression
import Slate.Proofs.Syntax.Endless

/-!
# Programs behind a cursor

Statements are followed as expressions are. Recovery looks at the token where reading stopped
and moves on to the place where the parser goes on; a block is left only after it was entered,
since reading the statements inside leaves the count of blocks as it was. So a run over lexed
tokens goes through to the outcome of the parser, and none of the operations on the way lacks
a value.
-/

namespace Slate

open Slate.Parser (State ParseM Reader accept? resume precedence)

namespace Cursor

variable {α : Type} {stream : TokenStream} {c c₁ : Cursor} {budget : Nat}

/-! ## Simple statements -/

theorem follows_semicolon : Follows stream semicolon Parser.semicolon :=
  (follows_expect _).bind fun _ => .pure ()

theorem follows_needs : Follows stream needs Parser.needs :=
  (follows_expect _).bind fun _ => follows_expectIdentifier.bind fun _ =>
    follows_semicolon.bind fun _ => .pure _

section

variable (h : Follows stream (expression budget) (Parser.expression budget))
include h

theorem follows_initializer : Follows stream (initializer budget) (Parser.initializer budget) :=
  (follows_expect _).bind fun _ => h.bind fun value => follows_semicolon.bind fun _ => .pure value

theorem follows_declaration : Follows stream (declaration budget) (Parser.declaration budget) := by
  refine (follows_expect _).bind fun _ => follows_expectIdentifier.bind fun name =>
    .matchToken_bind (fun _ => ?_) ?_
  · exact follows_expectType.bind fun ty => .matchToken_bind (fun _ => .pure _)
      ((follows_initializer h).bind fun _ => .pure _)
  · exact (follows_initializer h).bind fun _ => .pure _

theorem follows_ret : Follows stream (ret budget) (Parser.ret budget) :=
  (follows_expect _).bind fun _ => .ite_check_bind (.pure none) h.map fun _ =>
    follows_semicolon.bind fun _ => .pure _

theorem follows_assignmentOrExpression :
    Follows stream (assignmentOrExpression budget) (Parser.assignmentOrExpression budget) := by
  intro c hc
  refine .look (check_eq hc) (.look (checkAhead_eq stream) (.get_bind ?_))
  split
  · exact follows_expectIdentifier.bind
      (fun _ => (follows_initializer h).bind fun _ => .pure _) hc
  · exact h.bind (fun _ => follows_semicolon.bind fun _ => .pure _) hc

end

/-! ## Recovery -/

/-- With so many turns, skipping ends at the token with number `i`, where the parser goes on. -/
structure SkipsTo (c : Cursor) (turns : Nat) (behind : Bool) (i : Nat) : Prop where
  run : skip turns c = .ok behind { c with current := i }
  forward : c.current ≤ i
  inside : i ≤ c.tokens.length
  resumes : c.tokens.drop i = resume (c.tokens.drop c.current)
  moved : behind = true → c.current < i

theorem SkipsTo.here {turns : Nat} (hc : c.In stream) (hrun : skip turns c = .ok false c)
    (hresume : c.tokens.drop c.current = resume (c.tokens.drop c.current)) :
    c.SkipsTo turns false c.current where
  run := hrun
  forward := le_rfl
  inside := hc.tokens ▸ hc.inside
  resumes := hresume
  moved := nofun

/-- One turn of skipping, with a token in view. -/
theorem skip_turn (turns : Nat) (hc : c.In stream) (hend : c.atEnd = false) :
    skip (turns + 1) c =
      if (c.shown stream).sees (.mark .semicolon) = true then .ok true c.next
      else if (c.shown stream).sees (.mark .rightBrace) = true then .ok false c
      else skip turns c.next := by
  rw [skip, get_bind_apply, hend, if_neg Bool.false_ne_true]
  cases hsemicolon : (c.shown stream).sees (.mark .semicolon) with
  | true =>
    rw [bind_of_ok (matchToken_of_sees hc hsemicolon)]
    rfl
  | false =>
    rw [bind_of_ok (matchToken_of_not_sees hc hsemicolon), if_neg Bool.false_ne_true,
      bind_of_ok (check_eq hc), if_neg Bool.false_ne_true]
    split
    · rfl
    · rw [bind_of_ok (advance_eq hend)]

/-- As many turns as tokens are left are enough. -/
theorem exists_skipsTo (turns : Nat) (hc : c.In stream)
    (h : c.tokens.length ≤ c.current + turns) : ∃ behind i, c.SkipsTo turns behind i := by
  induction turns generalizing c with
  | zero =>
    have hnil : c.tokens.drop c.current = [] := List.drop_eq_nil_iff.2 h
    exact ⟨false, c.current, .here hc rfl (by rw [hnil]; rfl)⟩
  | succ turns ih =>
    cases hend : c.atEnd with
    | true =>
      have hnil : c.tokens.drop c.current = [] := List.drop_eq_nil_iff.2 (atEnd_iff.1 hend)
      refine ⟨false, c.current, .here hc ?_ (by rw [hnil]; rfl)⟩
      rw [skip, get_bind_apply, hend]
      rfl
    | false =>
      obtain ⟨t, -, hrest⟩ := rest_of_not_atEnd stream hend
      have hdrop : c.tokens.drop c.current = t :: c.tokens.drop (c.current + 1) := hrest
      have hturn := skip_turn turns hc hend
      simp only [State.sees, hrest, beq_iff_eq] at hturn
      by_cases hsemicolon : t.kind = .mark .semicolon
      · rw [if_pos hsemicolon] at hturn
        refine ⟨true, c.current + 1, hturn, Nat.le_succ _, not_atEnd_iff.1 hend, ?_,
          fun _ => Nat.lt_succ_self _⟩
        rw [hdrop, resume, if_pos hsemicolon]
      · rw [if_neg hsemicolon] at hturn
        by_cases hbrace : t.kind = .mark .rightBrace
        · rw [if_pos hbrace] at hturn
          exact ⟨false, c.current, .here hc hturn (by rw [hdrop, Parser.resume_of_brace _ hbrace])⟩
        · rw [if_neg hbrace] at hturn
          have hleft : c.next.tokens.length ≤ c.next.current + turns := by
            change c.tokens.length ≤ c.current + 1 + turns
            omega
          obtain ⟨behind, i, hskips⟩ := ih (hc.next hend) hleft
          have hlt : c.current < i := hskips.forward
          refine ⟨behind, i, hturn.trans hskips.run, hlt.le, hskips.inside, ?_, fun _ => hlt⟩
          rw [hdrop, resume, if_neg hsemicolon, if_neg hbrace]
          exact hskips.resumes

/-- From where reading stopped, the cursor moves on to where the parser goes on. -/
theorem exists_synchronize (hc : c.In stream) (hin : c₁.In stream) (hle : c.current ≤ c₁.current)
    (hdepth : c₁.depth = c.depth) :
    ∃ c₂, synchronize c.current c₁ = .ok () c₂ ∧ c₂.In stream ∧ c.current ≤ c₂.current ∧
      c₂.depth = c.depth ∧ c₂.shown stream = (c.shown stream).recovered (c₁.shown stream) := by
  obtain ⟨behind, i, hskips⟩ :=
    exists_skipsTo (c₁.tokens.length - c₁.current) hin (by omega)
  have hforward := hskips.forward
  have hinside := hskips.inside
  have hplace : In stream { c₁ with current := i } :=
    ⟨hin.tokens, by rw [← hin.tokens]; exact hinside⟩
  have hrest : resume (c₁.shown stream).rest = c₁.tokens.drop i := hskips.resumes.symm
  have hlengths : (c₁.tokens.drop i).length = (c.shown stream).rest.length ↔ i = c.current := by
    have hbefore := hc.inside
    rw [hin.tokens] at hinside
    rw [shown, List.length_drop, List.length_drop, hin.tokens, hc.tokens]
    omega
  rw [synchronize, get_bind_apply, bind_of_ok hskips.run]
  by_cases hstart : i = c.current
  · -- no token was passed over, so one is passed over now
    obtain rfl : behind = false :=
      Bool.eq_false_of_not_eq_true fun h => absurd (hskips.moved h) (by omega)
    obtain ⟨c₂, hadvance, hin₂, hle₂, hdepth₂, hshown⟩ := exists_advance hplace
    refine ⟨c₂, ?_, hin₂, by rw [← hstart]; exact hle₂, hdepth₂.trans hdepth, ?_⟩
    · rw [if_neg Bool.false_ne_true, get_bind_apply, if_pos hstart]
      exact hadvance
    · rw [hshown, ← tail_shown, State.recovered, hrest, if_pos (hlengths.2 hstart)]
      simp only [shown, hdepth]
  · refine ⟨_, ?_, hplace, hle.trans hforward, hdepth, ?_⟩
    · cases behind with
      | true => rfl
      | false => rw [if_neg Bool.false_ne_true, get_bind_apply, if_neg hstart]; rfl
    · rw [State.recovered, hrest, if_neg (mt hlengths.1 hstart)]
      simp only [shown, hdepth]

theorem Follows.recovering {m : CursorM Stmt} {m' : ParseM Stmt} (h : Follows stream m m') :
    Follows stream (recovering m) (Parser.recovering m') := by
  intro c hc
  have hrun := h hc
  unfold FollowsAt wp Cursor.recovering at *
  cases hm : m c with
  | ok stmt c₁ =>
    rw [hm] at hrun
    obtain ⟨hin, hdepth, hm'⟩ := hrun
    exact ⟨hin, hdepth, Parser.recovering_ok hm'⟩
  | error stop c₁ =>
    rw [hm] at hrun
    obtain ⟨⟨hin, hle⟩, ⟨failure, rfl, hm'⟩ | ⟨trap, rfl, hblames⟩⟩ := hrun
    · cases failure with
      | exhausted =>
        exact ⟨⟨hin, hle⟩, .inl ⟨.exhausted, rfl, Parser.recovering_exhausted hm'⟩⟩
      | fault fault span =>
        dsimp only
        cases hend : c₁.atEnd with
        | true =>
          exact ⟨⟨hin, hle⟩, .inl ⟨.fault fault span, rfl,
            Parser.recovering_atEnd hm' (atEnd_shown.trans hend)⟩⟩
        | false =>
          have hin₁ : In stream { c₁ with depth := c.depth } := ⟨hin.tokens, hin.inside⟩
          obtain ⟨c₂, hsynchronize, hin₂, hle₂, hdepth₂, hshown⟩ :=
            exists_synchronize hc hin₁ hle rfl
          rw [if_neg Bool.false_ne_true, bind_of_ok (peek_eq hin₁), bind_of_ok hsynchronize]
          refine ⟨⟨hin₂, hle₂⟩, hdepth₂, ?_⟩
          rw [Parser.recovering_fault hm' (atEnd_shown.trans hend), hshown]
          rfl
    · -- recovery does not hold a trap back
      exact ⟨⟨hin, hle⟩, .inr ⟨trap, rfl, hblames⟩⟩

/-! ## Blocks -/

/-- Reading inside a block leaves as many blocks open as were entered, so that one can be left. -/
theorem Follows.nested {m : CursorM α} {m' : ParseM α} (h : Follows stream m m') :
    Follows stream (nested m) (Parser.nested m') := by
  intro c hc
  have hin : In stream { c with depth := c.depth + 1 } := ⟨hc.tokens, hc.inside⟩
  have hrun := h hin
  unfold FollowsAt wp at *
  have henter : Cursor.nested m c = (m >>= fun a => leaveBlock >>= fun _ => Pure.pure a)
      { c with depth := c.depth + 1 } := rfl
  have henter' : Parser.nested m' (c.shown stream) =
      (m' >>= fun a =>
        modify (fun s : State => { s with depth := s.depth - 1 }) >>= fun _ => Pure.pure a)
        (({ c with depth := c.depth + 1 } : Cursor).shown stream) := rfl
  cases hm : m { c with depth := c.depth + 1 } with
  | ok a c₁ =>
    rw [hm] at hrun
    obtain ⟨⟨hin₁, hle⟩, hdepth, hm'⟩ := hrun
    have hleave : leaveBlock c₁ = .ok () { c₁ with depth := c.depth } := by
      rw [leaveBlock, get_bind_apply, hdepth]
      rfl
    rw [henter, bind_of_ok hm, bind_of_ok hleave]
    refine ⟨⟨⟨hin₁.tokens, hin₁.inside⟩, hle⟩, rfl, ?_⟩
    rw [henter', bind_of_ok hm']
    change EStateM.Result.ok a (State.mk _ _ (c₁.depth - 1)) = _
    rw [hdepth]
    rfl
  | error stop c₁ =>
    rw [hm] at hrun
    obtain ⟨hin₁, hstop⟩ := hrun
    rw [henter, bind_of_error hm]
    exact ⟨hin₁, hstop.imp_left fun ⟨failure, hfailure, hm'⟩ =>
      ⟨failure, hfailure, henter'.trans (bind_of_error hm')⟩⟩

/-! ## One step of the descent -/

section

variable (ih : ∀ {γ : Type} (r : Reader γ), Follows stream (scan r budget) (r.run budget))
include ih

theorem follows_params : Follows stream (params (budget + 1)) (Parser.params (budget + 1)) :=
  follows_expectIdentifier.bind fun _ => (follows_expect _).bind fun _ =>
    follows_expectType.bind fun _ =>
      .matchToken_bind (fun _ => (ih .params).bind fun _ => .pure _) (.pure _)

theorem follows_elseBranches :
    Follows stream (elseBranches (budget + 1)) (Parser.elseBranches (budget + 1)) := by
  intro c hc
  refine .matchToken_bind hc (fun hend => ?_) (Follows.pure _ hc)
  have hnext := hc.next hend
  rw [if_pos rfl]
  refine .look (check_eq hnext) ?_
  cases h : (c.next.shown stream).sees (.keyword .ifKw) with
  | true =>
    -- the `else` was passed over before, so its span is that of the previous token
    refine .look (previousSpan_next stream hend) ?_
    exact .of_run (bind_of_ok (expect_of_sees hnext h)) (bind_of_ok (accept?_of_sees h))
      (Nat.le_succ _) rfl
      ((ih .guarded).bind (fun _ => (ih .elseBranches).bind fun _ => .pure _)
        (hnext.next (not_atEnd_of_sees h)))
  | false =>
    exact .of_run rfl (bind_of_ok (accept?_of_not_sees h)) le_rfl rfl
      ((ih .block).bind (fun _ => .pure _) hnext)

theorem follows_ifChain : Follows stream (ifChain (budget + 1)) (Parser.ifChain (budget + 1)) :=
  (follows_expect _).bind fun _ => (ih .guarded).bind fun _ => (ih .elseBranches).bind fun _ =>
    .pure _

theorem follows_guarded : Follows stream (guarded (budget + 1)) (Parser.guarded (budget + 1)) :=
  (follows_expect _).bind fun _ => (ih .expression).bind fun _ => (follows_expect _).bind fun _ =>
    (ih .block).bind fun _ => .pure _

theorem follows_block : Follows stream (block (budget + 1)) (Parser.block (budget + 1)) := by
  rw [Parser.block_eq]
  have hinside : Follows stream (blockStatements budget) (Parser.blockStatements budget) :=
    ih .blockStatements
  exact (follows_expect _).bind fun _ => hinside.nested.bind fun _ => (follows_expect _).bind
    fun _ => .pure _

theorem follows_blockStatements :
    Follows stream (blockStatements (budget + 1)) (Parser.blockStatements (budget + 1)) := by
  intro c hc
  refine .look (check_eq hc) (.look_get (.get_bind ?_))
  rw [atEnd_shown]
  split
  · exact Follows.pure [] hc
  · exact (ih .statement).bind (fun _ => (ih .blockStatements).bind fun _ => .pure _) hc

theorem follows_programStatements :
    Follows stream (programStatements (budget + 1)) (Parser.programStatements (budget + 1)) := by
  intro c hc
  refine .look_get (.get_bind ?_)
  rw [atEnd_shown]
  split
  · exact Follows.pure [] hc
  · exact (ih .statement).bind (fun _ => (ih .programStatements).bind fun _ => .pure _) hc

theorem follows_function :
    Follows stream (function (budget + 1)) (Parser.function (budget + 1)) := by
  refine (follows_expect _).bind fun _ => follows_expectIdentifier.bind fun name =>
    (follows_expect _).bind fun _ => .ite_check_bind (.pure []) (ih .params) fun list =>
      (follows_expect _).bind fun _ => .matchToken_bind (fun _ => ?_) ?_
  · exact follows_expectType.map.bind fun _ => (ih .block).bind fun _ => .pure _
  · exact (Follows.pure none).bind fun _ => (ih .block).bind fun _ => .pure _

theorem follows_strictStatement :
    Follows stream (strictStatement (budget + 1)) (Parser.strictStatement (budget + 1)) := by
  intro c hc
  refine .look (peek_eq hc) (.get_bind ?_)
  cases (c.shown stream).view.kind with
  | keyword k =>
    cases k with
    | letKw => exact ih .declaration hc
    | needsKw => exact follows_needs hc
    | fnKw =>
      refine .look_get ?_
      rw [show (c.shown stream).depth = c.depth from rfl]
      split
      · exact .look (currentSpan_eq hc) (Follows.failAt _ _ hc)
      · exact ih .function hc
    | ifKw => exact ih .ifChain hc
    | whileKw =>
      exact (follows_expect _).bind (fun _ => (ih .guarded).bind fun _ => .pure _) hc
    | returnKw => exact ih .ret hc
    | breakKw | continueKw =>
      exact (follows_expect _).bind (fun _ => follows_semicolon.bind fun _ => .pure _) hc
    | _ => exact ih .assignmentOrExpression hc
  | mark m =>
    cases m with
    | leftBrace => exact (ih .block).bind (fun _ => .pure _) hc
    | _ => exact ih .assignmentOrExpression hc
  | _ => exact ih .assignmentOrExpression hc

end

/-! ## The whole descent -/

/-- The readers of the cursor follow those of the parser. -/
theorem follows_scan (stream : TokenStream) (budget : Nat) :
    ∀ {γ : Type} (r : Reader γ), Follows stream (scan r budget) (r.run budget) := by
  induction budget with
  | zero =>
    have h : Follows stream (expression 0) (Parser.expression 0) := .exhausted
    intro γ r
    cases r with
    | initializer => exact follows_initializer h
    | declaration => exact follows_declaration h
    | ret => exact follows_ret h
    | assignmentOrExpression => exact follows_assignmentOrExpression h
    | _ => exact .exhausted
  | succ budget ih =>
    have h : Follows stream (expression (budget + 1)) (Parser.expression (budget + 1)) :=
      ih (.binary precedence List.suffix_rfl)
    intro γ r
    cases r with
    | expression => exact h
    | binary tables levels => exact follows_binary ih levels
    | operators table tighter left levels => exact follows_operators ih left levels
    | unary => exact follows_unary ih
    | primary => exact follows_primary ih
    | call callee start => exact follows_call ih callee start
    | arguments => exact follows_arguments ih
    | initializer => exact follows_initializer h
    | declaration => exact follows_declaration h
    | ret => exact follows_ret h
    | assignmentOrExpression => exact follows_assignmentOrExpression h
    | params => exact follows_params ih
    | statement => exact (ih .strictStatement).recovering
    | strictStatement => exact follows_strictStatement ih
    | function => exact follows_function ih
    | ifChain => exact follows_ifChain ih
    | elseBranches => exact follows_elseBranches ih
    | guarded => exact follows_guarded ih
    | block => exact follows_block ih
    | blockStatements => exact follows_blockStatements ih
    | programStatements => exact follows_programStatements ih

/-- A cursor has the outcome of the parser, or a literal springs a trap. -/
theorem parse_follows (tokens : List Token) :
    (∃ program, parse tokens = .ok program ∧ Slate.parse tokens = .ok program) ∨
      (∃ failure, parse tokens = .error (.failure failure) ∧
        Slate.parse tokens = .error failure.diagnostic) ∨
      ∃ trap, parse tokens = .error (.trap trap) ∧ trap.Blames tokens := by
  cases hlast : tokens.getLast? with
  | none =>
    obtain rfl := List.getLast?_eq_none_iff.1 hlast
    exact .inl ⟨⟨[]⟩, rfl, rfl⟩
  | some last =>
    let stream : TokenStream := ⟨tokens, last, hlast⟩
    have hstart : In stream ⟨tokens, 0, 0⟩ := ⟨rfl, Nat.zero_le _⟩
    have hrun : FollowsAt stream ⟨tokens, 0, 0⟩
        (programStatements (Parser.budgetFor tokens.length))
        (Parser.programStatements (Parser.budgetFor tokens.length)) :=
      follows_scan stream (Parser.budgetFor tokens.length) .programStatements hstart
    unfold FollowsAt wp at hrun
    unfold Cursor.parse Slate.parse
    simp only [hlast]
    cases hm : programStatements (Parser.budgetFor tokens.length) ⟨tokens, 0, 0⟩ with
    | ok list c₁ =>
      rw [hm] at hrun
      obtain ⟨-, -, hm'⟩ := hrun
      have hm' : Parser.programStatements (Parser.budgetFor tokens.length) ⟨tokens, last, 0⟩ =
        .ok list (c₁.shown stream) := hm'
      rw [hm']
      exact .inl ⟨⟨list⟩, rfl, rfl⟩
    | error stop c₁ =>
      rw [hm] at hrun
      obtain ⟨-, ⟨failure, rfl, hm'⟩ | ⟨trap, rfl, hblames⟩⟩ := hrun
      · have hm' : Parser.programStatements (Parser.budgetFor tokens.length) ⟨tokens, last, 0⟩ =
          .error failure (c₁.shown stream) := hm'
        rw [hm']
        exact .inr (.inl ⟨failure, rfl, rfl⟩)
      · exact .inr (.inr ⟨trap, rfl, hblames⟩)

/-- Traps are real: a string literal without its quotes has no content, and neither has one whose
first character takes two bytes; the least double word cannot be turned round. -/
example :
    parse [⟨.string, "", default⟩] = .error (.trap .slice) ∧
    parse [⟨.string, "é\"", default⟩] = .error (.trap .slice) ∧
    parse [⟨.mark .minus, "-", default⟩, ⟨.integer, "-9223372036854775808", default⟩] =
      .error (.trap .negation) := ⟨rfl, rfl, rfl⟩

end Cursor

/-- Over whatever the lexer yields, a cursor has the outcome of the parser, and it comes to an end
if the last token is not an opening parenthesis. So no operation on the way lacks its value: none
asks for the last token of an empty stream or for one outside of it, cuts a string where no
character ends, turns the least double word round, or leaves a block that was not entered. -/
theorem cursor_parse_of_tokenize {source : String} {tokens : List Token}
    (htokens : tokenize source = .ok tokens)
    (hlast : ∀ t, tokens.getLast? = some t → t.kind ≠ .mark .leftParen) :
    (∃ program, Cursor.parse tokens = .ok program ∧ parse tokens = .ok program) ∨
      ∃ fault span, Cursor.parse tokens = .error (.failure (.fault fault span)) ∧
        parse tokens = .error (.spanned (.syntaxFault fault) span) := by
  refine (Cursor.parse_follows tokens).imp_right ?_
  rintro (⟨failure, hcursor, hparse⟩ | ⟨trap, -, hblames⟩)
  · cases failure with
    | fault fault span => exact ⟨fault, span, hcursor, hparse⟩
    | exhausted =>
      obtain ⟨last, hends, hparen, -⟩ := parse_eq_endlessNesting_iff.1 hparse
      exact absurd hparen (hlast last hends)
  · obtain ⟨t, ht, hnot⟩ := hblames.not_wellSpelled
    exact absurd (wellSpelled_of_tokenize htokens t ht) hnot

/-- Blocks inside of each other, the least word, a character of two bytes between quotes, an `else`
that was passed over before its `if`, and two statements that cannot be read. -/
def steppedSource : String :=
  "fn f() \x7b if (a < -2147483648) \x7b put(\"é\\n\"); b = ; \x7d else if (!c) \x7b d \x7d \x7d"

theorem cursor_parse_of_tokenize_steppedSource :
    ∃ tokens, tokenize steppedSource = .ok tokens ∧
      (∀ t, tokens.getLast? = some t → t.kind ≠ .mark .leftParen) ∧
      ((∃ program, Cursor.parse tokens = .ok program ∧ parse tokens = .ok program) ∨
        ∃ fault span, Cursor.parse tokens = .error (.failure (.fault fault span)) ∧
          parse tokens = .error (.spanned (.syntaxFault fault) span)) := by
  have hrun : (tokenize steppedSource).toOption.map (fun tokens =>
      tokens.getLast?.map Token.kind) = some (some (.mark .rightBrace)) := by
    decide +kernel
  cases htokens : tokenize steppedSource with
  | error d => rw [htokens] at hrun; cases hrun
  | ok tokens =>
    rw [htokens] at hrun
    have hkind : tokens.getLast?.map Token.kind = some (.mark .rightBrace) := Option.some.inj hrun
    have hlast : ∀ t, tokens.getLast? = some t → t.kind ≠ .mark .leftParen := by
      intro t ht hparen
      rw [ht, Option.map_some, hparen] at hkind
      cases hkind
    exact ⟨tokens, rfl, hlast, cursor_parse_of_tokenize htokens hlast⟩

end Slate
