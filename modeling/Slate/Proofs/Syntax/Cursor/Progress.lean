-- SUMMARY: A cursor comes to an end on every stream that does not end in an opening parenthesis, and passes over a token in every round of its loops.
import Slate.Proofs.Syntax.Cursor.Budget
import Slate.Proofs.Syntax.Cursor.Statement
import Slate.Proofs.Syntax.Walk.Statement

/-!
# Progress of a cursor

A cursor that goes the way of the parser moves on where the parser does. So a statement moves it
on by a token or more, also when it is recovered from, and every round of a loop does; and the
budget that the tokens left pay for is enough for every reader at every place, unless the stream
ends in an opening parenthesis. What can still happen is a trap, and only a literal that the
lexer does not make springs one.
-/

namespace Slate

open Slate.Parser (State ParseM Reader precedence)

namespace Parser

/-- A parameter with its type. -/
def parameter : ParseM Param := do
  let name ← expectIdentifier
  let _ ← expect (.mark .colon)
  let ty ← expectType
  return ⟨name.1, ty, name.2⟩

/-- A parameter begins with a name that is left. -/
theorem passes_of_parameter {s s₁ : State} {param : Param} (h : parameter s = .ok param s₁) :
    s.Passes s₁ := by
  obtain ⟨ts, last, depth⟩ := s
  obtain ⟨name, s₂, hname, h⟩ := bind_ok.1 h
  obtain ⟨t, ts, rfl, -, -, rfl⟩ := expectIdentifier_ok.1 hname
  obtain ⟨span, s₃, hcolon, h⟩ := bind_ok.1 h
  obtain ⟨colon, ts, rfl, -, -, rfl⟩ := expect_ok.1 hcolon
  obtain ⟨ty, s₄, htype, h⟩ := bind_ok.1 h
  obtain ⟨-, rfl⟩ := pure_ok.1 h
  exact (passes_cons.behind passes_cons.reaches).behind
    ((agrees_expectType (.self _)).reaches htype)

end Parser

namespace Cursor

variable {α : Type} {stream : TokenStream} {c c₁ c₂ : Cursor} {a : α} {budget : Nat}
variable {m : CursorM α} {m' : ParseM α}

/-! ## Moving on -/

/-- The cursor has moved on from the first place to the second one, by one token or more, and
not beyond the end. -/
structure Passes (c c₁ : Cursor) : Prop where
  tokens : c₁.tokens = c.tokens
  forward : c.current < c₁.current
  inside : c₁.current ≤ c.tokens.length

theorem passes_next (h : c.atEnd = false) : c.Passes c.next where
  tokens := rfl
  forward := Nat.lt_succ_self _
  inside := not_atEnd_iff.1 h

theorem Passes.next (h : c.Passes c₁) (hend : c₁.atEnd = false) : c.Passes c₁.next where
  tokens := h.tokens
  forward := Nat.lt_succ_of_lt h.forward
  inside := by
    have hlt := not_atEnd_iff.1 hend
    rw [h.tokens] at hlt
    exact hlt

theorem Follows.ok (h : Follows stream m m') (hc : c.In stream) (hm : m c = .ok a c₁) :
    c₁.In stream ∧ m' (c.shown stream) = .ok a (c₁.shown stream) := by
  obtain ⟨⟨hin, -⟩, -, hrun⟩ := wp_of_ok (h hc) hm
  exact ⟨hin, hrun⟩

/-- Where the parser passes over a token, so does the cursor. -/
theorem passes_of_shown (hc : c.In stream) (hin : c₁.In stream)
    (h : (c.shown stream).Passes (c₁.shown stream)) : c.Passes c₁ := by
  have hlt := h.length_lt
  have hinside := hin.inside
  simp only [shown, List.length_drop, hc.tokens, hin.tokens] at hlt
  exact ⟨hin.tokens.trans hc.tokens.symm, by omega, by rw [hc.tokens]; exact hinside⟩

theorem In.ends (hc : c.In stream) : (c.shown stream).Ends := by
  have hsuffix : (c.shown stream).rest <:+ stream.tokens := by
    rw [← hc.tokens]
    exact List.drop_suffix c.current c.tokens
  exact State.ends_of_suffix stream.ends hsuffix

/-- Where the parser reads the same and passes over a token, so does the cursor. -/
theorem Follows.passes (h : Follows stream m m') (hc : c.In stream)
    (hpass : ∀ {s₁}, m' (c.shown stream) = .ok a s₁ → (c.shown stream).Passes s₁)
    (hm : m c = .ok a c₁) : c₁.In stream ∧ c.Passes c₁ := by
  obtain ⟨hin, hrun⟩ := h.ok hc hm
  exact ⟨hin, passes_of_shown hc hin (hpass hrun)⟩

theorem passes_of_statement (hc : c.In stream) {stmt : Stmt}
    (h : statement budget c = .ok stmt c₁) : c₁.In stream ∧ c.Passes c₁ :=
  (follows_scan stream budget .statement).passes hc Parser.passes_of_statement h

/-! ## Loops -/

/-- So many rounds of a loop, each of which passes over a token, and what each of them reads. -/
inductive Rounds (round : Cursor → α → Cursor → Prop) : Cursor → List α → Cursor → Prop where
  | none {c : Cursor} : Rounds round c [] c
  | more {c c₁ c₂ : Cursor} {a : α} {list : List α} :
      round c a c₁ → c.Passes c₁ → Rounds round c₁ list c₂ → Rounds round c (a :: list) c₂

/-- With some budget, the reader yields this here. -/
def CanYield (reader : Nat → CursorM α) (c : Cursor) (a : α) (c₁ : Cursor) : Prop :=
  ∃ budget, reader budget c = .ok a c₁

/-- A loop is left by the stop of a round, perhaps after others. -/
def Breaks (round : Nat → CursorM α) (c : Cursor) (stop : Stop) (c₁ : Cursor) : Prop :=
  ∃ list c' budget, Rounds (CanYield round) c list c' ∧ round budget c' = .error stop c₁

/-- From this place the program goes on in rounds, each of which passes over a token. It yields
what the rounds have read or stops as one of them does, if the budget lasts. -/
def Loops (round : Nat → CursorM α) (m : CursorM (List α)) (c : Cursor) : Prop :=
  wp m (fun list c₁ => Rounds (CanYield round) c list c₁)
    (fun stop c₁ => stop = .failure .exhausted ∨ Breaks round c stop c₁) c

/-- An item of a list, and the comma behind it if there is one. -/
def item (m : CursorM α) : CursorM α := do
  let a ← m
  let _ ← matchToken (.mark .comma)
  return a

namespace Loops

variable {round : Nat → CursorM α} {loop : CursorM (List α)}

theorem exhausted (c : Cursor) : Loops round (throw (.failure .exhausted)) c := .inl rfl

theorem stop (c : Cursor) : Loops round (pure []) c := .none

/-- Behind a first round, the loop goes on as before. -/
theorem behind (hm : round budget c = .ok a c₁) (hpasses : c.Passes c₁)
    (h : Loops round loop c₁) :
    wp (loop >>= fun others => pure (a :: others))
      (fun list c₂ => Rounds (CanYield round) c list c₂)
      (fun stop c₂ => stop = .failure .exhausted ∨ Breaks round c stop c₂) c₁ := by
  rw [wp_bind]
  refine wp_mono h (fun others c₂ hothers => .more ⟨budget, hm⟩ hpasses hothers) ?_
  rintro stop c₂ (hexhausted | ⟨list, c', budget', hlist, hstops⟩)
  · exact .inl hexhausted
  · exact .inr ⟨a :: list, c', budget', .more ⟨budget, hm⟩ hpasses hlist, hstops⟩

/-- The loop of a list of statements. -/
theorem goOn (hpasses : ∀ a c₁, round budget c = .ok a c₁ → c₁.In stream ∧ c.Passes c₁)
    (h : ∀ c₁ : Cursor, c₁.In stream → Loops round loop c₁) :
    Loops round (round budget >>= fun first => loop >>= fun others => pure (first :: others))
      c := by
  unfold Loops
  rw [wp_bind]
  unfold wp
  split
  · next a c₁ hm =>
    obtain ⟨hin, hpass⟩ := hpasses a c₁ hm
    exact (h c₁ hin).behind hm hpass
  · next stop c₁ hm => exact .inr ⟨[], c, budget, .none, hm⟩

/-- The loop of a list with commas between its items. -/
theorem separated (stream : TokenStream) (reader : Nat → CursorM α) (budget : Nat)
    (hpasses : ∀ a c₁, reader budget c = .ok a c₁ → c₁.In stream ∧ c.Passes c₁)
    (h : ∀ c₁ : Cursor, c₁.In stream → (c₁.shown stream).sees (.mark .comma) = true →
      Loops (fun budget => item (reader budget)) loop c₁.next) :
    Loops (fun budget => item (reader budget))
      (reader budget >>= fun first => matchToken (.mark .comma) >>= fun more =>
        if more = true then loop >>= fun others => pure (first :: others) else pure [first])
      c := by
  unfold Loops
  rw [wp_bind]
  unfold wp
  split
  · next a c₁ hm =>
    obtain ⟨hin, hpass⟩ := hpasses a c₁ hm
    cases hcomma : (c₁.shown stream).sees (.mark .comma) with
    | true =>
      have hmatch := matchToken_of_sees hin hcomma
      have hitem : item (reader budget) c = .ok a c₁.next :=
        bind_ok.2 ⟨a, c₁, hm, bind_ok.2 ⟨true, _, hmatch, rfl⟩⟩
      have hloop := (h c₁ hin hcomma).behind hitem
        (hpass.next (not_atEnd_of_sees hcomma))
      rw [bind_of_ok hmatch, if_pos rfl]
      exact hloop
    | false =>
      have hmatch := matchToken_of_not_sees hin hcomma
      have hitem : item (reader budget) c = .ok a c₁ :=
        bind_ok.2 ⟨a, c₁, hm, bind_ok.2 ⟨false, _, hmatch, rfl⟩⟩
      rw [bind_of_ok hmatch, if_neg Bool.false_ne_true]
      exact .more ⟨budget, hitem⟩ hpass .none
  · next stop c₁ hm => exact .inr ⟨[], c, budget, .none, bind_of_error hm⟩

end Loops

/-! ### Statements -/

theorem loops_blockStatements (hc : c.In stream) (budget : Nat) :
    Loops statement (blockStatements budget) c := by
  induction budget generalizing c with
  | zero => exact .exhausted c
  | succ budget ih =>
    have hrun : blockStatements (budget + 1) c =
        (if ((c.shown stream).sees (.mark .rightBrace) || c.atEnd) = true then pure []
          else statement budget >>= fun first => blockStatements budget >>= fun others =>
            pure (first :: others)) c := by
      rw [blockStatements, bind_of_ok (check_eq hc), get_bind_apply]
    unfold Loops wp
    rw [hrun]
    change Loops statement _ c
    split
    · exact .stop c
    · exact .goOn (fun _ _ => passes_of_statement hc) fun c₁ hin => ih hin

theorem loops_programStatements (hc : c.In stream) (budget : Nat) :
    Loops statement (programStatements budget) c := by
  induction budget generalizing c with
  | zero => exact .exhausted c
  | succ budget ih =>
    rw [programStatements]
    change Loops statement (if c.atEnd = true then _ else _) c
    split
    · exact .stop c
    · exact .goOn (fun _ _ => passes_of_statement hc) fun c₁ hin => ih hin

/-! ### Arguments and parameters -/

/-- Behind a mark, no operand is in view but what is left. -/
theorem due_next (hc : c.In stream) {mark : Mark} (h : (c.shown stream).sees (.mark mark) = true) :
    Parser.Due (c.next.shown stream).rest (c.next.shown stream).last := by
  obtain ⟨t, -, hrest⟩ := rest_of_not_atEnd stream (not_atEnd_of_sees h)
  have hshown : c.shown stream = ⟨t :: (c.next.shown stream).rest, stream.last, c.depth⟩ := by
    rw [← hrest]
    rfl
  have hends := hc.ends
  rw [hshown] at h hends
  exact hends.due (by rw [Parser.sees_cons.1 h]; rfl)

theorem loops_arguments (hc : c.In stream)
    (hdue : Parser.Due (c.shown stream).rest (c.shown stream).last) (budget : Nat) :
    Loops (fun budget => item (expression budget)) (arguments budget) c := by
  induction budget generalizing c with
  | zero => exact .exhausted c
  | succ budget ih =>
    rw [arguments]
    refine .separated stream expression budget (fun a c₁ hm => ?_) fun c₁ hin hcomma => ?_
    · refine (follows_scan stream budget .expression).passes hc (fun hrun => ?_) hm
      obtain ⟨-, hpass⟩ := Reader.yields .expression hrun
      exact hpass hc.ends hdue
    · exact ih (hin.next (not_atEnd_of_sees hcomma)) (due_next hin hcomma)

/-- A parameter with its type. -/
def parameter : CursorM Param := do
  let name ← expectIdentifier
  let _ ← expect (.mark .colon)
  let ty ← expectType
  return ⟨name.1, ty, name.2⟩

theorem params_eq (budget : Nat) : params (budget + 1) = (do
    let first ← parameter
    if ← matchToken (.mark .comma) then
      return first :: (← params budget)
    else
      return [first]) := by
  rw [params, parameter, bind_assoc]
  refine bind_congr fun name => ?_
  rw [bind_assoc]
  refine bind_congr fun _ => ?_
  rw [bind_assoc]
  exact bind_congr fun ty => (pure_bind _ _).symm

theorem follows_parameter : Follows stream parameter Parser.parameter :=
  follows_expectIdentifier.bind fun _ => (follows_expect _).bind fun _ =>
    follows_expectType.bind fun _ => .pure _

theorem loops_params (hc : c.In stream) (budget : Nat) :
    Loops (fun _ => item parameter) (params budget) c := by
  induction budget generalizing c with
  | zero => exact .exhausted c
  | succ budget ih =>
    rw [params_eq]
    refine .separated stream (fun _ => parameter) budget (fun a c₁ hm => ?_) fun c₁ hin hcomma => ?_
    · exact follows_parameter.passes hc Parser.passes_of_parameter hm
    · exact ih (hin.next (not_atEnd_of_sees hcomma))

/-! ### Recovery -/

/-- A round of recovery passes over one token, and no brace that closes a block. -/
structure Skips (c : Cursor) (t : Token) (c₁ : Cursor) : Prop where
  token : c.tokens[c.current]? = some t
  notBrace : t.kind ≠ .mark .rightBrace
  moves : c₁ = c.next

/-- Skipping never stops for a fault or a trap, whatever its turns. -/
theorem rounds_skip (hc : c.In stream) (turns : Nat) :
    ∃ behind skipped c₁, skip turns c = .ok behind c₁ ∧ Rounds Skips c skipped c₁ := by
  induction turns generalizing c with
  | zero => exact ⟨false, [], c, rfl, .none⟩
  | succ turns ih =>
    cases hend : c.atEnd with
    | true =>
      refine ⟨false, [], c, ?_, .none⟩
      rw [skip, get_bind_apply, hend]
      rfl
    | false =>
      obtain ⟨t, ht, hrest⟩ := rest_of_not_atEnd stream hend
      have hturn := skip_turn turns hc hend
      simp only [State.sees, hrest, beq_iff_eq] at hturn
      by_cases hsemicolon : t.kind = .mark .semicolon
      · rw [if_pos hsemicolon] at hturn
        have hskips : c.Skips t c.next := ⟨ht, by simp [hsemicolon], rfl⟩
        exact ⟨true, [t], c.next, hturn, .more hskips (passes_next hend) .none⟩
      · rw [if_neg hsemicolon] at hturn
        by_cases hbrace : t.kind = .mark .rightBrace
        · rw [if_pos hbrace] at hturn
          exact ⟨false, [], c, hturn, .none⟩
        · rw [if_neg hbrace] at hturn
          obtain ⟨behind, skipped, c₁, hrun, hrounds⟩ := ih (hc.next hend)
          exact ⟨behind, t :: skipped, c₁, hturn.trans hrun,
            .more ⟨ht, hbrace, rfl⟩ (passes_next hend) hrounds⟩

/-! ## The depth of the descent -/

/-- From this place, at most so many calls of the descent are open at any time: the budget is
not spent, and a larger one makes no difference. -/
def CompletesWithin (r : Reader α) (calls : Nat) (c : Cursor) : Prop :=
  (∀ c₁, scan r calls c ≠ .error (.failure .exhausted) c₁) ∧
    ∀ budget, calls ≤ budget → scan r budget c = scan r calls c

theorem completesWithin (hlast : stream.last.kind ≠ .mark .leftParen) (hc : c.In stream)
    (r : Reader α) : CompletesWithin r (16 * (c.tokens.length - c.current) + r.rank) c := by
  have hspent : ∀ c₁, scan r (16 * (c.tokens.length - c.current) + r.rank) c ≠
      .error (.failure .exhausted) c₁ := by
    intro c₁ hrun
    have henough : Parser.Enough r.rank (16 * (c.tokens.length - c.current) + r.rank)
        (c.shown stream) := ⟨hlast, by rw [shown, List.length_drop]⟩
    obtain ⟨-, ⟨failure, hfailure, hrun'⟩ | ⟨trap, htrap, -⟩⟩ :=
      wp_of_error (follows_scan stream _ r hc) hrun
    · cases hfailure
      exact r.not_exhausted henough hrun'
    · cases htrap
  refine ⟨hspent, fun budget hle => (refines_scan hle r c).resolve_left ?_⟩
  rintro ⟨c₁, hrun⟩
  exact hspent c₁ hrun

/-! ## The whole descent -/

/-- What reading comes to at a place of the stream. -/
structure Progresses (c : Cursor) : Prop where
  /-- Every function of the descent comes to an end. How many calls are open at a time is
  bounded by the tokens that are left, and for equally many of them by its rank. -/
  completes {α : Type} (r : Reader α) :
    CompletesWithin r (16 * (c.tokens.length - c.current) + r.rank) c
  /-- A statement, also an error node, stands for a token or more. -/
  statement : ∀ budget {stmt c₁}, statement budget c = .ok stmt c₁ → c.Passes c₁
  /-- The loops over the statements of a program and of a block. -/
  program : ∀ budget, Loops Cursor.statement (programStatements budget) c
  block : ∀ budget, Loops Cursor.statement (blockStatements budget) c
  /-- The loop over parameters. -/
  params : ∀ budget, Loops (fun _ => item parameter) (Cursor.params budget) c
  /-- The loop over arguments, which stand behind an opening parenthesis. -/
  arguments : ∀ budget {span c₁}, expect (.mark .leftParen) c = .ok span c₁ →
    Loops (fun budget => item (expression budget)) (Cursor.arguments budget) c₁
  /-- The loop that looks for the place where reading goes on behind an error. -/
  recovery : ∀ turns, ∃ behind skipped c₁, skip turns c = .ok behind c₁ ∧
    Rounds Skips c skipped c₁

theorem progresses (hlast : stream.last.kind ≠ .mark .leftParen) (hc : c.In stream) :
    c.Progresses where
  completes r := completesWithin hlast hc r
  statement _ _ _ h := (passes_of_statement hc h).2
  program := loops_programStatements hc
  block := loops_blockStatements hc
  params := loops_params hc
  arguments budget span c₁ h := by
    cases hsees : (c.shown stream).sees (.mark .leftParen) with
    | true =>
      rw [expect_of_sees hc hsees] at h
      cases h
      exact loops_arguments (hc.next (not_atEnd_of_sees hsees)) (due_next hc hsees) budget
    | false =>
      obtain ⟨-, hrun⟩ := (follows_expect (.mark .leftParen)).ok hc h
      obtain ⟨t, rest, hrest, hk, -⟩ := Parser.expect_ok.1 hrun
      rw [State.sees, shown, hrest] at hsees
      exact absurd hk (by simpa using hsees)
  recovery := rounds_skip hc

end Cursor

/-- If a stream does not end in an opening parenthesis, reading it with a cursor comes to an end
and makes progress. The outcome is that of the parser, or a literal of the stream springs a trap.
No budget is too small, not even that of a single reader anywhere in the stream, if it is sixteen
for each token that is left and as much as the reader's rank. Each statement that is read or
recovered from moves the cursor on by a token or more, and so does each round of every loop. -/
theorem cursor_parse_progresses {tokens : List Token}
    (h : ∀ last, tokens.getLast? = some last → last.kind ≠ .mark .leftParen) :
    ((∃ program, Cursor.parse tokens = .ok program ∧ parse tokens = .ok program) ∨
      (∃ fault span, Cursor.parse tokens = .error (.failure (.fault fault span)) ∧
        parse tokens = .error (.spanned (.syntaxFault fault) span)) ∨
      ∃ trap, Cursor.parse tokens = .error (.trap trap) ∧ trap.Blames tokens) ∧
    ∀ last (ends : tokens.getLast? = some last) (c : Cursor), c.In ⟨tokens, last, ends⟩ →
      c.Progresses := by
  constructor
  · refine (Cursor.parse_follows tokens).imp_right (Or.imp_left ?_)
    rintro ⟨failure, hcursor, hparse⟩
    cases failure with
    | fault fault span => exact ⟨fault, span, hcursor, hparse⟩
    | exhausted =>
      obtain ⟨last, hends, hparen, -⟩ := parse_eq_endlessNesting_iff.1 hparse
      exact absurd hparen (h last hends)
  · intro last ends c hc
    exact Cursor.progresses (h last ends) hc

/-- The tokens of a call `f(x, y);` and of a brace that closes nothing, without their places. -/
def callAndBrace : List Token :=
  [(.identifier, "f"), (.mark .leftParen, "("), (.identifier, "x"), (.mark .comma, ","),
    (.identifier, "y"), (.mark .rightParen, ")"), (.mark .semicolon, ";"),
    (.mark .rightBrace, "\x7d")].map fun (kind, text) => ⟨kind, text, default⟩

/-- The two arguments are read in two rounds, and recovery moves on behind the brace. -/
theorem cursor_parse_progresses_callAndBrace :
    (∀ last, callAndBrace.getLast? = some last → last.kind ≠ .mark .leftParen) ∧
      ((∃ program, Cursor.parse callAndBrace = .ok program ∧
          parse callAndBrace = .ok program) ∨
        (∃ fault span, Cursor.parse callAndBrace = .error (.failure (.fault fault span)) ∧
          parse callAndBrace = .error (.spanned (.syntaxFault fault) span)) ∨
        ∃ trap, Cursor.parse callAndBrace = .error (.trap trap) ∧ trap.Blames callAndBrace) ∧
      (∃ c, Cursor.Rounds
        (Cursor.CanYield fun budget => Cursor.item (Cursor.expression budget))
        ⟨callAndBrace, 2, 0⟩ [.ident "x" default, .ident "y" default] c) ∧
      ∃ c, Cursor.statement 12 ⟨callAndBrace, 7, 0⟩ = .ok (.error "\x7d"
          (Fault.expected .expression (some "\x7d")).reason default) c ∧
        Cursor.Passes ⟨callAndBrace, 7, 0⟩ c := by
  have hlast : ∀ last, callAndBrace.getLast? = some last → last.kind ≠ .mark .leftParen := by
    rintro _ ⟨⟩
    nofun
  obtain ⟨houtcome, hplaces⟩ := cursor_parse_progresses hlast
  refine ⟨hlast, houtcome, ?_, ?_⟩
  · have hcall := hplaces _ rfl ⟨callAndBrace, 1, 0⟩ ⟨rfl, by decide⟩
    exact ⟨_, wp_of_ok (hcall.arguments 20 rfl) rfl⟩
  · have hbrace := hplaces _ rfl ⟨callAndBrace, 7, 0⟩ ⟨rfl, by decide⟩
    exact ⟨_, rfl, hbrace.statement 12 rfl⟩

/-- A string with a single quote. -/
def unquoted : List Token := [⟨.string, "\"", default⟩, ⟨.mark .semicolon, ";", default⟩]

/-- The quote would be both the first byte and the last one. So there is no outcome, although the
stream does not end in an opening parenthesis. -/
theorem cursor_parse_unquoted :
    (∀ last, unquoted.getLast? = some last → last.kind ≠ .mark .leftParen) ∧
      Cursor.parse unquoted = .error (.trap .slice) := by
  refine ⟨?_, rfl⟩
  rintro _ ⟨⟩
  nofun

end Slate
