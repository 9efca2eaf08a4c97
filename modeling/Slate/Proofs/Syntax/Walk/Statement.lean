-- SUMMARY: Every reader keeps its promises at every place, recovery included, and a whole program has a course.
import Slate.Proofs.Syntax.Walk.Expression

/-!
# Walks through statements

Readers of statements pass over plain tokens, blocks, and the passages of statements that could
not be read. Recovery is what makes a passage: it ends behind a semicolon or before a closing
brace, and since no statement in a block begins with a closing brace, it is there that the block
ends. Outside of blocks such a brace is a passage of its own. Whatever stops a statement before
the end of the input goes no further than to its error node.
-/

namespace Slate

namespace Parser

open State

variable {α : Type} {budget : Nat} {s s₁ : State} {nodes : List ErrorNode} {blocks : List Block}

/-! ## Recovery -/

/-- What recovery makes of a statement that a fault stops at `s₁`: the token there, and the
wording of the fault. -/
def errorNode (s₁ : State) (fault : Fault) (span : Span) : Stmt :=
  .error s₁.view.text fault.reason span

/-- Recovery lets a failure pass if the budget is spent, and a fault only at the end. -/
theorem wp_recovering {m : ParseM Stmt} {Q : Stmt → State → Prop} {E : Failure → State → Prop}
    (h : wp m Q (fun failure s₁ => (failure = .exhausted ∨ s₁.rest = [] → E failure s₁) ∧
      ∀ fault span, failure = .fault fault span → s₁.rest ≠ [] →
        Q (errorNode s₁ fault span) (s.recovered s₁)) s) :
    wp (recovering m) Q E s := by
  unfold wp
  cases hm : m s with
  | ok stmt s₁ =>
    have hstmt := wp_of_ok h hm
    rw [recovering_ok hm]
    exact hstmt
  | error failure s₁ =>
    obtain ⟨hpass, hnode⟩ := wp_of_error h hm
    cases failure with
    | exhausted =>
      rw [recovering_exhausted hm]
      exact hpass (.inl rfl)
    | fault fault span =>
      cases hend : s₁.atEnd with
      | true =>
        rw [recovering_atEnd hm hend]
        exact hpass (.inr (List.isEmpty_iff.1 hend))
      | false =>
        rw [recovering_fault hm hend]
        exact hnode fault span rfl (List.isEmpty_eq_false_iff.1 hend)

theorem view_of_cons {t : Token} {ts : List Token} (h : s.rest = t :: ts) : s.view = t := by
  rw [State.view, h, List.headD_cons]

/-- The passage of a statement that could not be read. -/
theorem Gone.recovered {t : Token} {ts : List Token} {fault : Fault} {span : Span}
    (g : Gone false s nodes blocks s₁) (left : s₁.rest = t :: ts)
    (charged : Charged s.rest t ts fault span) :
    Gone (s.sees (.mark .rightBrace)) s (errorNode s₁ fault span).errors [] (s.recovered s₁) := by
  obtain ⟨rest, last, depth⟩ := s
  obtain ⟨passages, hread, -⟩ := g.course
  rw [left] at hread
  obtain ⟨first, others, rfl⟩ : ∃ first others, rest = first :: others :=
    List.exists_cons_of_ne_nil fun hnil => List.cons_ne_nil t ts
      (List.suffix_nil.1 (hnil ▸ hread.suffix))
  have hnode : (errorNode s₁ fault span).errors = [⟨t.text, fault.reason, span⟩] := by
    rw [errorNode, view_of_cons left]
    rfl
  rw [hnode]
  refine ⟨g.last, ?_⟩
  have hbegin : State.rest ⟨first :: others, last, depth⟩ = first :: others := rfl
  obtain ⟨hfirst, hrest⟩ | ⟨hfirst, hsame, hrest⟩ := hread.recovered_rest hbegin left
  · obtain ⟨tokens, htokens⟩ := (resume_suffix (t :: ts)).trans hread.suffix
    refine ⟨[⟨⟨t.text, fault.reason, span⟩, tokens⟩], ?_, rfl⟩
    rw [hrest]
    exact .error hfirst hread charged htokens.symm
  · cases hsame
    refine ⟨[⟨⟨t.text, fault.reason, span⟩, [t]⟩], ?_, rfl⟩
    rw [hrest, sees_cons.2 hfirst]
    exact .stray hfirst charged

/-- A statement that is read, or recovered from, passes over a token. -/
theorem passes_of_statement {stmt : Stmt} (h : statement budget s = .ok stmt s₁) :
    s.Passes s₁ :=
  State.Reaches.passes (((statementsAgree (Nat.le_refl budget)).statement (.self s)).reaches h)
    (firm_statement (Nat.le_refl budget) (.self s) h).1

theorem wp_nested {m : ParseM α} {Q : α → State → Prop} {E : Failure → State → Prop}
    (h : wp m (fun a s₁ => Q a { s₁ with depth := s₁.depth - 1 }) E
      { s with depth := s.depth + 1 }) : wp (nested m) Q E s := by
  unfold nested
  rw [wp_bind]
  change wp _ _ _ { s with depth := s.depth + 1 }
  rw [wp_bind]
  exact h

namespace Reader

/-- Where a statement is stopped before the end, recovery makes an error node. -/
theorem walks_statement (h : strictStatement.Walks budget s) :
    statement.Walks (budget + 1) s := by
  have hgone : wp (Parser.statement (budget + 1))
      (fun stmt s₁ => Gone (s.sees (.mark .rightBrace)) s stmt.errors stmt.blocks s₁)
      (Halts (statement.terms (budget + 1) s) s) s := by
    refine wp_recovering (wp_mono h (fun _ _ ⟨g, _⟩ => g.outwards nofun)
      fun failure s₁ hstops => ⟨fun hends => ?_, ?_⟩)
    · cases hstops with
      | exhausted spent =>
        have hinside (h : Enough 12 (budget + 1) s) : Enough 11 budget s :=
          h.reaches (.refl s) (by omega)
        exact .exhausted fun henough => spent (hinside henough)
      | missing nothingLeft lacks => exact .missing nothingLeft lacks
      | charged left =>
        obtain hexhausted | hnil := hends
        · cases hexhausted
        · rw [left] at hnil
          cases hnil
    · rintro fault span rfl hleft
      cases hstops with
      | missing nothingLeft => exact absurd nothingLeft hleft
      | charged left gone charged => exact gone.recovered left charged
  have hpass :
      wp (Parser.statement (budget + 1)) (fun _ s₁ => s.Passes s₁) (fun _ _ => True) s := by
    unfold wp
    split
    · next hrun => exact passes_of_statement hrun
    · trivial
  exact wp_mono (wp_and hgone hpass) (fun _ _ ⟨hgone, hpass⟩ => ⟨hgone, hpass⟩)
    fun _ _ ⟨hstops, _⟩ => hstops

/-- Behind a first statement, others are read as before. -/
theorem keeps_statements {m : ParseM (List Stmt)} {outside : Bool} {L : State → Prop}
    (hfirst : statement.Walks budget s) (hrest : s.rest ≠ [])
    (hbrace : s.sees (.mark .rightBrace) = true → outside = true)
    (hothers : ∀ s₁, Keeps ⟨outside, s₁.Ends ∧ True, Enough 13 budget s₁, fun _ => False⟩ s₁
      (fun list s₂ => Gone outside s₁ (statementErrors list) (statementBlocks list) s₂ ∧ L s₂)
      m s₁) :
    Keeps ⟨outside, s.Ends ∧ True, Enough 13 (budget + 1) s, fun _ => False⟩ s
      (fun list s₂ => Gone outside s (statementErrors list) (statementBlocks list) s₂ ∧ L s₂)
      (Parser.statement budget >>= fun first => m >>= fun others => pure (first :: others)) s := by
  have hinside (h : Enough 13 (budget + 1) s) : Enough 12 budget s :=
    h.reaches (.refl s) (by omega)
  refine .bind hfirst (.refl s)
    ⟨hbrace, fun ⟨hends, _⟩ => ⟨hends, hrest⟩, hinside, fun _ h => h⟩ ?_
  rintro first s₁ ⟨g, hpass⟩
  have hbehind (h : Enough 13 (budget + 1) s) : Enough 13 budget s₁ := h.behind hpass (by omega)
  refine .bind (hothers s₁) (g.outwards hbrace)
    ⟨id, fun ⟨hends, _⟩ => ⟨hends.reaches hpass.reaches, trivial⟩, hbehind, fun _ h => h⟩ ?_
  rintro others s₂ ⟨g₁, hleaves⟩
  exact ⟨(g.outwards hbrace).trans g₁, hleaves⟩

/-! ## Simple statements -/

section

variable (h : ∀ s, expression.Walks budget s)
include h

theorem walks_initializer (s : State) : initializer.Walks budget s :=
  Part.expect (.refl s) rfl rfl fun _ s₁ b =>
    .behind (h s₁) b.toPast b.due (Nat.le_succ _) fun _ _ p =>
      .semicolon p.gone fun _ p₁ => .pure p₁.gone trivial

theorem walks_declaration (s : State) : declaration.Walks budget s := by
  refine Part.expect (.refl s) rfl rfl fun _ s₁ b => .expectIdentifier b.gone fun named s₂ b₁ => ?_
  have hdefine : ∀ ty s', Past s [] [] s' → declaration.Part budget s
      (Parser.initializer budget >>= fun value =>
        pure (.define named.1 ty value named.2)) s' := fun ty s' p =>
    .behind (walks_initializer h s') p (fun _ => trivial) (Nat.le_succ _) fun value s'' p₁ =>
      .pure p₁.gone trivial
  refine .accept? b₁.gone rfl rfl (hdefine none s₂ b₁.toPast) fun _ s₃ b₂ =>
    .expectType b₂.toPast fun ty s₄ p => ?_
  exact .accept? p.gone rfl rfl (hdefine (some ty) s₄ p) fun _ s₅ b₃ => .pure b₃.gone trivial

theorem walks_ret (s : State) : ret.Walks budget s :=
  Part.expect (.refl s) rfl rfl fun _ s₁ b => .ite_sees b.toPast
    (fun hk => .map_bind (.behind (h s₁) b.toPast b.due (Nat.le_succ _) fun value =>
      hk (some value)))
    fun _ _ p => .semicolon p.gone fun _ p₁ => .pure p₁.gone trivial

theorem walks_assignmentOrExpression (s : State) : assignmentOrExpression.Walks budget s := by
  refine Part.get_bind ?_
  split
  · exact .expectIdentifier (.refl s) fun named s₁ b =>
      .behind (walks_initializer h s₁) b.toPast (fun _ => trivial) (Nat.le_succ _) fun value s₂ p =>
        .pure p.gone trivial
  · refine .call (h s) (.refl s) (fun _ hne hnil => absurd hnil hne) (fun henough => henough)
      fun value s₁ g _ _ => .semicolon g fun s₂ p => .pure p.gone trivial

end

theorem part_needs (s : State) : Part .strictStatement budget s needs s :=
  .expect (.refl s) rfl rfl fun _ _ b => .expectIdentifier b.gone fun _ _ b₁ =>
    .semicolon b₁.gone fun _ p => .pure p.gone trivial

/-- Another reader reads the statement. -/
theorem part_whole {r : Reader Stmt} (h : r.Part budget s (r.run budget) s)
    (herrors : r.errorsOf = Stmt.errors) (hblocks : r.blocksOf = Stmt.blocks)
    (hready : s.rest ≠ [] → r.Ready s) (hrank : r.rank < strictStatement.rank) :
    Part .strictStatement (budget + 1) s (r.run budget) s := by
  refine .of_bind_pure (.inside h (.refl s) (fun _ hne => hready hne) hrank
    fun stmt s₁ g _ _ => .pure ?_ trivial)
  rwa [herrors, hblocks] at g

/-! ## One step of the descent -/

section

variable (ih : ∀ {γ : Type} (r : Reader γ) (s : State), r.Walks budget s)
include ih

theorem walks_params (s : State) : params.Walks (budget + 1) s := by
  refine Part.expectIdentifier (.refl s) fun named s₁ b => .expect b.gone rfl rfl fun _ s₂ b₁ =>
    .expectType b₁.toPast fun ty s₃ p => .accept? p.gone rfl rfl (.pure p.gone trivial)
      fun _ s₄ b₂ => ?_
  exact .behind (ih .params s₄) b₂.toPast (fun _ => trivial) (Nat.le_refl _) fun others s₅ p₁ =>
    .pure p₁.gone trivial

theorem walks_function (s : State) : function.Walks (budget + 1) s := by
  refine Part.expect (.refl s) rfl rfl fun _ s₁ b => .expectIdentifier b.gone fun named s₂ b₁ =>
    .expect b₁.gone rfl rfl fun _ s₃ b₂ => .ite_sees b₂.toPast
      (fun hk => .behind (ih .params s₃) b₂.toPast (fun _ => trivial) (Nat.le_refl _) hk)
      fun list s₄ p => .expect p.gone rfl rfl fun _ s₅ b₃ => ?_
  have hbody : ∀ returns s', Past s [] [] s' → function.Part (budget + 1) s
      (Parser.block budget >>= fun body =>
        pure (.function named.1 list returns body named.2)) s' := fun returns s' p =>
    .behind (ih .block s') p (fun _ => trivial) (Nat.le_refl _) fun body s'' p₁ =>
      .pure p₁.gone trivial
  exact .accept? b₃.gone rfl rfl (hbody none s₅ b₃.toPast) fun _ s₆ b₄ =>
    .map_bind (.expectType b₄.toPast fun ty s₇ p₁ => hbody (some ty) s₇ p₁)

theorem walks_ifChain (s : State) : ifChain.Walks (budget + 1) s := by
  refine Part.expect (.refl s) rfl rfl fun span s₁ b =>
    .behind (ih .guarded s₁) b.toPast (fun _ => trivial) (Nat.le_refl _) fun parts s₂ p =>
      .behind (ih .elseBranches s₂) p (fun _ => trivial) (Nat.le_refl _) fun chain s₃ p₁ =>
        .pure ?_ trivial
  obtain ⟨branches, _ | otherwise⟩ := chain
  · have g := p₁.gone
    simp only [errorsOf, blocksOf, Option.map_none, Option.getD_none, List.append_nil] at g
    exact g
  · have g := p₁.gone
    simp only [errorsOf, blocksOf, Option.map_some, Option.getD_some, List.nil_append,
      ← List.append_assoc] at g
    exact g

theorem walks_elseBranches (s : State) : elseBranches.Walks (budget + 1) s := by
  refine Part.accept? (.refl s) rfl rfl (.pure (.refl s) trivial) fun elseSpan s₁ b =>
    .accept? b.gone rfl rfl ?_ fun ifSpan s₂ b₁ => ?_
  · exact .behind (ih .block s₁) b.toPast (fun _ => trivial) (Nat.le_refl _) fun body s₂ p =>
      .pure p.gone trivial
  · refine .behind (ih .guarded s₂) b₁.toPast (fun _ => trivial) (Nat.le_refl _) fun parts s₃ p =>
      .behind (ih .elseBranches s₃) p (fun _ => trivial) (Nat.le_refl _) fun chain s₄ p₁ =>
        .pure ?_ trivial
    have g := p₁.gone
    simp only [errorsOf, blocksOf, List.nil_append, ← List.append_assoc] at g
    exact g

theorem walks_guarded (s : State) : guarded.Walks (budget + 1) s :=
  Part.expect (.refl s) rfl rfl fun _ s₁ b =>
    .behind (ih .expression s₁) b.toPast b.due (Nat.le_refl _) fun _ _ p =>
      .expect p.gone rfl rfl fun _ s₃ b₁ =>
        .behind (ih .block s₃) b₁.toPast (fun _ => trivial) (Nat.le_refl _) fun _ _ p₁ =>
          .pure p₁.gone trivial

/-- Behind an opening brace one more block is open, and no fault stops the statements. -/
theorem keeps_inside {opening : Token} {inner : List Token} (hopening : s.rest = opening :: inner) :
    Keeps (block.terms (budget + 1) s) s
      (fun list s₁ => Gone false { s with rest := inner } (statementErrors list)
        (statementBlocks list) s₁ ∧ (s₁.rest = [] ∨ s₁.sees (.mark .rightBrace) = true))
      (nested (Parser.blockStatements budget)) { s with rest := inner } := by
  have hpass : s.Passes ⟨inner, s.last, s.depth + 1⟩ :=
    ⟨rfl, [opening], List.cons_ne_nil _ _, hopening⟩
  have hlist := ih .blockStatements ⟨inner, s.last, s.depth + 1⟩
  refine wp_nested (wp_mono hlist (fun _ _ ⟨g, hleaves⟩ => ⟨⟨g.last, g.course⟩, hleaves⟩)
    fun failure s₁ hstops => ?_)
  cases hstops with
  | exhausted spent =>
    have hbehind (h : Enough 1 (budget + 1) s) : Enough 13 budget ⟨inner, s.last, s.depth + 1⟩ :=
      h.behind hpass (by omega)
    exact .exhausted fun henough => spent (hbehind henough)
  | missing nothingLeft lacks =>
    exact .missing nothingLeft fun ⟨hends, _⟩ => lacks ⟨hends.reaches hpass.reaches, trivial⟩
  | charged _ _ _ met => exact met.elim

theorem walks_block (s : State) : block.Walks (budget + 1) s := by
  change Part .block (budget + 1) s (Parser.block (budget + 1)) s
  rw [block_eq]
  refine .expect_any (.refl s) fun opening inner hopening hleft => ?_
  unfold Part Keeps
  rw [wp_bind]
  refine wp_mono (keeps_inside ih hopening) ?_ fun _ _ hstops => hstops
  rintro list ⟨rest, last, depth⟩ ⟨g, hstops⟩
  obtain rfl : last = s.last := g.last
  obtain hnil | hsees := hstops
  · -- the closing brace is missed at the end
    obtain rfl : rest = [] := hnil
    have hmissed : Halts (Reader.block.terms (budget + 1) s) s
        (.fault (.expected (.kind (.mark .rightBrace)) none) s.last.span) ⟨[], s.last, depth⟩ :=
      .missing rfl fun _ => ⟨_, rfl, rfl⟩
    exact hmissed
  · obtain ⟨closing, after, rfl, hright⟩ := sees_iff.1 hsees
    obtain ⟨passages, hbody, hnodes⟩ := g.course
    rw [wp, bind_of_ok (expect_cons hright)]
    refine ⟨⟨rfl, passages, ?_, hnodes⟩, trivial⟩
    rw [hopening]
    exact .block hleft hright hbody hnodes

theorem walks_blockStatements (s : State) : blockStatements.Walks (budget + 1) s := by
  change Keeps _ s _ (if (s.sees (.mark .rightBrace) || s.atEnd) = true then _ else _) s
  split
  · next hstops =>
    exact ⟨.refl s, (Bool.or_eq_true_iff.1 hstops).symm.imp_left List.isEmpty_iff.1⟩
  · next hgoesOn =>
    obtain ⟨hbrace, hleft⟩ := not_or.1 (mt Bool.or_eq_true_iff.2 hgoesOn)
    exact keeps_statements (ih .statement s) (fun hnil => hleft (List.isEmpty_iff.2 hnil))
      (fun hsees => absurd hsees hbrace) (ih .blockStatements)

theorem walks_programStatements (s : State) : programStatements.Walks (budget + 1) s := by
  change Keeps _ s _ (if s.atEnd = true then _ else _) s
  split
  · next hend => exact ⟨.refl s, List.isEmpty_iff.1 hend⟩
  · next hgoesOn =>
    exact keeps_statements (ih .statement s) (fun hnil => hgoesOn (List.isEmpty_iff.2 hnil))
      (fun _ => rfl) (ih .programStatements)

theorem walks_strictStatement (s : State) : strictStatement.Walks (budget + 1) s := by
  -- but for a function out of place, a strict statement is a part like all others
  have hpart : ∀ {m : ParseM Stmt}, Part .strictStatement (budget + 1) s m s →
      Keeps (strictStatement.terms (budget + 1) s) s (strictStatement.Yields false s) m s :=
    fun h => wp_mono h (fun _ _ hyields => hyields) fun _ _ hstops => hstops.part (.refl s)
      ⟨id, id, id, fun _ hne hnested => absurd hnested hne⟩
  have hother : Keeps (strictStatement.terms (budget + 1) s) s (strictStatement.Yields false s)
      (Parser.assignmentOrExpression budget) s :=
    hpart (part_whole (ih .assignmentOrExpression s) rfl rfl (fun hne => hne) (by decide))
  change Keeps (strictStatement.terms (budget + 1) s) s (strictStatement.Yields false s)
    (Parser.strictStatement (budget + 1)) s
  unfold Parser.strictStatement
  refine .get_bind ?_
  cases hk : s.view.kind with
  | keyword k =>
    cases k with
    | letKw => exact hpart (part_whole (ih .declaration s) rfl rfl (fun _ => trivial) (by decide))
    | needsKw => exact hpart (part_needs s)
    | fnKw =>
      dsimp only
      split
      · next hdepth =>
        cases hrest : s.rest with
        | nil => exact .missing hrest fun ⟨_, hne⟩ => absurd hrest hne
        | cons t ts =>
          rw [view_of_cons hrest] at hk ⊢
          refine .charged hrest (.refl s) ?_ fun _ => hdepth
          exact .nestedFunction hk
      · exact hpart (part_whole (ih .function s) rfl rfl (fun _ => trivial) (by decide))
    | ifKw => exact hpart (part_whole (ih .ifChain s) rfl rfl (fun _ => trivial) (by decide))
    | whileKw =>
      exact hpart (.expect (.refl s) rfl rfl fun span s₁ b =>
        .behind (ih .guarded s₁) b.toPast (fun _ => trivial) (Nat.le_refl _) fun parts s₂ p =>
          .pure p.gone trivial)
    | returnKw => exact hpart (part_whole (ih .ret s) rfl rfl (fun _ => trivial) (by decide))
    | breakKw | continueKw =>
      exact hpart (.expect (.refl s) rfl rfl fun span s₁ b => .semicolon b.gone fun s₂ p =>
        .pure p.gone trivial)
    | _ => exact hother
  | mark m =>
    cases m with
    | leftBrace =>
      exact hpart (.inside (ih .block s) (.refl s) (fun _ _ => trivial) (by decide)
        fun body s₁ g _ _ => .pure g trivial)
    | _ => exact hother
  | _ => exact hother

end

end Reader

/-! ## The whole descent -/

/-- Every reader keeps its promise at every place, whatever the budget. -/
theorem Reader.walks (budget : Nat) :
    ∀ {γ : Type} (r : Reader γ) (s : State), r.Walks budget s := by
  induction budget with
  | zero =>
    have h (s : State) : expression.Walks 0 s := .exhausted expression.not_enough_zero
    intro γ r s
    cases r with
    | initializer => exact walks_initializer h s
    | declaration => exact walks_declaration h s
    | ret => exact walks_ret h s
    | assignmentOrExpression => exact walks_assignmentOrExpression h s
    | binary tables levels => exact .exhausted (binary tables levels).not_enough_zero
    | operators table tighter left levels =>
      exact .exhausted (operators table tighter left levels).not_enough_zero
    | _ => exact .exhausted (not_enough_zero _)
  | succ budget ih =>
    have h (s : State) : expression.Walks (budget + 1) s := walks_expression ih s
    intro γ r s
    cases r with
    | expression => exact h s
    | binary tables levels => exact walks_binary ih tables levels s
    | operators table tighter left levels => exact walks_operators ih table tighter left levels s
    | unary => exact walks_unary ih s
    | primary => exact walks_primary ih s
    | call callee start => exact walks_call ih callee start s
    | arguments => exact walks_arguments ih s
    | initializer => exact walks_initializer h s
    | declaration => exact walks_declaration h s
    | ret => exact walks_ret h s
    | assignmentOrExpression => exact walks_assignmentOrExpression h s
    | params => exact walks_params ih s
    | statement => exact walks_statement (ih .strictStatement s)
    | strictStatement => exact walks_strictStatement ih s
    | function => exact walks_function ih s
    | ifChain => exact walks_ifChain ih s
    | elseBranches => exact walks_elseBranches ih s
    | guarded => exact walks_guarded ih s
    | block => exact walks_block ih s
    | blockStatements => exact walks_blockStatements ih s
    | programStatements => exact walks_programStatements ih s

variable {failure : Failure} {fault : Fault} {span : Span} {t : Token} {ts : List Token}

theorem Reader.halts (r : Reader α) (h : r.run budget s = .error failure s₁) :
    Halts (r.terms budget s) s failure s₁ := wp_of_error (r.walks budget s) h

theorem Reader.yields (r : Reader α) {a : α} (h : r.run budget s = .ok a s₁) :
    r.Yields (r.outside s) s a s₁ := wp_of_ok (r.walks budget s) h

/-- A budget that the tokens left pay for is not spent. -/
theorem Reader.not_exhausted (r : Reader α) (henough : Enough r.rank budget s) :
    r.run budget s ≠ .error .exhausted s₁ := by
  intro h
  cases r.halts h with
  | exhausted spent => exact spent henough

theorem programStatements_not_exhausted (h : Enough 13 budget s) :
    programStatements budget s ≠ .error .exhausted s₁ := Reader.not_exhausted .programStatements h

/-- A statement that is stopped at a token has a course up to there, and a fault of that token. -/
theorem strictStatement_charged
    (hstopped : strictStatement budget s = .error (.fault fault span) s₁)
    (hrest : s₁.rest = t :: ts) :
    (∃ passages blocks, Course false s.rest passages blocks (t :: ts)) ∧
      Charged s.rest t ts fault span := by
  cases Reader.halts .strictStatement hstopped with
  | missing nothingLeft =>
    rw [hrest] at nothingLeft
    cases nothingLeft
  | charged left gone charged =>
    obtain ⟨rfl, rfl⟩ := List.cons.inj (left.symm.trans hrest)
    obtain ⟨passages, hcourse, -⟩ := gone.course
    rw [left] at hcourse
    exact ⟨⟨passages, _, hcourse⟩, charged⟩

/-- No fault stops a program before the end, and there a token is missing. -/
theorem programStatements_stopped (hends : s.Ends)
    (h : programStatements budget s = .error failure s₁) :
    (failure = .exhausted ∧ ¬ Enough 13 budget s) ∨
      (s₁.rest = [] ∧ ∃ what, failure = .fault (.expected what none) s.last.span) := by
  cases Reader.halts .programStatements h with
  | exhausted spent => exact .inl ⟨rfl, spent⟩
  | missing nothingLeft lacks =>
    obtain ⟨what, rfl, rfl⟩ := lacks ⟨hends, trivial⟩
    exact .inr ⟨nothingLeft, what, rfl⟩
  | charged _ _ _ met => exact met.elim

/-- A program that is read has a course through all that was left. -/
theorem programStatements_course {list : List Stmt}
    (h : programStatements budget s = .ok list s₁) :
    ∃ passages, Course true s.rest passages (statementBlocks list) [] ∧
      passages.map Passage.node = statementErrors list := by
  obtain ⟨g, hend⟩ := Reader.yields .programStatements h
  obtain ⟨passages, hcourse, hnodes⟩ := g.course
  have hend : s₁.rest = [] := hend
  rw [hend] at hcourse
  exact ⟨passages, hcourse, hnodes⟩

end Parser

/-- The course of a whole program leads through all of its tokens. -/
theorem parse_course {tokens : List Token} {program : Program}
    (h : parse tokens = .ok program) :
    ∃ passages, Parser.Course true tokens passages program.blocks [] ∧
      passages.map Parser.Passage.node = program.errors := by
  unfold parse at h
  split at h
  · next hlast =>
    cases h
    rw [List.getLast?_eq_none_iff.1 hlast]
    exact ⟨[], .rest [], rfl⟩
  · dsimp only at h
    split at h
    · next hrun =>
      cases h
      exact Parser.programStatements_course hrun
    · cases h

/-- A stream of tokens that is refused is never read to an end, since its last token is an opening
parenthesis, or else it lacks a token behind the last one. -/
theorem parse_stopped {tokens : List Token} {d : Diagnostic} (h : parse tokens = .error d) :
    (d = .ofDefect .endlessNesting ∧
        ∃ last, tokens.getLast? = some last ∧ last.kind = .mark .leftParen) ∨
      ∃ last what s, tokens.getLast? = some last ∧
        d = .spanned (.syntaxFault (.expected what none)) last.span ∧
        Parser.programStatements (Parser.budgetFor tokens.length) ⟨tokens, last, 0⟩ =
          .error (.fault (.expected what none) last.span) s ∧ s.rest = [] := by
  unfold parse at h
  split at h
  · cases h
  · next last hlast =>
    dsimp only at h
    split at h
    · cases h
    · next failure s hrun =>
      cases h
      have hle : 16 * tokens.length + 13 ≤ Parser.budgetFor tokens.length := by
        unfold Parser.budgetFor
        omega
      have hends : Parser.State.Ends ⟨tokens, last, 0⟩ :=
        Parser.State.ends_of_suffix hlast List.suffix_rfl
      obtain ⟨rfl, hspent⟩ | ⟨hnil, what, rfl⟩ := Parser.programStatements_stopped hends hrun
      · exact .inl ⟨rfl, last, hlast, Decidable.byContradiction fun hkind => hspent ⟨hkind, hle⟩⟩
      · exact .inr ⟨last, what, s, hlast, rfl, hrun, hnil⟩

end Slate
