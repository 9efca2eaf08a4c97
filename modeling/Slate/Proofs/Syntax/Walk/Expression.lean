-- SUMMARY: One step of the readers of expressions keeps the promises, given those of the readers that it calls.
import Slate.Proofs.Syntax.Walk.Laws

/-!
# Walks through expressions

An expression is made of plain tokens. A reader of operands that is ready passes over one, for
what is in view then is left; a literal at the very end, which would be read again and again, is
not in view where an operand is due.
-/

namespace Slate.Parser

open State

variable {budget : Nat} {s s₁ : State} {nodes : List ErrorNode} {blocks : List Block}

namespace Reader

/-! ## Operands -/

/-- A literal in view is one that is left, and not the last token, which is in view again. -/
theorem rest_ne_nil (hdue : Due s.rest s.last) (hself : isSelfContained s.view.kind = true) :
    s.rest ≠ [] := by
  intro hnil
  rw [State.view, hnil, List.headD_nil, hdue hnil] at hself
  cases hself

/-- A token that is read for itself is passed over. -/
theorem part_leaf {e : Expr} (hself : isSelfContained s.view.kind = true)
    (hplain : s.view.IsPlain) : Part .primary budget s (advance >>= fun _ => pure e) s := by
  obtain ⟨_ | ⟨t, ts⟩, last, depth⟩ := s
  · exact ⟨.refl _, fun _ hdue => absurd rfl (rest_ne_nil hdue hself)⟩
  · exact ⟨(Gone.refl _).plain hplain, fun _ _ => passes_cons⟩

theorem part_integerLiteral (hk : s.view.kind = .integer) :
    Part .primary budget s (integerLiteral false s.view.span) s := by
  have hself : isSelfContained s.view.kind = true := by rw [hk]; rfl
  refine .get_bind ?_
  dsimp only
  split
  · next n hn =>
    exact part_leaf hself
      ⟨by rw [hk]; nofun, by rw [hk]; nofun, by rw [hk]; nofun, fun _ => ⟨n, hn⟩⟩
  · next hnone =>
    refine .failAt (.refl s) nofun (fun _ hdue => rest_ne_nil hdue hself) fun t ts hrest => ?_
    rw [State.view, hrest, List.headD_cons] at hk hnone ⊢
    rw [Span.merge_self]
    exact .integer hk hnone

theorem part_stringLiteral (hk : s.view.kind = .string) :
    Part .primary budget s stringLiteral s := by
  have hself : isSelfContained s.view.kind = true := by rw [hk]; rfl
  refine .get_bind ?_
  dsimp only
  split
  · next value hvalue =>
    exact part_leaf hself
      ⟨by rw [hk]; nofun, by rw [hk]; nofun, fun _ => ⟨value, hvalue⟩, by rw [hk]; nofun⟩
  · next fault hfault =>
    have hnested : fault ≠ .nestedFunction := by
      rintro rfl
      obtain ⟨c, hc⟩ | hc := Literal.isEscapeFault_of_string hfault <;> cases hc
    refine .failAt (.refl s) hnested (fun _ hdue => rest_ne_nil hdue hself) fun t ts hrest => ?_
    rw [State.view, hrest, List.headD_cons] at hk hfault ⊢
    exact .string hk hfault

/-- The minus belongs to the literal behind it. -/
theorem part_negative (hminus : s.sees (.mark .minus) = true)
    (hinteger : s.seesSecond .integer = true) :
    Part .unary budget s (advance >>= fun _ => integerLiteral true s.view.span) s := by
  obtain ⟨ts, last, depth⟩ := s
  obtain ⟨minus, t, ts, rfl, hk⟩ := seesSecond_iff.1 hinteger
  have hsign : minus.kind = .mark .minus := sees_cons.1 hminus
  have hplain : minus.IsPlain := isPlain_of_kind (by rw [hsign]; rfl)
  unfold Part Keeps wp
  rw [bind_of_ok advance_cons, integerLiteral, get_bind_apply]
  dsimp only [State.view, List.headD_cons]
  cases hvalue : Literal.integer? true t.text with
  | some n =>
    exact ⟨⟨rfl, [], .negative hsign hk hvalue, rfl⟩, fun _ _ =>
      passes_cons.behind passes_cons.reaches⟩
  | none =>
    exact .charged rfl ((Gone.refl _).plain hplain)
      (.negative hk hvalue hsign List.suffix_rfl) (by simp)

/-! ## One step of the descent -/

section

variable (ih : ∀ {γ : Type} (r : Reader γ) (s : State), r.Walks budget s)
include ih

theorem walks_expression (s : State) : expression.Walks (budget + 1) s :=
  Part.of_bind_pure (.inside (ih (.binary precedence List.suffix_rfl) s) (.refl s)
    (fun _ hdue => hdue) (by decide) fun _ _ g _ hpass => .pure g hpass)

theorem walks_binary (tables : List (List (Mark × BinaryOp))) (levels : tables <:+ precedence)
    (s : State) : (binary tables levels).Walks (budget + 1) s := by
  cases tables with
  | nil =>
    exact Part.of_bind_pure (.inside (ih .unary s) (.refl s) (fun _ hdue => hdue)
      (Nat.lt_succ_self 2) fun _ _ g _ hpass => .pure g hpass)
  | cons table tighter =>
    refine Part.inside (ih (.binary tighter (tighter_levels levels)) s) (.refl s)
      (fun _ hdue => hdue) (Nat.lt_succ_self _) fun left s₁ g _ hpass => ?_
    have hrank : 1 < 3 + (table :: tighter).length := Nat.lt_add_right _ (by decide)
    exact .of_bind_pure (.inside (ih (.operators table tighter left levels) s₁) g
      (fun _ _ => trivial) hrank fun e s₂ g₁ hr _ =>
        .pure g₁ fun hends hdue => (hpass hends hdue).behind hr)

theorem walks_operators (table : List (Mark × BinaryOp))
    (tighter : List (List (Mark × BinaryOp))) (left : Expr)
    (levels : table :: tighter <:+ precedence) (s : State) :
    (operators table tighter left levels).Walks (budget + 1) s := by
  have hmarks : ∀ table ∈ precedence, ∀ entry ∈ table, isPlainKind (.mark entry.1) = true := by
    decide
  refine Part.acceptOperator? (.refl s) (hmarks table (levels.mem List.mem_cons_self))
    (.pure (.refl s) trivial) fun operator s₁ b => ?_
  refine .behind (ih (.binary tighter (tighter_levels levels)) s₁) b.toPast b.due (Nat.le_refl _)
    fun right s₂ p => ?_
  have hrest := ih (.operators table tighter (left.join operator.1 right) levels) s₂
  exact .of_bind_pure (.behind hrest p (fun _ => trivial) (Nat.le_refl _) fun e s₃ p₁ =>
    .pure p₁.gone trivial)

theorem walks_unary (s : State) : unary.Walks (budget + 1) s := by
  refine Part.get_bind ?_
  split
  · next hsees =>
    obtain ⟨hminus, hinteger⟩ := Bool.and_eq_true_iff.1 hsees
    exact part_negative hminus hinteger
  · refine .acceptOperator? (.refl s) (by decide) ?_ fun operator s₁ b => ?_
    · exact .of_bind_pure (.inside (ih .primary s) (.refl s) (fun _ hdue => hdue)
        (Nat.lt_succ_self 1) fun _ _ g _ hpass => .pure g hpass)
    · exact .behind (ih .unary s₁) b.toPast b.due (Nat.le_refl _) fun operand s₂ p =>
        .pure p.gone fun _ _ => p.passes

theorem walks_parens (hk : s.view.kind = .mark .leftParen) :
    Part .primary (budget + 1) s (advance >>= fun _ => Parser.expression budget >>= fun inner =>
      Parser.expect (.mark .rightParen) >>= fun _ => pure inner) s := by
  obtain ⟨_ | ⟨t, ts⟩, last, depth⟩ := s
  · -- the parenthesis is met again, and no budget is enough
    have hinner : Part .expression budget ⟨[], last, depth⟩ (Parser.expression budget)
        ⟨[], last, depth⟩ := ih .expression ⟨[], last, depth⟩
    exact .call hinner (.refl _) (fun _ hdue => hdue) (fun henough => absurd hk henough.last)
      fun inner s₁ g _ _ => .expect g rfl rfl fun _ s₂ b => .pure b.gone fun _ _ => b.passes
  · have hk : t.kind = .mark .leftParen := hk
    have b : Behind ⟨t :: ts, last, depth⟩ [] [] ⟨ts, last, depth⟩ :=
      (Gone.refl _).behind (by rw [hk]; rfl) (by rw [hk]; rfl)
    exact .behind (ih .expression ⟨ts, last, depth⟩) b.toPast b.due (Nat.le_refl _)
      fun inner s₁ p => .expect p.gone rfl rfl fun _ s₂ b₁ => .pure b₁.gone fun _ _ => b₁.passes

theorem walks_primary (s : State) : primary.Walks (budget + 1) s := by
  refine Part.get_bind ?_
  dsimp only
  split
  · next hk => exact part_integerLiteral hk
  · next hk => exact part_stringLiteral hk
  · next hk => exact part_leaf (by rw [hk]; rfl) (isPlain_of_kind (by rw [hk]; rfl))
  · next hk => exact part_leaf (by rw [hk]; rfl) (isPlain_of_kind (by rw [hk]; rfl))
  · refine .expectIdentifier (.refl s) fun named s₁ b => .get_bind ?_
    split
    · exact .of_bind_pure (.behind (ih (.call named.1 named.2) s₁) b.toPast (fun _ => trivial)
        (Nat.le_refl _) fun e s₂ p => .pure p.gone fun _ _ => p.passes)
    · exact .pure b.gone fun _ _ => b.passes
  · next hk => exact walks_parens ih hk
  · next hinteger hstring _ _ _ _ => exact .unexpected (.refl s) fun _ => ⟨hinteger, hstring⟩

theorem walks_call (callee : String) (start : Span) (s : State) :
    (call callee start).Walks (budget + 1) s := by
  refine Part.expect (.refl s) rfl rfl fun _ s₁ b => .ite_sees b.toPast
    (fun hk => .behind (ih .arguments s₁) b.toPast b.due (Nat.le_refl _) hk) fun list s₂ p => ?_
  exact .expect p.gone rfl rfl fun stop s₃ b₁ => .pure b₁.gone trivial

theorem walks_arguments (s : State) : arguments.Walks (budget + 1) s := by
  refine Part.inside (ih .expression s) (.refl s) (fun _ hdue => hdue) (by decide)
    fun first s₁ g _ hpass => .accept? g rfl rfl (.pure g hpass) fun _ s₂ b => ?_
  exact .behind (ih .arguments s₂) b.toPast b.due (Nat.le_refl _) fun others s₃ p =>
    .pure p.gone fun _ _ => p.passes

end

end Reader

end Slate.Parser
