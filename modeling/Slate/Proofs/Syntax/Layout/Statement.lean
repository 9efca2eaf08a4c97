-- SUMMARY: The spans of a program nest: what the statements of a block carry lies inside the block, but for an error node at its closing brace.
import Slate.Proofs.Syntax.Acceptance
import Slate.Proofs.Syntax.Errors
import Slate.Proofs.Syntax.Layout.Expression

/-!
# The layout of programs

A statement points at one or two of its tokens, or at its expression, so its spans lie over
the tokens that spell it, and a block has its statements between its braces. Recovery changes
this in one place. It stops before a closing brace without using it up; if reading stopped
there as well, the error node quotes a brace that is not among the tokens it stands for. In a
block that brace is the one that closes it.
-/

namespace Slate

open Slate.Parser (Charged resume resume_cons_suffix)

/-! ## The expressions of a program -/

mutual

/-- The expressions that a statement and the statements inside it are made of. Operands and
arguments are parts of these. -/
def Stmt.expressions : Stmt → List Expr
  | .define _ _ value _ | .assign _ value _ | .expression value _ | .ret (some value) _ => [value]
  | .function _ _ _ body _ | .block body => body.expressions
  | .ifChain branches none _ => branchExpressions branches
  | .ifChain branches (some body) _ => branchExpressions branches ++ body.expressions
  | .whileLoop test body _ => test :: body.expressions
  | _ => []

/-- The expressions of the statements of a block. -/
def Block.expressions : Block → List Expr
  | .mk statements _ => statementExpressions statements

/-- The expressions of statements. -/
def statementExpressions : List Stmt → List Expr
  | [] => []
  | s :: ss => s.expressions ++ statementExpressions ss

/-- The conditions of the branches of an `if` chain and the expressions they guard. -/
def branchExpressions : List Branch → List Expr
  | [] => []
  | .mk test body _ :: branches => test :: (body.expressions ++ branchExpressions branches)

end

/-- The expressions of a program. -/
def Program.expressions (p : Program) : List Expr := statementExpressions p.statements

/-! ## Layouts -/

/-- The block ends with a closing brace, and what its statements carry, at any depth, lies
strictly inside of it. One of its own statements may instead be an error node that quotes that
brace and points at it. -/
def Block.Encloses (tokens : List Token) (b : Block) : Prop :=
  ∃ closing ∈ tokens, closing.kind = .mark .rightBrace ∧
    b.span.start.Precedes closing.span.start ∧ closing.span.stop = b.span.stop ∧
    ∀ stmt ∈ b.statements, (∀ span ∈ stmt.spans, span.Inside b.span) ∨
      ∃ reason, stmt = .error closing.text reason closing.span

/-- What a tree carries lies over the tokens, and in each of its parts the spans nest. -/
structure Layout (tokens : List Token) (spans : List Span) (expressions : List Expr)
    (blocks : List Block) : Prop where
  anchored : ∀ span ∈ spans, span.Over tokens
  laid : ∀ e ∈ expressions, e.Laid tokens
  enclose : ∀ b ∈ blocks, b.Encloses tokens

/-- The statement is an error node that quotes the closing brace at the front of the tokens. -/
def Stmt.QuotesBrace (rest : List Token) (stmt : Stmt) : Prop :=
  ∃ brace more reason, rest = brace :: more ∧ brace.kind = .mark .rightBrace ∧
    stmt = .error brace.text reason brace.span

variable {ts us inner rest : List Token} {t : Token} {e : Expr} {span : Span} {stmt : Stmt}

theorem Block.Encloses.mono {b : Block} (h : b.Encloses ts) (hsub : ts ⊆ us) : b.Encloses us :=
  h.imp fun _ hclosing => ⟨hsub hclosing.1, hclosing.2⟩

mutual

/-- Every span of an expression is that of one of its parts. -/
theorem Expr.mem_parts_of_mem_spans {span : Span} :
    (e : Expr) → span ∈ e.spans → ∃ part ∈ e.parts, part.span = span
  | .literal _ _, h | .ident _ _, h => ⟨_, Expr.self_mem_parts _, (List.mem_singleton.1 h).symm⟩
  | .binary left _ right _, h => by
    rw [Expr.spans, List.mem_cons, List.mem_append] at h
    obtain rfl | h | h := h
    · exact ⟨_, Expr.self_mem_parts _, rfl⟩
    · obtain ⟨part, hpart, heq⟩ := left.mem_parts_of_mem_spans h
      exact ⟨part, by simp [Expr.parts, hpart], heq⟩
    · obtain ⟨part, hpart, heq⟩ := right.mem_parts_of_mem_spans h
      exact ⟨part, by simp [Expr.parts, hpart], heq⟩
  | .unary _ operand _, h => by
    rw [Expr.spans, List.mem_cons] at h
    obtain rfl | h := h
    · exact ⟨_, Expr.self_mem_parts _, rfl⟩
    · obtain ⟨part, hpart, heq⟩ := operand.mem_parts_of_mem_spans h
      exact ⟨part, by simp [Expr.parts, hpart], heq⟩
  | .call _ arguments _, h => by
    rw [Expr.spans, List.mem_cons] at h
    obtain rfl | h := h
    · exact ⟨_, Expr.self_mem_parts _, rfl⟩
    · obtain ⟨part, hpart, heq⟩ := mem_argumentParts_of_mem_spans arguments h
      exact ⟨part, by simp [Expr.parts, hpart], heq⟩

theorem mem_argumentParts_of_mem_spans {span : Span} :
    (es : List Expr) → span ∈ argumentSpans es → ∃ part ∈ argumentParts es, part.span = span
  | e :: es, h => by
    rw [argumentSpans, List.mem_append] at h
    obtain h | h := h
    · obtain ⟨part, hpart, heq⟩ := e.mem_parts_of_mem_spans h
      exact ⟨part, List.mem_append_left _ hpart, heq⟩
    · obtain ⟨part, hpart, heq⟩ := mem_argumentParts_of_mem_spans es h
      exact ⟨part, List.mem_append_right _ hpart, heq⟩

end

namespace Layout

variable {spans spans' : List Span} {expressions expressions' : List Expr}
variable {blocks blocks' : List Block}

theorem mono (h : Layout ts spans expressions blocks) (hsub : ts ⊆ us) :
    Layout us spans expressions blocks where
  anchored span hspan := (h.anchored span hspan).mono hsub
  laid e he := (h.laid e he).mono hsub
  enclose b hb := (h.enclose b hb).mono hsub

theorem nil : Layout ts [] [] [] :=
  ⟨List.forall_mem_nil _, List.forall_mem_nil _, List.forall_mem_nil _⟩

theorem cons (hspan : span.Over ts) (h : Layout ts spans expressions blocks) :
    Layout ts (span :: spans) expressions blocks :=
  ⟨List.forall_mem_cons.2 ⟨hspan, h.anchored⟩, h.laid, h.enclose⟩

theorem append (h : Layout ts spans expressions blocks)
    (h' : Layout ts spans' expressions' blocks') :
    Layout ts (spans ++ spans') (expressions ++ expressions') (blocks ++ blocks') where
  anchored := List.forall_mem_append.2 ⟨h.anchored, h'.anchored⟩
  laid := List.forall_mem_append.2 ⟨h.laid, h'.laid⟩
  enclose := List.forall_mem_append.2 ⟨h.enclose, h'.enclose⟩

theorem expression (h : e.Laid ts) : Layout ts e.spans [e] [] where
  anchored span hspan := by
    obtain ⟨part, hpart, rfl⟩ := e.mem_parts_of_mem_spans hspan
    exact (h part hpart).anchored
  laid := List.forall_mem_singleton.2 h
  enclose := List.forall_mem_nil _

theorem statements {list : List Stmt}
    (h : ∀ stmt ∈ list, Layout ts stmt.spans stmt.expressions stmt.blocks) :
    Layout ts (statementSpans list) (statementExpressions list) (statementBlocks list) := by
  induction list with
  | nil => exact .nil
  | cons stmt list ih =>
    obtain ⟨hstmt, hlist⟩ := List.forall_mem_cons.1 h
    exact hstmt.append (ih hlist)

end Layout

namespace Stmt.QuotesBrace

theorem layout (h : stmt.QuotesBrace rest) (hrow : InRow rest) :
    Layout rest stmt.spans stmt.expressions stmt.blocks := by
  obtain ⟨brace, more, reason, rfl, -, rfl⟩ := h
  exact .cons (hrow.over_token List.mem_cons_self) .nil

theorem head (h : stmt.QuotesBrace (t :: rest)) : stmt.QuotesBrace [t] := by
  obtain ⟨brace, more, reason, ⟨⟩, hbrace⟩ := h
  exact ⟨t, [], reason, rfl, hbrace⟩

end Stmt.QuotesBrace

/-! ## Parts of statements -/

namespace Grammar

theorem Initializer.laid (h : Initializer ts e rest) (hrow : InRow ts) :
    ∃ inner, ts = inner ++ rest ∧ e.Laid inner := by
  cases h with
  | @mk equal semicolon ts rest e _ hvalue _ =>
    obtain ⟨inner, rfl, he⟩ := hvalue.laid hrow.tail
    exact ⟨equal :: (inner ++ [semicolon]), by simp, he.mono (by simp)⟩

theorem Params.anchored {list : List Param} (h : Params ts list rest) (hrow : InRow ts) :
    ∃ inner, ts = inner ++ rest ∧ ∀ span ∈ list.map Param.span, span.Over inner := by
  induction h with
  | @last name colon type rest =>
    exact ⟨[name, colon, type], rfl, List.forall_mem_singleton.2 (hrow.over_head.mono (by simp))⟩
  | @more name colon type comma ts rest ty list _ _ _ _ _ ih =>
    obtain ⟨inner, rfl, hlist⟩ := ih hrow.tail.tail.tail.tail
    refine ⟨name :: colon :: type :: comma :: inner, rfl, List.forall_mem_cons.2
      ⟨hrow.over_head.mono (by simp), fun span hspan => (hlist span hspan).mono ?_⟩⟩
    exact fun t ht => by simp [ht]

theorem ParamList.anchored {list : List Param} (h : ParamList ts list rest) (hrow : InRow ts) :
    ∃ inner, ts = inner ++ rest ∧ ∀ span ∈ list.map Param.span, span.Over inner := by
  cases h with
  | @none left right => exact ⟨[left, right], rfl, List.forall_mem_nil _⟩
  | @some left right ts rest list _ hlist _ =>
    obtain ⟨inner, rfl, hover⟩ := hlist.anchored hrow.tail
    exact ⟨left :: (inner ++ [right]), by simp, fun span hspan =>
      (hover span hspan).mono (by simp)⟩

theorem ReturnType.split {returns : Option Ty} (h : ReturnType ts returns rest) :
    ∃ inner, ts = inner ++ rest := by
  cases h with
  | none => exact ⟨[], rfl⟩
  | @some arrow type => exact ⟨[arrow, type], rfl⟩

/-- A statement without blocks points at one or two of its tokens, or at its expression. -/
theorem Statement.laid {top : Bool} (h : Statement top ts stmt rest) (hblocks : stmt.blocks = [])
    (hrow : InRow ts) :
    ∃ inner, ts = inner ++ rest ∧ Layout inner stmt.spans stmt.expressions stmt.blocks := by
  cases h with
  | @needs _ word name semicolon =>
    have hpair : InRow ([word, name] ++ semicolon :: rest) := hrow
    have hmerge : InRow ([word] ++ [name]) := hpair.left
    exact ⟨[word, name, semicolon], rfl, .cons
      ((hmerge.over_merge hrow.over_head hrow.tail.over_head).mono (by simp)) .nil⟩
  | @declare _ word name colon type semicolon =>
    exact ⟨[word, name, colon, type, semicolon], rfl,
      .cons (hrow.tail.over_head.mono (by simp)) .nil⟩
  | @define _ word name colon type _ _ _ _ _ _ _ _ hvalue =>
    obtain ⟨inner, rfl, he⟩ := hvalue.laid hrow.tail.tail.tail.tail
    exact ⟨word :: name :: colon :: type :: inner, rfl,
      .cons (hrow.tail.over_head.mono (by simp)) (.expression (he.mono fun t ht => by simp [ht]))⟩
  | @infer _ word name _ _ _ _ _ hvalue =>
    obtain ⟨inner, rfl, he⟩ := hvalue.laid hrow.tail.tail
    exact ⟨word :: name :: inner, rfl,
      .cons (hrow.tail.over_head.mono (by simp)) (.expression (he.mono fun t ht => by simp [ht]))⟩
  | @assign _ name _ _ _ _ hvalue =>
    obtain ⟨inner, rfl, he⟩ := hvalue.laid hrow.tail
    exact ⟨name :: inner, rfl,
      .cons (hrow.over_head.mono (by simp)) (.expression (he.mono (by simp)))⟩
  | @ret _ word semicolon =>
    exact ⟨[word, semicolon], rfl, .cons (hrow.over_head.mono (by simp)) .nil⟩
  | @retValue _ word semicolon _ _ _ _ hvalue =>
    obtain ⟨inner, rfl, he⟩ := hvalue.laid hrow.tail
    exact ⟨word :: (inner ++ [semicolon]), by simp,
      .cons (hrow.over_head.mono (by simp)) (.expression (he.mono (by simp)))⟩
  | @breakLoop _ word semicolon | @continueLoop _ word semicolon =>
    exact ⟨[word, semicolon], rfl, .cons (hrow.over_head.mono (by simp)) .nil⟩
  | @expression _ semicolon _ _ value hvalue =>
    obtain ⟨inner, rfl, he⟩ := hvalue.laid hrow
    have he : value.Laid (inner ++ [semicolon]) := he.mono (by simp)
    exact ⟨inner ++ [semicolon], by simp, .cons he.anchored (.expression he)⟩
  | function _ _ _ _ hbody | block hbody =>
    cases hbody
    cases hblocks
  | whileLoop _ hguarded =>
    obtain ⟨_, _, _, hbody⟩ := hguarded
    cases hbody
    cases hblocks
  | @ifChain _ _ _ _ _ _ _ _ otherwise _ hguarded =>
    obtain ⟨_, _, _, hbody⟩ := hguarded
    cases hbody
    cases otherwise <;> cases hblocks

end Grammar

/-! ## Recovery -/

namespace Parser.Charged

variable {here : List Token} {fault : Fault}

theorem span_eq (h : Charged here t ts fault span) (hk : t.kind ≠ .integer) : span = t.span := by
  cases h with
  | negative literal => exact absurd literal hk
  | unexpected | nestedFunction | integer | string => rfl

/-- A fault points at the token where reading stopped, or at that and the minus before it. -/
theorem anchored (h : Charged here t ts fault span) (hrow : InRow here)
    (hsuffix : t :: ts <:+ here) : ∃ inner, here = inner ++ ts ∧ span.Over inner := by
  cases h with
  | @negative minus _ _ _ hminus =>
    obtain ⟨before, rfl⟩ := hminus
    have hrow := hrow.right
    have hsplit : InRow ([minus, t] ++ ts) := hrow
    have hpair : InRow ([minus] ++ [t]) := hsplit.left
    exact ⟨before ++ [minus, t], by simp,
      (hpair.over_merge hrow.over_head hrow.tail.over_head).mono (by simp)⟩
  | unexpected | nestedFunction | integer | string =>
    obtain ⟨before, rfl⟩ := hsuffix
    exact ⟨before ++ [t], by simp, hrow.right.over_head.mono (by simp)⟩

end Parser.Charged

/-- A block encloses statements that lie between its braces, and error nodes at the second one. -/
theorem Block.encloses {left right : Token} {list : List Stmt}
    (hrow : InRow (left :: (inner ++ [right]))) (hright : right.kind = .mark .rightBrace)
    (h : ∀ stmt ∈ list, (∀ span ∈ stmt.spans, span.Over inner) ∨ stmt.QuotesBrace [right]) :
    (Block.mk list (left.span.merge right.span)).Encloses (left :: (inner ++ [right])) := by
  have hends : InRow ([left] ++ (inner ++ [right])) := hrow
  have hover : right.span.Over (inner ++ [right]) := hrow.tail.over_token (by simp)
  have hstart : left.span.start.Precedes right.span.start :=
    hrow.over_head.nonempty.trans_not (hends.not_precedes hrow.over_head hover)
  have hmerge := hends.merge_eq hrow.over_head hover
  refine ⟨right, by simp, hright, ?_, ?_, fun stmt hstmt => (h stmt hstmt).imp ?_ ?_⟩
  · rw [Block.span, hmerge]
    exact hstart
  · rw [Block.span, hmerge]
  · exact fun hinner span hspan => hrow.inside (hinner span hspan)
  · rintro ⟨_, _, reason, ⟨⟩, -, hquotes⟩
    exact ⟨reason, hquotes⟩

/-! ## Trees with error nodes -/

namespace Recovered

mutual

/-- What is read from tokens in a row is laid out over those that are used up, but for an error
node that quotes the closing brace behind them. -/
theorem Statement.laid : ∀ {top : Bool} {ts rest : List Token} {stmt : Stmt},
    Statement top ts stmt rest → InRow ts → ∃ inner, ts = inner ++ rest ∧
      (Layout inner stmt.spans stmt.expressions stmt.blocks ∨ stmt.QuotesBrace rest)
  | _, _, _, _, .simple h hblocks, hrow => by
    obtain ⟨inner, rfl, hlayout⟩ := h.laid hblocks hrow
    exact ⟨inner, rfl, .inl hlayout⟩
  | _, _, rest, _, @Statement.function word name _ _ _ _ list _ _ _ _ hparams hreturns hbody,
      hrow => by
    obtain ⟨inner, rfl, hlist⟩ := hparams.anchored hrow.tail.tail
    obtain ⟨inner', rfl⟩ := hreturns.split
    obtain ⟨inner'', rfl, hlayout⟩ := hbody.laid hrow.tail.tail.right.right
    refine ⟨word :: name :: (inner ++ (inner' ++ inner'')), by simp, .inl ?_⟩
    have hparams : Layout inner (list.map Param.span) [] [] :=
      ⟨hlist, List.forall_mem_nil _, List.forall_mem_nil _⟩
    exact .cons (hrow.tail.over_head.mono (by simp))
      ((hparams.mono fun t ht => by simp [ht]).append (hlayout.mono fun t ht => by simp [ht]))
  | _, _, rest, _, @Statement.ifChain _ word _ _ _ _ _ _ otherwise _ hguarded halternatives,
      hrow => by
    obtain ⟨inner, rfl, hlayout⟩ := hguarded.laid hrow.tail
    obtain ⟨inner', rfl, hlayout'⟩ := halternatives.laid hrow.tail.right
    have hword : word.span.Over (word :: (inner ++ inner')) := hrow.over_head.mono (by simp)
    have hall := ((hlayout.mono (List.subset_append_left inner inner')).append
      (hlayout'.mono (List.subset_append_right inner inner'))).mono (List.subset_cons_self word _)
    refine ⟨word :: (inner ++ inner'), by simp, .inl ?_⟩
    cases otherwise with
    | none =>
      simpa [Stmt.spans, Stmt.expressions, Stmt.blocks, branchSpans, branchExpressions,
        branchBlocks] using Layout.cons hword (.cons hword hall)
    | some body =>
      simpa [Stmt.spans, Stmt.expressions, Stmt.blocks, branchSpans, branchExpressions,
        branchBlocks] using Layout.cons hword (.cons hword hall)
  | _, _, _, _, @Statement.whileLoop _ word _ _ _ _ _ hguarded, hrow => by
    obtain ⟨inner, rfl, hlayout⟩ := hguarded.laid hrow.tail
    exact ⟨word :: inner, rfl, .inl (.cons (hrow.over_head.mono (by simp))
      (hlayout.mono (List.subset_cons_self word inner)))⟩
  | _, _, _, _, .block hbody, hrow => by
    obtain ⟨inner, rfl, hlayout⟩ := hbody.laid hrow
    exact ⟨inner, rfl, .inl hlayout⟩
  | _, _, _, _, @Statement.error _ first t others ts _ _ _ hsuffix hcharged, hrow => by
    by_cases hbrace : t.kind = .mark .rightBrace
    · have hresume := Parser.resume_of_brace ts hbrace
      obtain ⟨inner, hinner⟩ := hsuffix
      exact ⟨inner, by rw [hresume, hinner], .inr ⟨t, ts, _, hresume, hbrace,
        by rw [hcharged.span_eq (by simp [hbrace])]⟩⟩
    · obtain ⟨inner, hinner, hover⟩ := hcharged.anchored hrow hsuffix
      obtain ⟨skipped, hskipped⟩ := resume_cons_suffix ts hbrace
      exact ⟨inner ++ skipped, by rw [List.append_assoc, hskipped, hinner],
        .inl (.cons (hover.mono (by simp)) .nil)⟩
  | _, _, _, _, .stray _ hcharged, hrow => by
    obtain ⟨inner, hinner, hover⟩ := hcharged.anchored hrow List.suffix_rfl
    exact ⟨inner, hinner, .inl (.cons hover .nil)⟩

theorem Braces.laid : ∀ {ts rest : List Token} {body : Block},
    Braces ts body rest → InRow ts → ∃ inner, ts = inner ++ rest ∧
      Layout inner body.spans body.expressions body.blocks
  | _, _, _, @Braces.mk left right _ rest list _ hlist hright, hrow => by
    obtain ⟨inner, rfl, hall⟩ := hlist.laid rfl hrow.tail
    have hall := fun stmt hstmt => (hall stmt hstmt).imp_right Stmt.QuotesBrace.head
    have hsplit : InRow ((left :: (inner ++ [right])) ++ rest) := by simpa using hrow
    have hrow := hsplit.left
    have hends : InRow ([left] ++ (inner ++ [right])) := hrow
    have hlayout := Layout.statements fun stmt hstmt => (hall stmt hstmt).elim
      (fun h => (h.mono (by simp)).mono (List.subset_cons_self left (inner ++ [right])))
      fun h => (h.layout hrow.tail.right).mono (by simp)
    have hencloses := Block.encloses hrow hright fun stmt hstmt =>
      (hall stmt hstmt).imp_left Layout.anchored
    exact ⟨left :: (inner ++ [right]), by simp, {
      anchored := List.forall_mem_cons.2
        ⟨hends.over_merge hrow.over_head (hrow.tail.over_token (by simp)), hlayout.anchored⟩
      laid := hlayout.laid
      enclose := List.forall_mem_cons.2 ⟨hencloses, hlayout.enclose⟩ }⟩

theorem Guarded.laid : ∀ {ts rest : List Token} {test : Expr} {body : Block},
    Guarded ts test body rest → InRow ts → ∃ inner, ts = inner ++ rest ∧
      Layout inner (test.spans ++ body.spans) (test :: body.expressions) body.blocks
  | _, _, _, _, @Guarded.mk left right _ _ _ _ _ _ htest _ hbody, hrow => by
    obtain ⟨inner, rfl, he⟩ := htest.laid hrow.tail
    obtain ⟨inner', rfl, hlayout⟩ := hbody.laid hrow.tail.right.tail
    refine ⟨left :: (inner ++ right :: inner'), by simp, ?_⟩
    exact (Layout.expression (he.mono fun t ht => by simp [ht])).append
      (hlayout.mono fun t ht => by simp [ht])

theorem Alternatives.laid : ∀ {ts rest : List Token} {branches : List Branch}
    {otherwise : Option Block}, Alternatives ts branches otherwise rest → InRow ts →
    ∃ inner, ts = inner ++ rest ∧
      Layout inner (branchSpans branches ++ otherwise.elim [] Block.spans)
        (branchExpressions branches ++ otherwise.elim [] Block.expressions)
        (branchBlocks branches ++ otherwise.elim [] Block.blocks)
  | _, _, _, _, .none, _ => ⟨[], rfl, .nil⟩
  | _, _, _, _, @Alternatives.last word _ _ _ _ hbody, hrow => by
    obtain ⟨inner, rfl, hlayout⟩ := hbody.laid hrow.tail
    exact ⟨word :: inner, rfl, hlayout.mono (List.subset_cons_self word inner)⟩
  | _, rest, _, _, @Alternatives.more word word' _ _ _ _ _ _ _ _ _ hguarded halternatives,
      hrow => by
    obtain ⟨inner, rfl, hlayout⟩ := hguarded.laid hrow.tail.tail
    obtain ⟨inner', rfl, hlayout'⟩ := halternatives.laid hrow.tail.tail.right
    have hsplit : InRow ([word, word'] ++ ((inner ++ inner') ++ rest)) := by simpa using hrow
    have hpair : InRow ([word] ++ [word']) := hsplit.left
    have hall := ((hlayout.mono (List.subset_append_left inner inner')).append
      (hlayout'.mono (List.subset_append_right inner inner'))).mono
      (List.subset_append_right [word, word'] _)
    have hspan := (hpair.over_merge hrow.over_head hrow.tail.over_head).mono
      (List.subset_append_left [word, word'] (inner ++ inner'))
    refine ⟨[word, word'] ++ (inner ++ inner'), by simp, ?_⟩
    simpa [branchSpans, branchExpressions, branchBlocks] using Layout.cons hspan hall

theorem Statements.laid : ∀ {top : Bool} {ts rest : List Token} {list : List Stmt},
    Statements top ts list rest → top = false → InRow ts → ∃ inner, ts = inner ++ rest ∧
      ∀ stmt ∈ list, Layout inner stmt.spans stmt.expressions stmt.blocks ∨ stmt.QuotesBrace rest
  | _, _, _, _, .none, _, _ => ⟨[], rfl, List.forall_mem_nil _⟩
  | _, _, _, _, .more hfirst hlist, htop, hrow => by
    obtain ⟨inner, rfl, hstmt⟩ := hfirst.laid hrow
    obtain ⟨inner', hmid, hall⟩ := hlist.laid htop hrow.right
    refine ⟨inner ++ inner', by rw [hmid, List.append_assoc], List.forall_mem_cons.2
      ⟨?_, fun stmt hmem => (hall stmt hmem).imp_left fun h => h.mono (by simp)⟩⟩
    obtain hlayout | ⟨brace, more, reason, rfl, hbrace, hquotes⟩ := hstmt
    · exact .inl (hlayout.mono (by simp))
    · -- behind the node stands the brace that ends the block
      rw [htop] at hlist
      exact .inr ⟨brace, more, reason, (hlist.of_brace hbrace).2, hbrace, hquotes⟩

end

/-- At the top, too, what is read is laid out over the tokens it is read from. -/
theorem Statements.layout {top : Bool} {list : List Stmt} (h : Statements top ts list rest)
    (hrow : InRow ts) :
    Layout ts (statementSpans list) (statementExpressions list) (statementBlocks list) := by
  induction list generalizing ts with
  | nil => exact .nil
  | cons stmt list ih =>
    cases h with
    | @more _ _ mid _ _ _ hfirst hlist =>
      obtain ⟨inner, rfl, hstmt⟩ := hfirst.laid hrow
      have hstmt : Layout (inner ++ mid) stmt.spans stmt.expressions stmt.blocks :=
        hstmt.elim (fun h => h.mono (List.subset_append_left inner mid)) fun h =>
          (h.layout hrow.right).mono (List.subset_append_right inner mid)
      exact hstmt.append ((ih hlist hrow.right).mono (List.subset_append_right inner mid))

end Recovered

/-! ## Programs -/

/-- The spans of a program nest. That of an expression goes from the start of a token to the stop
of one and is not empty, those of its operands or arguments lie within it, and each of these ends
before the next one starts. What the statements of a block carry lies strictly inside of the
block, but for an error node that quotes the brace at its end. -/
theorem spans_nest {source : String} {tokens : List Token} {program : Program}
    (htokens : tokenize source = .ok tokens) (hprogram : parse tokens = .ok program) :
    (∀ e ∈ program.expressions, e.Laid tokens) ∧ ∀ b ∈ program.blocks, b.Encloses tokens := by
  have hread := recovered_of_parse (wellSpelled_of_tokenize htokens) hprogram
  have hlayout := hread.layout (inRow_of_tokenize htokens)
  exact ⟨hlayout.laid, hlayout.enclose⟩

/-- What is computed from the tokens and the program of a source is computed from what the lexer
and the parser yield. -/
theorem exists_of_run {α : Type} {source : String} {f : Program → α} {a : α}
    (h : (tokenize source).toOption.bind (fun tokens => (parse tokens).toOption.map f) = some a) :
    ∃ tokens program, tokenize source = .ok tokens ∧ parse tokens = .ok program ∧
      f program = a := by
  cases htokens : tokenize source with
  | error d => rw [htokens] at h; cases h
  | ok tokens =>
    rw [htokens] at h
    cases hprogram : parse tokens with
    | error d => simp [Except.toOption, hprogram] at h
    | ok program =>
      exact ⟨tokens, program, rfl, hprogram, by simpa [Except.toOption, hprogram] using h⟩

/-- Operands behind one another, with a minus of its own and one that belongs to a literal, and a
block whose last statement lacks its semicolon. -/
def unfinishedSource : String := "\x7b x = f(1, -2) * -(y + 3); while (x < 9) \x7b x = 9 \x7d \x7d"

theorem spans_nest_unfinishedSource :
    ∃ tokens program, tokenize unfinishedSource = .ok tokens ∧ parse tokens = .ok program ∧
      program.expressions.map (fun e => (e.span.start.offset, e.span.stop.offset)) =
        [(6, 24), (34, 39)] ∧
      program.blocks.map (fun b => (b.span.start.offset, b.span.stop.offset)) =
        [(0, 52), (41, 50)] ∧
      (∀ e ∈ program.expressions, e.Laid tokens) ∧ ∀ b ∈ program.blocks, b.Encloses tokens := by
  have hrun : (tokenize unfinishedSource).toOption.bind (fun tokens =>
      (parse tokens).toOption.map fun program =>
        (program.expressions.map fun e => (e.span.start.offset, e.span.stop.offset),
          program.blocks.map fun b => (b.span.start.offset, b.span.stop.offset))) =
      some ([(6, 24), (34, 39)], [(0, 52), (41, 50)]) := by
    decide +kernel
  obtain ⟨tokens, program, htokens, hprogram, hvalue⟩ := exists_of_run hrun
  obtain ⟨hexpressions, hblocks⟩ := Prod.mk.inj hvalue
  exact ⟨tokens, program, htokens, hprogram, hexpressions, hblocks,
    spans_nest htokens hprogram⟩

/-- In `{ x }` a semicolon is due at the brace. The error node points there, and so it ends where
the block ends. -/
theorem error_not_inside_block :
    ∃ tokens program, tokenize "\x7b x \x7d" = .ok tokens ∧ parse tokens = .ok program ∧
      ∃ b ∈ program.blocks, ∃ stmt ∈ b.statements, ∃ span ∈ stmt.spans,
        span.stop = b.span.stop ∧ ¬ span.Inside b.span := by
  have hrun : (tokenize "\x7b x \x7d").toOption.bind (fun tokens =>
      (parse tokens).toOption.map fun program => program.blocks.any fun b =>
        b.statements.any fun stmt => stmt.spans.any fun span =>
          decide (span.stop = b.span.stop)) = some true := by
    decide +kernel
  obtain ⟨tokens, program, htokens, hprogram, hvalue⟩ := exists_of_run hrun
  simp only [List.any_eq_true, decide_eq_true_eq] at hvalue
  obtain ⟨b, hb, stmt, hstmt, span, hspan, hstop⟩ := hvalue
  refine ⟨tokens, program, htokens, hprogram, b, hb, stmt, hstmt, span, hspan, hstop, ?_⟩
  intro hinside
  exact Location.not_precedes_self _ (hstop ▸ hinside.2)

end Slate
