-- SUMMARY: The spans of an expression nest: operands lie within the whole, one behind the other, and all begin and end with tokens.
import Slate.Proofs.Syntax.Parts
import Slate.Proofs.Syntax.Quoting

/-!
# The layout of expressions

A span is made by merging the spans of what a node is made of, and merging compares lines and
columns only. As the tokens of a source stand one behind the other, the merge of what stands
before and what stands behind goes from the start of the one to the stop of the other. So by
induction on the derivation, the span of an expression begins with one of the tokens that spell
it and ends with one; parentheses around it are not counted. What is read before an operator or
a comma ends before it, and what is read behind it starts behind it.
-/

namespace Slate

/-! ## Spans in order -/

namespace Span

variable {a b c : Span}

/-- The first span lies in the second one; they may share their ends. -/
def Within (a b : Span) : Prop := ¬ a.start.Precedes b.start ∧ ¬ b.stop.Precedes a.stop

/-- The first span lies in the second one and reaches neither of its ends. -/
def Inside (a b : Span) : Prop := b.start.Precedes a.start ∧ a.stop.Precedes b.stop

/-- The first span ends before the second one starts. -/
def Before (a b : Span) : Prop := a.stop.Precedes b.start

theorem Inside.within (h : a.Inside b) : a.Within b := ⟨h.1.asymm, h.2.asymm⟩

/-- A merge of two spans in order goes from the start of the first to the stop of the second. -/
theorem merge_eq (hstart : a.start.Precedes b.start) (hstop : a.stop.Precedes b.stop) :
    a.merge b = ⟨a.start, b.stop⟩ := by
  rw [merge, if_pos hstart, if_neg hstop.asymm]

/-- The span begins with one of these tokens and ends with one, and it is not empty. -/
structure Over (tokens : List Token) (span : Span) : Prop where
  starts : ∃ t ∈ tokens, span.start = t.span.start
  stops : ∃ t ∈ tokens, span.stop = t.span.stop
  nonempty : span.start.Precedes span.stop

theorem Over.mono {ts us : List Token} {span : Span} (h : span.Over ts) (hsub : ts ⊆ us) :
    span.Over us where
  starts := h.starts.imp fun _ ht => ⟨hsub ht.1, ht.2⟩
  stops := h.stops.imp fun _ ht => ⟨hsub ht.1, ht.2⟩
  nonempty := h.nonempty

end Span

/-! ## Tokens in a row -/

/-- The tokens stand one behind the other, and none of them is empty. -/
structure InRow (tokens : List Token) : Prop where
  nonempty : ∀ t ∈ tokens, t.span.start.Precedes t.span.stop
  apart : tokens.Pairwise fun a b => ¬ b.span.start.Precedes a.span.stop

theorem inRow_of_tokenize {source : String} {tokens : List Token}
    (h : tokenize source = .ok tokens) : InRow tokens where
  nonempty t ht := by
    have hin := tokenize_inSource h t ht
    rw [hin.located]
    exact Lines.location_precedes_iff.2 hin.nonempty
  apart := (inOrder_of_tokenize h).apart

namespace InRow

variable {ts us : List Token} {t u : Token} {a b : Span}

theorem left (h : InRow (ts ++ us)) : InRow ts where
  nonempty t ht := h.nonempty t (List.mem_append_left us ht)
  apart := (List.pairwise_append.1 h.apart).1

theorem right (h : InRow (ts ++ us)) : InRow us where
  nonempty t ht := h.nonempty t (List.mem_append_right ts ht)
  apart := (List.pairwise_append.1 h.apart).2.1

theorem tail (h : InRow (t :: ts)) : InRow ts := by
  have hpair : InRow ([t] ++ ts) := h
  exact hpair.right

theorem over_token (h : InRow ts) (ht : t ∈ ts) : t.span.Over ts where
  starts := ⟨t, ht, rfl⟩
  stops := ⟨t, ht, rfl⟩
  nonempty := h.nonempty t ht

theorem over_head (h : InRow (t :: ts)) : t.span.Over [t] := by
  have hpair : InRow ([t] ++ ts) := h
  exact hpair.left.over_token List.mem_cons_self

/-- What lies over tokens further on does not start before the first span stops. -/
theorem not_precedes (h : InRow (ts ++ us)) (ha : a.Over ts) (hb : b.Over us) :
    ¬ b.start.Precedes a.stop := by
  obtain ⟨t, ht, hstop⟩ := ha.stops
  obtain ⟨u, hu, hstart⟩ := hb.starts
  rw [hstop, hstart]
  exact (List.pairwise_append.1 h.apart).2.2 t ht u hu

/-- With a token in between, the one span ends before the other starts. -/
theorem before (h : InRow (ts ++ t :: us)) (ha : a.Over ts) (hb : b.Over us) : a.Before b := by
  have hpair : InRow ([t] ++ us) := h.right
  have ht : t.span.Over (t :: us) := h.right.over_token List.mem_cons_self
  exact Location.precedes_of_not (h.not_precedes ha ht)
    (ht.nonempty.trans_not (hpair.not_precedes h.right.over_head hb))

theorem merge_eq (h : InRow (ts ++ us)) (ha : a.Over ts) (hb : b.Over us) :
    a.merge b = ⟨a.start, b.stop⟩ :=
  have hab := h.not_precedes ha hb
  Span.merge_eq (ha.nonempty.trans_not hab) (Location.precedes_of_not hab hb.nonempty)

theorem over_merge (h : InRow (ts ++ us)) (ha : a.Over ts) (hb : b.Over us) :
    (a.merge b).Over (ts ++ us) := by
  rw [h.merge_eq ha hb]
  exact {
    starts := (ha.mono (List.subset_append_left ts us)).starts
    stops := (hb.mono (List.subset_append_right ts us)).stops
    nonempty := (ha.nonempty.trans_not (h.not_precedes ha hb)).trans hb.nonempty }

/-- Each of two spans lies within their merge. -/
theorem within_merge (h : InRow (ts ++ us)) (ha : a.Over ts) (hb : b.Over us) :
    a.Within (a.merge b) ∧ b.Within (a.merge b) := by
  rw [h.merge_eq ha hb]
  have hab := h.not_precedes ha hb
  exact ⟨⟨Location.not_precedes_self _, (Location.precedes_of_not hab hb.nonempty).asymm⟩,
    ⟨(ha.nonempty.trans_not hab).asymm, Location.not_precedes_self _⟩⟩

/-- What lies between two tokens lies strictly inside of the span from the one to the other. -/
theorem inside (h : InRow (t :: (ts ++ [u]))) (ha : a.Over ts) :
    a.Inside (t.span.merge u.span) := by
  have hends : InRow ([t] ++ (ts ++ [u])) := h
  have hfirst := hends.not_precedes h.over_head (ha.mono (List.subset_append_left ts [u]))
  have hlast := h.tail.not_precedes ha h.tail.right.over_head
  rw [hends.merge_eq h.over_head (h.tail.over_token (by simp))]
  exact ⟨h.over_head.nonempty.trans_not hfirst,
    Location.precedes_of_not hlast h.tail.right.over_head.nonempty⟩

end InRow

/-! ## Laid out expressions -/

/-- The operands of an operator, or the arguments of a call. -/
def Expr.operands : Expr → List Expr
  | .binary left _ right _ => [left, right]
  | .unary _ operand _ => [operand]
  | .call _ arguments _ => arguments
  | .literal .. | .ident .. => []

/-- The span of the expression begins and ends with one of the tokens, the spans of its operands
lie within it, and each operand ends before the next one starts. -/
structure Expr.Nests (tokens : List Token) (e : Expr) : Prop where
  anchored : e.span.Over tokens
  within : ∀ operand ∈ e.operands, operand.span.Within e.span
  ordered : e.operands.Pairwise fun a b => a.span.Before b.span

/-- The spans nest all through the expression. -/
def Expr.Laid (tokens : List Token) (e : Expr) : Prop := ∀ part ∈ e.parts, part.Nests tokens

namespace Expr

variable {ts us : List Token} {t : Token} {e left right : Expr} {list : List Expr} {span : Span}

theorem Nests.mono (h : e.Nests ts) (hsub : ts ⊆ us) : e.Nests us where
  anchored := h.anchored.mono hsub
  within := h.within
  ordered := h.ordered

namespace Laid

theorem mono (h : e.Laid ts) (hsub : ts ⊆ us) : e.Laid us :=
  fun part hpart => (h part hpart).mono hsub

theorem anchored (h : e.Laid ts) : e.span.Over ts := (h e e.self_mem_parts).anchored

theorem literal {value : Value} (h : span.Over ts) : (Expr.literal value span).Laid ts :=
  List.forall_mem_singleton.2 ⟨h, List.forall_mem_nil _, .nil⟩

theorem ident {name : String} (h : span.Over ts) : (Expr.ident name span).Laid ts :=
  List.forall_mem_singleton.2 ⟨h, List.forall_mem_nil _, .nil⟩

theorem join {op : BinaryOp} (hrow : InRow (ts ++ t :: us)) (hleft : left.Laid ts)
    (hright : right.Laid us) : (left.join op right).Laid (ts ++ t :: us) := by
  have hover : right.span.Over (t :: us) := hright.anchored.mono (List.subset_cons_self t us)
  obtain ⟨hleft', hright'⟩ := hrow.within_merge hleft.anchored hover
  simp only [Laid, Expr.join, Expr.parts, List.forall_mem_append, List.forall_mem_singleton]
  refine ⟨⟨hleft.mono (by simp), hright.mono (by simp)⟩, ?_⟩
  exact {
    anchored := hrow.over_merge hleft.anchored hover
    within := List.forall_mem_cons.2 ⟨hleft', List.forall_mem_singleton.2 hright'⟩
    ordered := List.pairwise_pair.2 (hrow.before hleft.anchored hright.anchored) }

theorem unary {op : UnaryOp} (hrow : InRow (t :: ts)) (he : e.Laid ts) :
    (Expr.unary op e (t.span.merge e.span)).Laid (t :: ts) := by
  have hpair : InRow ([t] ++ ts) := hrow
  simp only [Laid, Expr.parts, List.forall_mem_append, List.forall_mem_singleton]
  exact ⟨he.mono (List.subset_cons_self t ts), {
    anchored := hpair.over_merge hrow.over_head he.anchored
    within := List.forall_mem_singleton.2 (hpair.within_merge hrow.over_head he.anchored).2
    ordered := List.pairwise_singleton _ _ }⟩

theorem argumentParts {list : List Expr} (h : ∀ e ∈ list, e.Laid ts) :
    ∀ part ∈ argumentParts list, part.Nests ts := by
  induction list with
  | nil => exact List.forall_mem_nil _
  | cons e list ih =>
    obtain ⟨he, hlist⟩ := List.forall_mem_cons.1 h
    exact List.forall_mem_append.2 ⟨he, ih hlist⟩

theorem call {callee : String} {name close : Token} (hrow : InRow (name :: (ts ++ [close])))
    (hlist : ∀ e ∈ list, e.Laid ts)
    (hordered : list.Pairwise fun a b => a.span.Before b.span) :
    (Expr.call callee list (name.span.merge close.span)).Laid (name :: (ts ++ [close])) := by
  have hends : InRow ([name] ++ (ts ++ [close])) := hrow
  have hclose : close.span.Over (ts ++ [close]) := hrow.tail.over_token (by simp)
  simp only [Laid, Expr.parts, List.forall_mem_append, List.forall_mem_singleton]
  exact ⟨argumentParts fun e he => (hlist e he).mono (by simp), {
    anchored := hends.over_merge hrow.over_head hclose
    within := fun e he => (hrow.inside (hlist e he).anchored).within
    ordered := hordered }⟩

end Laid

end Expr

/-! ## Derivations -/

namespace Grammar

mutual

/-- What is derived from tokens in a row is laid out over those that are used up. -/
theorem Level.laid : ∀ {tables : List Operators} {ts rest : List Token} {e : Expr},
    Level tables ts e rest → InRow ts → ∃ inner, ts = inner ++ rest ∧ e.Laid inner
  | _, _, _, _, .unary h, hrow => h.laid hrow
  | _, _, _, _, .joined h more, hrow => by
    obtain ⟨inner, rfl, he⟩ := h.laid hrow
    obtain ⟨inner', rfl, hall⟩ := more.laid hrow he
    exact ⟨inner ++ inner', (List.append_assoc ..).symm, hall⟩

theorem Operands.laid : ∀ {table : Operators} {tighter : List Operators} {ts rest : List Token}
    {more : List (BinaryOp × Expr)}, Operands table tighter ts more rest →
    ∀ {before : List Token} {left : Expr}, InRow (before ++ ts) → left.Laid before →
      ∃ inner, ts = inner ++ rest ∧ (joinAll left more).Laid (before ++ inner)
  | _, _, _, _, _, .none, before, _, _, hleft => ⟨[], rfl, by rwa [List.append_nil]⟩
  | _, _, _, rest, _, @Operands.more _ _ operator _ mid _ _ _ _ _ _ _ hright more, before, left,
      hrow, hleft => by
    obtain ⟨inner, rfl, he⟩ := hright.laid hrow.right.tail
    have hjoined : InRow ((before ++ operator :: inner) ++ mid) := by
      rw [List.append_assoc, List.cons_append]
      exact hrow
    obtain ⟨inner', rfl, hall⟩ := more.laid hjoined (hleft.join hjoined.left he)
    exact ⟨operator :: (inner ++ inner'), by simp, by simpa [joinAll] using hall⟩

theorem Unary.laid : ∀ {ts rest : List Token} {e : Expr},
    Unary ts e rest → InRow ts → ∃ inner, ts = inner ++ rest ∧ e.Laid inner
  | _, rest, _, @Unary.negative minus digits _ _ _ _ _ _, hrow => by
    have hboth : InRow ([minus, digits] ++ rest) := hrow
    have hpair : InRow ([minus] ++ [digits]) := hboth.left
    exact ⟨[minus, digits], rfl, .literal (hpair.over_merge hrow.over_head hrow.tail.over_head)⟩
  | _, rest, _, @Unary.negate minus _ _ _ _ _ h, hrow => by
    obtain ⟨inner, rfl, he⟩ := h.laid hrow.tail
    have hsplit : InRow ((minus :: inner) ++ rest) := hrow
    exact ⟨minus :: inner, rfl, .unary hsplit.left he⟩
  | _, rest, _, @Unary.not bang _ _ _ _ h, hrow => by
    obtain ⟨inner, rfl, he⟩ := h.laid hrow.tail
    have hsplit : InRow ((bang :: inner) ++ rest) := hrow
    exact ⟨bang :: inner, rfl, .unary hsplit.left he⟩
  | _, _, _, .primary h, hrow => h.laid hrow

theorem Primary.laid : ∀ {ts rest : List Token} {e : Expr},
    Primary ts e rest → InRow ts → ∃ inner, ts = inner ++ rest ∧ e.Laid inner
  | _, _, _, .integer .., hrow | _, _, _, .string .., hrow
  | _, _, _, .true .., hrow | _, _, _, .false .., hrow =>
    ⟨[_], rfl, .literal hrow.over_head⟩
  | _, _, _, .ident .., hrow => ⟨[_], rfl, .ident hrow.over_head⟩
  | _, rest, _, @Primary.call name left right _ _ _ _, hrow => by
    have hsplit : InRow ((name :: ([left] ++ [right])) ++ rest) := hrow
    exact ⟨[name, left, right], rfl, .call hsplit.left (List.forall_mem_nil _) .nil⟩
  | _, rest, _, @Primary.callWith name left right _ _ _ _ _ h _, hrow => by
    obtain ⟨inner, rfl, hlist, hordered⟩ := h.laid hrow.tail.tail
    have hsplit : InRow ((name :: ((left :: inner) ++ [right])) ++ rest) := by simpa using hrow
    exact ⟨name :: ((left :: inner) ++ [right]), by simp,
      .call hsplit.left (fun e he => (hlist e he).mono (List.subset_cons_self left inner)) hordered⟩
  | _, _, _, @Primary.parens left right _ _ _ _ h _, hrow => by
    obtain ⟨inner, rfl, he⟩ := h.laid hrow.tail
    exact ⟨left :: (inner ++ [right]), by simp, he.mono (by simp)⟩

theorem Arguments.laid : ∀ {ts rest : List Token} {list : List Expr},
    Arguments ts list rest → InRow ts → ∃ inner, ts = inner ++ rest ∧
      (∀ e ∈ list, e.Laid inner) ∧ list.Pairwise fun a b => a.span.Before b.span
  | _, _, _, .last h, hrow => by
    obtain ⟨inner, rfl, he⟩ := h.laid hrow
    exact ⟨inner, rfl, List.forall_mem_singleton.2 he, List.pairwise_singleton _ _⟩
  | _, rest, _, @Arguments.more comma _ _ _ _ _ h _ more, hrow => by
    obtain ⟨inner, rfl, he⟩ := h.laid hrow
    obtain ⟨inner', rfl, hlist, hordered⟩ := more.laid hrow.right.tail
    have hsplit : InRow ((inner ++ comma :: inner') ++ rest) := by simpa using hrow
    refine ⟨inner ++ comma :: inner', by simp, List.forall_mem_cons.2
      ⟨he.mono (by simp), fun e he => (hlist e he).mono (by simp)⟩, ?_⟩
    exact List.pairwise_cons.2
      ⟨fun e' he' => hsplit.left.before he.anchored (hlist e' he').anchored, hordered⟩

end

end Grammar

end Slate
