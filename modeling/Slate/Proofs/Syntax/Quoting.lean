-- SUMMARY: Every error node quotes a token of the stream and points at it, and the error nodes stand in the order of the source.
import Slate.Proofs.Syntax.Walk.Statement
import Slate.Proofs.Token.Located

/-!
# What error nodes quote

The text of an error node is taken from the state that the failure leaves, its span from the
failure itself, which was made earlier. The two agree because no reader moves on between
raising a fault and handing it up: the course of a run keeps both from the same token. Only
an integer literal out of range points at more than it quotes, if a minus belongs to it.
From one error node to the next, reading moves on; only a closing brace, at which recovery
stops, can be quoted once by the statement before it and once more on its own.
-/

namespace Slate

/-! ## Tokens in order -/

/-- The spans of the tokens go forward and do not overlap, by line and column. -/
structure InOrder (tokens : List Token) : Prop where
  forward : ∀ t ∈ tokens, ¬ t.span.stop.Precedes t.span.start
  apart : tokens.Pairwise fun a b => ¬ b.span.start.Precedes a.span.stop

theorem InOrder.apart_of_lt {tokens : List Token} (h : InOrder tokens) {i j : Nat} {t u : Token}
    (ht : tokens[i]? = some t) (hu : tokens[j]? = some u) (hij : i < j) :
    ¬ u.span.start.Precedes t.span.stop := by
  obtain ⟨hi, rfl⟩ := List.getElem?_eq_some_iff.1 ht
  obtain ⟨hj, rfl⟩ := List.getElem?_eq_some_iff.1 hu
  exact List.pairwise_iff_getElem.1 h.apart i j hi hj hij

/-- The lexer yields tokens in order. -/
theorem inOrder_of_tokenize {source : String} {tokens : List Token}
    (h : tokenize source = .ok tokens) : InOrder tokens := by
  have hin := tokenize_inSource h
  have hprecedes : ∀ {l m : Location} {i j : Nat},
      l = (Lines.ofText source.toList).location i → m = (Lines.ofText source.toList).location j →
        i ≤ j → ¬ m.Precedes l := by
    rintro _ _ i j rfl rfl hij
    rw [Lines.location_precedes_iff]
    omega
  have hstart : ∀ t ∈ tokens, t.span.start =
      (Lines.ofText source.toList).location t.span.start.offset :=
    fun t ht => congrArg Span.start (hin t ht).located
  have hstop : ∀ t ∈ tokens, t.span.stop =
      (Lines.ofText source.toList).location t.span.stop.offset :=
    fun t ht => congrArg Span.stop (hin t ht).located
  refine ⟨fun t ht => hprecedes (hstart t ht) (hstop t ht) (Nat.le_of_lt (hin t ht).nonempty), ?_⟩
  obtain ⟨offset, hreached⟩ := tokenize_eq_ok_iff.1 h
  have hpairwise := (hreached.interleaves (.last .nil)).pairwise
  rw [List.append_nil] at hpairwise
  exact hpairwise.imp_of_mem fun {a b} ha hb hab => hprecedes (hstop a ha) (hstart b hb) hab.2

/-! ## Quotations -/

/-- The tokens that an error node is about, by their numbers in the stream: the one at which
its span begins, and the one it quotes. -/
structure Quotation where
  first : Nat
  quoted : Nat

/-- The node quotes a token and ends where it ends. Its span is that of the token, or, if the
token is an integer literal out of range and a minus stands directly before it, that of both. -/
def ErrorNode.Quotes (tokens : List Token) (node : ErrorNode) (q : Quotation) : Prop :=
  ∃ t, tokens[q.quoted]? = some t ∧ node.text = t.text ∧ node.span.stop = t.span.stop ∧
    (q.first = q.quoted ∧ node.span = t.span ∨
      ∃ minus, tokens[q.first]? = some minus ∧ q.first + 1 = q.quoted ∧
        minus.kind = .mark .minus ∧ t.kind = .integer ∧
        Literal.integer? true t.text = none ∧ node.reason = Fault.integerOutOfRange.reason ∧
        node.span = minus.span.merge t.span)

/-- The quotation ends before the token with this number, or with it, if it is a closing
brace. -/
def Quotation.EndsBy (tokens : List Token) (q : Quotation) (i : Nat) : Prop :=
  q.quoted < i ∨ q.quoted = i ∧ ∃ t, tokens[q.quoted]? = some t ∧ t.kind = .mark .rightBrace

/-- The one quotation ends before the other begins, or both begin with the same brace. -/
def Quotation.Before (tokens : List Token) (q r : Quotation) : Prop := q.EndsBy tokens r.first

theorem Quotation.EndsBy.mono {tokens : List Token} {q : Quotation} {i j : Nat}
    (h : q.EndsBy tokens i) (hij : i ≤ j) : q.EndsBy tokens j := by
  obtain hlt | ⟨rfl, hbrace⟩ := h
  · exact .inl (hlt.trans_le hij)
  · obtain hlt | rfl := Nat.lt_or_eq_of_le hij
    · exact .inl hlt
    · exact .inr ⟨rfl, hbrace⟩

namespace Parser

variable {tokens here there ts : List Token} {t : Token}

/-- The number of the token with which the end `ts` of a stream begins. -/
def indexOf (tokens ts : List Token) : Nat := tokens.length - ts.length

theorem indexOf_mono (tokens : List Token) (h : there <:+ here) :
    indexOf tokens here ≤ indexOf tokens there :=
  Nat.sub_le_sub_left h.length_le _

theorem getElem?_indexOf (h : t :: ts <:+ tokens) : tokens[indexOf tokens (t :: ts)]? = some t := by
  obtain ⟨before, rfl⟩ := h
  rw [indexOf, List.length_append, Nat.add_sub_cancel, List.getElem?_append_right le_rfl,
    Nat.sub_self, List.getElem?_cons_zero]

theorem indexOf_cons (h : t :: ts <:+ tokens) :
    indexOf tokens ts = indexOf tokens (t :: ts) + 1 := by
  have := h.length_le
  rw [List.length_cons] at this
  unfold indexOf
  rw [List.length_cons]
  omega

/-- The fault of a statement is quoted with the token where reading stopped. -/
theorem Charged.quotes (hordered : InOrder tokens) (hhere : here <:+ tokens)
    (hsuffix : t :: ts <:+ here) {fault : Fault} {span : Span}
    (h : Charged here t ts fault span) :
    ∃ q : Quotation, ErrorNode.Quotes tokens ⟨t.text, fault.reason, span⟩ q ∧
      q.quoted = indexOf tokens (t :: ts) ∧ indexOf tokens here ≤ q.first := by
  have hquoted := getElem?_indexOf (hsuffix.trans hhere)
  have hsame : span = t.span → ∃ q : Quotation,
      ErrorNode.Quotes tokens ⟨t.text, fault.reason, span⟩ q ∧
        q.quoted = indexOf tokens (t :: ts) ∧ indexOf tokens here ≤ q.first := by
    rintro rfl
    exact ⟨⟨_, _⟩, ⟨t, hquoted, rfl, rfl, .inl ⟨rfl, rfl⟩⟩, rfl, indexOf_mono tokens hsuffix⟩
  cases h with
  | unexpected | nestedFunction | integer | string => exact hsame rfl
  | @negative minus literal tooLarge sign before =>
    have hminus := before.trans hhere
    have hnext := indexOf_cons hminus
    have hafter : ¬ t.span.stop.Precedes minus.span.stop :=
      Location.not_precedes_trans
        (hordered.apart_of_lt (getElem?_indexOf hminus) hquoted (by omega))
        (hordered.forward t (List.mem_of_getElem? hquoted))
    refine ⟨⟨indexOf tokens (minus :: t :: ts), _⟩, ⟨t, hquoted, rfl, Span.merge_stop hafter,
      .inr ⟨minus, getElem?_indexOf hminus, hnext.symm, sign, literal, tooLarge, rfl, rfl⟩⟩, rfl,
      indexOf_mono tokens before⟩

/-- Between two places, the error nodes quote tokens that stand there, in order. A closing brace
at the second place may have been quoted, too. -/
theorem Course.quotes {outside : Bool} {passages : List Passage} {blocks : List Block}
    (h : Course outside here passages blocks there) (hordered : InOrder tokens)
    (hhere : here <:+ tokens) :
    ∃ qs, List.Forall₂ (ErrorNode.Quotes tokens) (passages.map Passage.node) qs ∧
      qs.Pairwise (Quotation.Before tokens) ∧
      ∀ q ∈ qs, indexOf tokens here ≤ q.first ∧ q.EndsBy tokens (indexOf tokens there) := by
  induction h with
  | rest | plain | negative => exact ⟨[], .nil, .nil, nofun⟩
  | append hbefore hbehind before behind =>
    have hbetween := hbefore.suffix.trans hhere
    obtain ⟨qs, hqs, hpairwise, hrange⟩ := before hhere
    obtain ⟨qs', hqs', hpairwise', hrange'⟩ := behind hbetween
    have hle := indexOf_mono tokens hbefore.suffix
    have hle' := indexOf_mono tokens hbehind.suffix
    refine ⟨qs ++ qs', ?_, List.pairwise_append.2 ⟨hpairwise, hpairwise', ?_⟩, fun q hq => ?_⟩
    · rw [List.map_append]
      exact List.rel_append hqs hqs'
    · exact fun q hq r hr => (hrange q hq).2.mono (hrange' r hr).1
    · rcases List.mem_append.1 hq with hq | hq
      · exact ⟨(hrange q hq).1, (hrange q hq).2.mono hle'⟩
      · exact ⟨hle.trans (hrange' q hq).1, (hrange' q hq).2⟩
  | @error _ first t others ts _ _ _ _ _ _ hread hcharged _ _ =>
    obtain ⟨q, hq, hquoted, hfirst⟩ := hcharged.quotes hordered hhere hread.suffix
    have hts := hread.suffix.trans hhere
    refine ⟨[q], .cons hq .nil, List.pairwise_singleton _ _,
      List.forall_mem_singleton.2 ⟨hfirst, ?_⟩⟩
    by_cases hbrace : t.kind = .mark .rightBrace
    · have hends : Quotation.EndsBy tokens q (indexOf tokens (t :: ts)) :=
        .inr ⟨hquoted, t, by rw [hquoted]; exact getElem?_indexOf hts, hbrace⟩
      exact hends.mono (indexOf_mono tokens (resume_suffix (t :: ts)))
    · have hle := indexOf_mono tokens (resume_cons_suffix ts hbrace)
      have hnext := indexOf_cons hts
      exact .inl (by omega)
  | stray _ hcharged =>
    obtain ⟨q, hq, hquoted, hfirst⟩ := hcharged.quotes hordered hhere List.suffix_rfl
    have hnext := indexOf_cons hhere
    exact ⟨[q], .cons hq .nil, List.pairwise_singleton _ _,
      List.forall_mem_singleton.2 ⟨hfirst, .inl (by omega)⟩⟩
  | @block _ opening closing inner after list _ _ _ hbody _ ih =>
    have hinner := (List.suffix_cons opening inner).trans hhere
    obtain ⟨qs, hqs, hpairwise, hrange⟩ := ih hinner
    have hclosing := indexOf_cons (hbody.suffix.trans hinner)
    have hopening := indexOf_cons hhere
    refine ⟨qs, hqs, hpairwise, fun q hq => ?_⟩
    obtain ⟨hfirst, hends⟩ := hrange q hq
    exact ⟨by omega, hends.mono (by omega)⟩

end Parser

/-! ## The order of error nodes -/

section

variable {tokens : List Token} {a b : ErrorNode} {q r : Quotation}

/-- Error nodes with quotations one before the other stand in the order of the source, unless
they point at the same closing brace. -/
theorem ErrorNode.Quotes.apart (h : InOrder tokens) (ha : a.Quotes tokens q)
    (hb : b.Quotes tokens r) (hbefore : q.Before tokens r) :
    ¬ b.span.start.Precedes a.span.stop ∨ a.span = b.span := by
  obtain ⟨t, ht, -, hstop, hspan⟩ := ha
  obtain ⟨u, hu, -, -, hspan'⟩ := hb
  rw [hstop]
  obtain hlt | ⟨heq, v, hv, hbrace⟩ := hbefore
  · left
    obtain ⟨hfirst, hsame⟩ | ⟨minus, hminus, hnext, -, -, -, -, hmerge⟩ := hspan'
    · rw [hsame]
      exact h.apart_of_lt ht hu (by omega)
    · rw [hmerge]
      exact Span.not_merge_start_precedes (h.apart_of_lt ht hminus hlt)
        (h.apart_of_lt ht hu (by omega))
  · right
    -- a brace is neither a minus nor an integer literal, so both nodes point at it alone
    obtain rfl : t = v := Option.some.inj (ht.symm.trans hv)
    obtain ⟨hfirst, hsame⟩ | ⟨minus, hminus, -, hkind, -⟩ := hspan'
    · have htu : t = u := Option.some.inj (by rw [← ht, ← hu, heq, hfirst])
      obtain ⟨-, hsame'⟩ | ⟨-, -, -, -, hinteger, -⟩ := hspan
      · rw [hsame, hsame', htu]
      · rw [hbrace] at hinteger
        cases hinteger
    · rw [← heq, ht] at hminus
      cases hminus
      rw [hbrace] at hkind
      cases hkind

/-- What follows for two nodes from the order of their quotations holds all along. -/
theorem pairwise_of_quotes {nodes : List ErrorNode} {qs : List Quotation}
    {P : ErrorNode → ErrorNode → Prop}
    (hP : ∀ {a b q r}, a.Quotes tokens q → b.Quotes tokens r → q.Before tokens r → P a b)
    (hquotes : List.Forall₂ (ErrorNode.Quotes tokens) nodes qs)
    (hbefore : qs.Pairwise (Quotation.Before tokens)) : nodes.Pairwise P := by
  obtain ⟨hlength, hget⟩ := List.forall₂_iff_get.1 hquotes
  rw [List.pairwise_iff_getElem] at hbefore ⊢
  intro i j hi hj hij
  exact hP (hget i hi (hlength ▸ hi)) (hget j hj (hlength ▸ hj)) (hbefore i j _ _ hij)

end

/-- Every error node of a program, at any depth, points at the token it quotes. The tokens quoted
stand in the order of the tree, so that in every list of statements the error nodes stand in the
order of the source; two of them overlap only if both point at one closing brace. -/
theorem errors_quote_tokens {tokens : List Token} {program : Program} (hordered : InOrder tokens)
    (h : parse tokens = .ok program) :
    (∃ qs, List.Forall₂ (ErrorNode.Quotes tokens) program.errors qs ∧
      qs.Pairwise (Quotation.Before tokens)) ∧
    ∀ list ∈ program.lists, (list.filterMap Stmt.errorNode?).Pairwise fun a b =>
      ¬ b.span.start.Precedes a.span.stop ∨ a.span = b.span := by
  obtain ⟨passages, hcourse, hnodes⟩ := parse_course h
  obtain ⟨qs, hqs, hpairwise, -⟩ := hcourse.quotes hordered List.suffix_rfl
  rw [hnodes] at hqs
  have hapart : program.errors.Pairwise fun a b =>
      ¬ b.span.start.Precedes a.span.stop ∨ a.span = b.span :=
    pairwise_of_quotes (fun ha hb => ha.apart hordered hb) hqs hpairwise
  exact ⟨⟨qs, hqs, hpairwise⟩, fun list hlist => hapart.sublist (program.list_sublist hlist)⟩

/-- A brace that closes nothing, where an expression is due; in a block, a number that is too
large even with the minus before it; and an escape that means nothing. -/
def faultySource : String := "x = \x7d fn f() \x7b a = 2 - -2147483649; b = 1 \x7d print(\"\\q\");"

/-- The first brace is quoted twice. -/
theorem errors_quote_tokens_faultySource :
    ∃ tokens program, tokenize faultySource = .ok tokens ∧ InOrder tokens ∧
      parse tokens = .ok program ∧
      program.errors.map (fun node => (node.text, node.span.start.offset, node.span.stop.offset)) =
        [("\x7d", 4, 5), ("\x7d", 4, 5), ("2147483649", 23, 34), ("\x7d", 42, 43),
          ("\"\\q\"", 50, 54)] ∧
      (∃ qs, List.Forall₂ (ErrorNode.Quotes tokens) program.errors qs ∧
        qs.Pairwise (Quotation.Before tokens)) ∧
      ∀ list ∈ program.lists, (list.filterMap Stmt.errorNode?).Pairwise fun a b =>
        ¬ b.span.start.Precedes a.span.stop ∨ a.span = b.span := by
  have hrun : (tokenize faultySource).toOption.bind (fun tokens =>
      (parse tokens).toOption.map fun program => program.errors.map fun node =>
        (node.text, node.span.start.offset, node.span.stop.offset)) =
      some [("\x7d", 4, 5), ("\x7d", 4, 5), ("2147483649", 23, 34), ("\x7d", 42, 43),
        ("\"\\q\"", 50, 54)] := by
    decide +kernel
  cases htokens : tokenize faultySource with
  | error d => rw [htokens] at hrun; cases hrun
  | ok tokens =>
    rw [htokens] at hrun
    cases hprogram : parse tokens with
    | error d => simp [Except.toOption, hprogram] at hrun
    | ok program =>
      have hordered := inOrder_of_tokenize htokens
      refine ⟨tokens, program, rfl, hordered, hprogram, ?_,
        errors_quote_tokens hordered hprogram⟩
      simpa [Except.toOption, hprogram] using hrun

end Slate
