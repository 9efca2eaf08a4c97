-- SUMMARY: The cursor reads expressions as the parser does, up to a literal that springs a trap.
import Slate.Proofs.Syntax.Integers
import Slate.Proofs.Syntax.Reader
import Slate.Syntax.Cursor

/-!
# Expressions behind a cursor

A cursor shows the parser what is left of its tokens. As long as there is a token at all and
the cursor is not past the end, the token in view can be looked up. Literals are another matter:
a token that is called a string need not have quotes, and one that is called an integer can spell
the least double word. Such a token is to blame for a trap, and nothing else is. `FollowsAt`
states of two programs, one for the cursor and one for what it shows, that they go the same way,
so that the first one does what the second one does unless a literal springs a trap. What the
lexer makes an integer or a string is spelled so that it can be turned round and cut.
-/

namespace Slate

open Slate.Parser (State ParseM Reader accept? accept?_eq acceptOperator? precedence)

/-- Tokens, and the last one of them. -/
structure TokenStream where
  tokens : List Token
  last : Token
  ends : tokens.getLast? = some last

/-! ## What springs a trap -/

/-- A literal among the tokens is to blame for the trap: a string whose text cannot be cut
between its first byte and its last one, or an integer for the least double word that a minus
stands before. -/
inductive Trap.Blames (tokens : List Token) : Trap → Prop where
  | slice {t : Token} (mem : t ∈ tokens) (literal : t.kind = .string)
      (uncut : slice? 1 (byteLength t.text.toList - 1) t.text.toList = none) :
      Trap.Blames tokens .slice
  | negation {minus t : Token} (before : [minus, t] <:+: tokens) (sign : minus.kind = .mark .minus)
      (literal : t.kind = .integer) (least : Literal.magnitude? t.text = some Int64.minValue) :
      Trap.Blames tokens .negation

theorem takeBytes?_byteLength (cs more : List Char) :
    takeBytes? (byteLength cs) (cs ++ more) = some cs := by
  induction cs with
  | nil =>
    cases more <;> rfl
  | cons c cs ih =>
    obtain ⟨n, hn⟩ : ∃ n, c.utf8Size + byteLength cs = n + 1 :=
      Nat.exists_eq_succ_of_ne_zero (by have := c.utf8Size_pos; omega)
    have hle : c.utf8Size ≤ n + 1 := by omega
    have hrest : n + 1 - c.utf8Size = byteLength cs := by omega
    rw [byteLength, hn, List.cons_append, takeBytes?, if_pos hle, hrest, ih, Option.map_some]

/-- What stands in quotes is cut out of them. -/
theorem slice?_quoted {cs inside : List Char} (h : cs = '"' :: (inside ++ ['"'])) :
    slice? 1 (byteLength cs - 1) cs = some inside := by
  have hlength : byteLength cs - 1 = byteLength inside + 1 := by
    rw [h, byteLength, Lexer.byteLength_append]
    change 1 + (byteLength inside + 1) - 1 = _
    omega
  have hdrop : dropBytes? 1 cs = some (inside ++ ['"']) := by
    rw [h, dropBytes?, if_pos (by decide)]
    exact dropBytes?.eq_1 _
  rw [slice?, hlength, if_pos (Nat.le_add_left 1 _), hdrop]
  exact takeBytes?_byteLength inside ['"']

/-- The lexer does not make the literals that spring traps. -/
theorem Trap.Blames.not_wellSpelled {tokens : List Token} {trap : Trap}
    (h : trap.Blames tokens) : ∃ t ∈ tokens, ¬ t.WellSpelled := by
  cases h with
  | @slice t mem literal uncut =>
    refine ⟨t, mem, fun hspelled => ?_⟩
    obtain ⟨inside, hquoted⟩ := hspelled.of_string literal
    rw [slice?_quoted hquoted] at uncut
    cases uncut
  | @negation minus t before _ literal least =>
    refine ⟨t, before.subset (by simp), fun hspelled => ?_⟩
    obtain ⟨value, hdigits⟩ := Literal.exists_digits hspelled literal
    exact (hdigits.negated least).1 rfl

namespace Cursor

variable {α β : Type} {stream : TokenStream} {c c₁ : Cursor} {kind : Kind} {t : Token}

/-! ## What a cursor shows -/

/-- The cursor stands in the stream or at its end. -/
structure In (stream : TokenStream) (c : Cursor) : Prop where
  tokens : c.tokens = stream.tokens
  inside : c.current ≤ stream.tokens.length

/-- What the parser sees at this place. -/
def shown (c : Cursor) (stream : TokenStream) : State :=
  ⟨c.tokens.drop c.current, stream.last, c.depth⟩

/-- The place behind the next token. -/
def next (c : Cursor) : Cursor := { c with current := c.current + 1 }

theorem atEnd_iff : c.atEnd = true ↔ c.tokens.length ≤ c.current := decide_eq_true_iff

theorem not_atEnd_iff : c.atEnd = false ↔ c.current < c.tokens.length :=
  decide_eq_false_iff_not.trans Nat.not_le

theorem atEnd_shown : (c.shown stream).atEnd = c.atEnd := by
  rw [Bool.eq_iff_iff, atEnd_iff]
  exact List.isEmpty_iff.trans List.drop_eq_nil_iff

theorem rest_of_atEnd (stream : TokenStream) (h : c.atEnd = true) : (c.shown stream).rest = [] :=
  List.drop_eq_nil_iff.2 (atEnd_iff.1 h)

theorem rest_of_not_atEnd (stream : TokenStream) (h : c.atEnd = false) :
    ∃ t, c.tokens[c.current]? = some t ∧
      (c.shown stream).rest = t :: (c.next.shown stream).rest := by
  have hlt := not_atEnd_iff.1 h
  exact ⟨c.tokens[c.current], List.getElem?_eq_getElem hlt, List.drop_eq_getElem_cons hlt⟩

theorem tail_shown : { c.shown stream with rest := (c.shown stream).rest.tail } =
    c.next.shown stream := by
  simp only [shown, next, List.tail_drop]

theorem In.next (hc : c.In stream) (h : c.atEnd = false) : c.next.In stream where
  tokens := hc.tokens
  inside := by
    have hlt := not_atEnd_iff.1 h
    rw [hc.tokens] at hlt
    exact hlt

/-- The token in view is one of the stream. -/
theorem In.view_mem (hc : c.In stream) : (c.shown stream).view ∈ stream.tokens := by
  cases h : c.atEnd with
  | true =>
    rw [State.view, rest_of_atEnd stream h]
    exact List.mem_of_getLast? stream.ends
  | false =>
    obtain ⟨t, ht, hrest⟩ := rest_of_not_atEnd stream h
    rw [State.view, hrest, ← hc.tokens]
    exact List.mem_of_getElem? ht

/-! ## Looking -/

theorem tokenAt_eq {i : Nat} (h : c.tokens[i]? = some t) : tokenAt i c = .ok t c := by
  rw [tokenAt, get_bind_apply, h]
  rfl

theorem peek_eq (hc : c.In stream) : peek c = .ok (c.shown stream).view c := by
  rw [peek, get_bind_apply]
  cases h : c.atEnd with
  | true =>
    have hlast : c.tokens.getLast? = some stream.last := hc.tokens ▸ stream.ends
    rw [if_pos rfl, State.view, rest_of_atEnd stream h]
    rw [List.getLast?_eq_getElem?] at hlast
    cases hlength : c.tokens.length with
    | zero =>
      rw [List.length_eq_zero_iff.1 hlength] at hlast
      cases hlast
    | succ n =>
      rw [hlength, Nat.add_sub_cancel] at hlast
      exact tokenAt_eq hlast
  | false =>
    obtain ⟨t, ht, hrest⟩ := rest_of_not_atEnd stream h
    rw [if_neg Bool.false_ne_true, State.view, hrest]
    exact tokenAt_eq ht

theorem currentSpan_eq (hc : c.In stream) : currentSpan c = .ok (c.shown stream).view.span c := by
  rw [currentSpan, bind_of_ok (peek_eq hc)]
  rfl

theorem check_eq (hc : c.In stream) : check kind c = .ok ((c.shown stream).sees kind) c := by
  rw [check, get_bind_apply]
  cases h : c.atEnd with
  | true =>
    rw [if_pos rfl, State.sees, rest_of_atEnd stream h]
    rfl
  | false =>
    obtain ⟨t, -, hrest⟩ := rest_of_not_atEnd stream h
    rw [if_neg Bool.false_ne_true, bind_of_ok (peek_eq hc), State.view, State.sees, hrest]
    rfl

theorem checkAhead_eq (stream : TokenStream) :
    checkAhead 1 kind c = .ok ((c.shown stream).seesSecond kind) c := by
  have hsecond : (c.shown stream).seesSecond kind =
      c.tokens[c.current + 1]?.any fun t => t.kind == kind := by
    rw [State.seesSecond, shown]
    cases h : c.tokens.drop c.current with
    | nil =>
      have hle := List.drop_eq_nil_iff.1 h
      rw [List.getElem?_eq_none (by omega)]
      rfl
    | cons t ts =>
      have hget : c.tokens[c.current + 1]? = ts[0]? := by
        rw [← List.getElem?_drop, h]
        rfl
      rw [hget]
      cases ts <;> rfl
  rw [hsecond]
  rfl

theorem advance_eq (h : c.atEnd = false) : advance c = .ok () c.next := by
  change EStateM.Result.ok () (if c.atEnd = true then c else c.next) = _
  rw [h, if_neg Bool.false_ne_true]

theorem advance_atEnd (h : c.atEnd = true) : advance c = .ok () c := by
  change EStateM.Result.ok () (if c.atEnd = true then c else c.next) = _
  rw [if_pos h]

theorem not_atEnd_of_sees (h : (c.shown stream).sees kind = true) : c.atEnd = false := by
  refine Bool.eq_false_of_not_eq_true fun hend => ?_
  rw [State.sees, rest_of_atEnd stream hend] at h
  cases h

theorem matchToken_of_sees (hc : c.In stream) (h : (c.shown stream).sees kind = true) :
    matchToken kind c = .ok true c.next := by
  rw [matchToken, bind_of_ok (check_eq hc), if_pos h,
    bind_of_ok (advance_eq (not_atEnd_of_sees h))]
  rfl

theorem matchToken_of_not_sees (hc : c.In stream) (h : (c.shown stream).sees kind = false) :
    matchToken kind c = .ok false c := by
  rw [matchToken, bind_of_ok (check_eq hc), h]
  rfl

theorem expect_of_sees (hc : c.In stream) (h : (c.shown stream).sees kind = true) :
    expect kind c = .ok (c.shown stream).view.span c.next := by
  rw [expect, bind_of_ok (check_eq hc), if_pos h, bind_of_ok (currentSpan_eq hc),
    bind_of_ok (advance_eq (not_atEnd_of_sees h))]
  rfl

theorem accept?_of_sees (h : (c.shown stream).sees kind = true) :
    accept? kind (c.shown stream) =
      .ok (some (c.shown stream).view.span) (c.next.shown stream) := by
  rw [accept?_eq, if_pos h, tail_shown]

theorem accept?_of_not_sees (h : (c.shown stream).sees kind = false) :
    accept? kind (c.shown stream) = .ok none (c.shown stream) := by
  rw [accept?_eq, if_neg (by rw [h]; exact Bool.false_ne_true)]

/-- Behind a token that was passed over, that token is the previous one. -/
theorem previousSpan_next (stream : TokenStream) (h : c.atEnd = false) :
    previousSpan c.next = .ok (c.shown stream).view.span c.next := by
  obtain ⟨t, ht, hrest⟩ := rest_of_not_atEnd stream h
  have hpos : c.next.current > 0 := Nat.succ_pos c.current
  have hprevious : c.next.tokens[c.next.current - 1]? = some t := ht
  rw [previousSpan, get_bind_apply, if_pos hpos, bind_of_ok (tokenAt_eq hprevious), State.view,
    hrest]
  rfl

/-! ## Going the same way -/

/-- The cursor stops at this place where the parser does, or a literal of the stream springs a
trap. -/
def Stopped (stream : TokenStream) (c : Cursor) (m' : ParseM α) (stop : Stop) (c₁ : Cursor) :
    Prop :=
  (∃ failure, stop = .failure failure ∧
    m' (c.shown stream) = .error failure (c₁.shown stream)) ∨
  ∃ trap, stop = .trap trap ∧ trap.Blames stream.tokens

/-- What the cursor does from this place, the parser does with what the cursor shows. The cursor
does not go back, and it stops for the reasons of the parser, unless a literal springs a trap. -/
def FollowsAt (stream : TokenStream) (c : Cursor) (m : CursorM α) (m' : ParseM α) : Prop :=
  wp m
    (fun a c₁ => (c₁.In stream ∧ c.current ≤ c₁.current) ∧ c₁.depth = c.depth ∧
      m' (c.shown stream) = .ok a (c₁.shown stream))
    (fun stop c₁ => (c₁.In stream ∧ c.current ≤ c₁.current) ∧ Stopped stream c m' stop c₁)
    c

/-- The two programs go the same way from every place in the stream. -/
def Follows (stream : TokenStream) (m : CursorM α) (m' : ParseM α) : Prop :=
  ∀ ⦃c⦄, c.In stream → FollowsAt stream c m m'

variable {m n : CursorM α} {m' n' : ParseM α} {k : α → CursorM β} {k' : α → ParseM β}
variable {fault : Fault} {span : Span}

namespace FollowsAt

/-- Steps that lead both programs to one place. -/
theorem of_run (hm : m c = n c₁) (hm' : m' (c.shown stream) = n' (c₁.shown stream))
    (hle : c.current ≤ c₁.current) (hdepth : c₁.depth = c.depth)
    (h : FollowsAt stream c₁ n n') : FollowsAt stream c m m' := by
  unfold FollowsAt Stopped wp at h ⊢
  rw [hm, hm']
  split at h
  · obtain ⟨⟨hin, hle₁⟩, hdepth₁, hrun⟩ := h
    exact ⟨⟨hin, hle.trans hle₁⟩, hdepth₁.trans hdepth, hrun⟩
  · obtain ⟨⟨hin, hle₁⟩, hfails⟩ := h
    exact ⟨⟨hin, hle.trans hle₁⟩, hfails⟩

/-- Looking takes the cursor nowhere. -/
theorem look {a : α} {k : α → CursorM β} {n' : ParseM β} (hm : m c = .ok a c)
    (h : FollowsAt stream c (k a) n') : FollowsAt stream c (m >>= k) n' :=
  of_run (bind_of_ok hm) rfl le_rfl rfl h

theorem look_get {k : Cursor → CursorM α} (h : FollowsAt stream c (k c) m') :
    FollowsAt stream c (get >>= k) m' :=
  of_run get_bind_apply rfl le_rfl rfl h

theorem get_bind {k' : State → ParseM α} (h : FollowsAt stream c m (k' (c.shown stream))) :
    FollowsAt stream c m (get >>= k') :=
  of_run rfl get_bind_apply le_rfl rfl h

theorem bind (h : FollowsAt stream c m m') (hk : ∀ a, Follows stream (k a) (k' a)) :
    FollowsAt stream c (m >>= k) (m' >>= k') := by
  unfold FollowsAt at h
  unfold wp at h
  split at h
  · next a c₁ hm =>
    obtain ⟨⟨hin, hle⟩, hdepth, hm'⟩ := h
    exact of_run (bind_of_ok hm) (bind_of_ok hm') hle hdepth (hk a hin)
  · next stop c₁ hm =>
    obtain ⟨hat, hstop⟩ := h
    unfold FollowsAt wp
    rw [bind_of_error hm]
    exact ⟨hat, hstop.imp_left fun ⟨failure, hfailure, hm'⟩ =>
      ⟨failure, hfailure, bind_of_error hm'⟩⟩

/-- A literal springs a trap. -/
theorem trapped {trap : Trap} (hc : c.In stream) (hm : m c = .error (.trap trap) c)
    (hblames : trap.Blames stream.tokens) : FollowsAt stream c m m' := by
  unfold FollowsAt wp
  rw [hm]
  exact ⟨⟨hc, le_rfl⟩, .inr ⟨trap, rfl, hblames⟩⟩

/-- A token that may be next. -/
theorem matchToken_bind {k : Bool → CursorM β} {k' : Option Span → ParseM β}
    (hc : c.In stream)
    (hyes : c.atEnd = false →
      FollowsAt stream c.next (k true) (k' (some (c.shown stream).view.span)))
    (hno : FollowsAt stream c (k false) (k' none)) :
    FollowsAt stream c (matchToken kind >>= k) (accept? kind >>= k') := by
  cases h : (c.shown stream).sees kind with
  | true =>
    exact of_run (bind_of_ok (matchToken_of_sees hc h)) (bind_of_ok (accept?_of_sees h))
      (Nat.le_succ _) rfl (hyes (not_atEnd_of_sees h))
  | false =>
    exact of_run (bind_of_ok (matchToken_of_not_sees hc h)) (bind_of_ok (accept?_of_not_sees h))
      le_rfl rfl hno

/-- An operator that may be next. Its token is then the previous one. -/
theorem matchOperator_bind {table : List (Mark × α)} {k : Option α → CursorM β}
    {k' : Option (α × Span) → ParseM β} (hc : c.In stream)
    (hyes : ∀ op, c.atEnd = false →
      FollowsAt stream c.next (k (some op)) (k' (some (op, (c.shown stream).view.span))))
    (hno : FollowsAt stream c (k none) (k' none)) :
    FollowsAt stream c (matchOperator? table >>= k) (acceptOperator? table >>= k') := by
  induction table with
  | nil => exact hno
  | cons entry table ih =>
    obtain ⟨mark, op⟩ := entry
    simp only [matchOperator?, acceptOperator?, bind_assoc]
    exact matchToken_bind hc (hyes op) ih

end FollowsAt

namespace Follows

theorem pure (a : α) : Follows stream (pure a) (pure a) :=
  fun _ hc => ⟨⟨hc, le_rfl⟩, rfl, rfl⟩

theorem exhausted : Follows stream (throw (.failure .exhausted) : CursorM α) (throw .exhausted) :=
  fun _ hc => ⟨⟨hc, le_rfl⟩, .inl ⟨.exhausted, rfl, rfl⟩⟩

theorem failAt (fault : Fault) (span : Span) :
    Follows stream (failAt fault span : CursorM α) (Parser.failAt fault span) :=
  fun _ hc => ⟨⟨hc, le_rfl⟩, .inl ⟨.fault fault span, rfl, rfl⟩⟩

theorem bind (h : Follows stream m m') (hk : ∀ a, Follows stream (k a) (k' a)) :
    Follows stream (m >>= k) (m' >>= k') := fun _ hc => (h hc).bind hk

theorem map {f : α → β} (h : Follows stream m m') : Follows stream (f <$> m) (f <$> m') :=
  h.bind fun a => pure (f a)

/-- A choice by the next token. -/
theorem ite_check (h : Follows stream m m') (hn : Follows stream n n') :
    Follows stream (check kind >>= fun b => if b = true then m else n)
      (get >>= fun s => if s.sees kind = true then m' else n') := by
  intro c hc
  refine .look (check_eq hc) (.get_bind ?_)
  split
  · exact h hc
  · exact hn hc

/-- A choice by the next token between two programs with one continuation. -/
theorem ite_check_bind (h : Follows stream m m') (hn : Follows stream n n')
    (hk : ∀ a, Follows stream (k a) (k' a)) :
    Follows stream (check kind >>= fun b => if b = true then m >>= k else n >>= k)
      (get >>= fun s => if s.sees kind = true then m' >>= k' else n' >>= k') :=
  .ite_check (h.bind hk) (hn.bind hk)

/-- A token that may be next and is passed over. -/
theorem matchToken_bind {k : Bool → CursorM β} {k' : Option Span → ParseM β}
    (hyes : ∀ span, Follows stream (k true) (k' (some span)))
    (hno : Follows stream (k false) (k' none)) :
    Follows stream (matchToken kind >>= k) (accept? kind >>= k') := fun _ hc =>
  .matchToken_bind hc (fun h => hyes _ (hc.next h)) (hno hc)

end Follows

/-! ## Single tokens -/

theorem advance_shown (stream : TokenStream) (c : Cursor) :
    Parser.advance (c.shown stream) = .ok () (c.next.shown stream) := by
  rw [← tail_shown]
  rfl

/-- At the end there is nothing to pass over, and nothing left to be seen either. -/
theorem exists_advance (hc : c.In stream) : ∃ c₁, advance c = .ok () c₁ ∧ c₁.In stream ∧
    c.current ≤ c₁.current ∧ c₁.depth = c.depth ∧ c₁.shown stream = c.next.shown stream := by
  cases h : c.atEnd with
  | true =>
    refine ⟨c, advance_atEnd h, hc, le_rfl, rfl, ?_⟩
    rw [← tail_shown, rest_of_atEnd stream h, List.tail_nil, ← rest_of_atEnd stream h]
  | false => exact ⟨c.next, advance_eq h, hc.next h, Nat.le_succ _, rfl, rfl⟩

theorem follows_advance : Follows stream advance Parser.advance := by
  intro c hc
  obtain ⟨c₁, hadvance, hin, hle, hdepth, hshown⟩ := exists_advance hc
  have hadvance' := advance_shown stream c
  rw [← hshown] at hadvance'
  refine .of_run ?_ ?_ hle hdepth (Follows.pure () hin)
  · exact hadvance
  · exact hadvance'

theorem follows_unexpected (what : Expectation) :
    Follows stream (unexpected what : CursorM α) (Parser.unexpected what) := by
  intro c hc
  refine .get_bind ?_
  rw [atEnd_shown]
  refine .look_get ?_
  split
  · exact .look (currentSpan_eq hc) (Follows.failAt _ _ hc)
  · exact .look (peek_eq hc) (.look (currentSpan_eq hc) (Follows.failAt _ _ hc))

theorem follows_expect (kind : Kind) : Follows stream (expect kind) (Parser.expect kind) := by
  intro c hc
  unfold Parser.expect
  cases h : (c.shown stream).sees kind with
  | true =>
    exact .of_run (n := pure _) (expect_of_sees hc h) (bind_of_ok (accept?_of_sees h))
      (Nat.le_succ _) rfl (Follows.pure _ (hc.next (not_atEnd_of_sees h)))
  | false =>
    refine .look (check_eq hc) ?_
    rw [h]
    exact .of_run rfl (bind_of_ok (accept?_of_not_sees h)) le_rfl rfl
      (follows_unexpected (.kind kind) hc)

theorem follows_expectIdentifier : Follows stream expectIdentifier Parser.expectIdentifier := by
  intro c hc
  refine .look (check_eq hc) (.get_bind ?_)
  split
  · exact .look (peek_eq hc) (follows_advance.bind (fun _ => .pure _) hc)
  · exact follows_unexpected .identifier hc

theorem follows_expectType : Follows stream expectType Parser.expectType := by
  intro c hc
  refine .look (peek_eq hc) (.get_bind ?_)
  cases (c.shown stream).view.kind with
  | typeName ty => exact follows_advance.bind (fun _ => .pure ty) hc
  | _ => exact follows_unexpected .type hc

/-! ## Literals -/

/-- A double word is turned round, if it can be, and fits a word if the literal does. -/
theorem followsAt_integerLiteral (hc : c.In stream) (negative : Bool) (start : Span)
    (hminus : negative = true →
      Literal.magnitude? (c.shown stream).view.text = some Int64.minValue →
        Trap.Blames stream.tokens .negation) :
    FollowsAt stream c (integerLiteral negative start) (Parser.integerLiteral negative start) := by
  refine .look (peek_eq hc) ?_
  have hword := Literal.integer?_eq_of_magnitude? negative (c.shown stream).view.text
  dsimp only
  cases hm : Literal.magnitude? (c.shown stream).view.text with
  | none =>
    rw [hm, Option.bind_none] at hword
    refine .get_bind ?_
    dsimp only
    rw [hword]
    exact Follows.failAt _ _ hc
  | some magnitude =>
    by_cases htrap : negative = true ∧ magnitude = Int64.minValue
    · obtain ⟨rfl, rfl⟩ := htrap
      exact .trapped hc rfl (hminus rfl hm)
    rw [hm, Option.bind_some] at hword
    have hsigned : signed negative magnitude c =
        .ok (if negative = true then -magnitude else magnitude) c := by
      cases negative with
      | true => rw [signed, if_pos rfl, if_neg fun h => htrap ⟨rfl, h⟩, if_pos rfl]; rfl
      | false => rfl
    refine .look hsigned (.get_bind ?_)
    dsimp only
    rw [hword]
    cases Literal.word? (if negative = true then -magnitude else magnitude).toInt with
    | some n => exact follows_advance.bind (fun _ => .pure _) hc
    | none => exact Follows.failAt _ _ hc

/-- What is taken stands in front, and has as many bytes. -/
theorem takeBytes?_eq_some {n : Nat} {cs xs : List Char} (h : takeBytes? n cs = some xs) :
    ∃ ys, cs = xs ++ ys ∧ byteLength xs = n := by
  induction n, cs using takeBytes?.induct generalizing xs with
  | case1 cs =>
    rw [takeBytes?] at h
    cases h
    exact ⟨cs, rfl, rfl⟩
  | case2 n => rw [takeBytes?] at h; cases h
  | case3 n c cs hle ih =>
    rw [takeBytes?, if_pos hle, Option.map_eq_some_iff] at h
    obtain ⟨xs, hxs, rfl⟩ := h
    obtain ⟨ys, rfl, hlength⟩ := ih hxs
    refine ⟨ys, rfl, ?_⟩
    rw [byteLength, hlength]
    omega
  | case4 n c cs hlt => rw [takeBytes?, if_neg hlt] at h; cases h

/-- A character of one byte is all of the first byte. -/
theorem dropBytes?_one {cs rest : List Char} (h : dropBytes? 1 cs = some rest) :
    ∃ first, cs = first :: rest ∧ first.utf8Size = 1 := by
  cases cs with
  | nil => rw [dropBytes?] at h; cases h
  | cons c cs =>
    have hpos := c.utf8Size_pos
    rw [dropBytes?] at h
    split at h
    · next hle =>
      have hsize : c.utf8Size = 1 := by omega
      rw [hsize, dropBytes?] at h
      exact ⟨c, by rw [Option.some.inj h], hsize⟩
    · cases h

/-- Between the first byte and the last one is what stands between the first character and the
last one. -/
theorem slice?_eq_some {cs inside : List Char}
    (h : slice? 1 (byteLength cs - 1) cs = some inside) : inside = (cs.drop 1).dropLast := by
  unfold slice? at h
  split at h
  · next hle =>
    obtain ⟨rest, hrest, htake⟩ := Option.bind_eq_some_iff.1 h
    obtain ⟨first, rfl, hfirst⟩ := dropBytes?_one hrest
    obtain ⟨ys, rfl, hlength⟩ := takeBytes?_eq_some htake
    rw [byteLength, Lexer.byteLength_append, hfirst] at hlength hle
    -- one byte is left behind them, so there is one character
    obtain _ | ⟨last, _ | ⟨next, ys⟩⟩ := ys
    · rw [byteLength] at hlength hle
      omega
    · rw [List.drop_one, List.tail_cons, List.dropLast_concat]
    · have := last.utf8Size_pos
      have := next.utf8Size_pos
      rw [byteLength, byteLength] at hlength
      omega
  · cases h

theorem content_eq (text : String) (c : Cursor) : content text c =
    match slice? 1 (byteLength text.toList - 1) text.toList with
    | some inside => .ok inside c
    | none => .error (.trap .slice) c := by
  unfold content
  cases hlength : byteLength text.toList with
  | zero => rfl
  | succ n =>
    rw [Nat.add_sub_cancel]
    dsimp only
    cases slice? 1 n text.toList <;> rfl

theorem followsAt_stringLiteral (hc : c.In stream) (hk : (c.shown stream).view.kind = .string) :
    FollowsAt stream c stringLiteral Parser.stringLiteral := by
  refine .look (peek_eq hc) ?_
  have hcontent := content_eq (c.shown stream).view.text c
  cases hcut : slice? 1 (byteLength (c.shown stream).view.text.toList - 1)
      (c.shown stream).view.text.toList with
  | none =>
    rw [hcut] at hcontent
    exact .trapped hc (bind_of_error hcontent) (.slice hc.view_mem hk hcut)
  | some inside =>
    rw [hcut] at hcontent
    have hstring : Literal.string (c.shown stream).view.text =
        (Literal.unescape inside).map String.ofList := by
      rw [Literal.string, slice?_eq_some hcut]
    refine .look hcontent (.get_bind ?_)
    dsimp only
    rw [hstring]
    cases Literal.unescape inside with
    | ok value => exact follows_advance.bind (fun _ => .pure _) hc
    | error fault => exact Follows.failAt _ _ hc

/-! ## One step of the descent -/

/-- The token behind a minus is the one in view next. -/
theorem blames_negation (hc : c.In stream) (hminus : (c.shown stream).sees (.mark .minus) = true)
    (hinteger : (c.shown stream).seesSecond .integer = true)
    (hleast : Literal.magnitude? (c.next.shown stream).view.text = some Int64.minValue) :
    Trap.Blames stream.tokens .negation := by
  obtain ⟨minus, t, rest, hrest, hk⟩ := Parser.seesSecond_iff.1 hinteger
  have htokens : minus :: t :: rest <:+ stream.tokens := by
    rw [← hrest, ← hc.tokens]
    exact List.drop_suffix c.current c.tokens
  have hview : (c.next.shown stream).view = t := by
    rw [← tail_shown, State.view]
    change (c.tokens.drop c.current).tail.headD stream.last = t
    rw [hrest]
    rfl
  have hsign : minus.kind = .mark .minus := by
    obtain ⟨first, more, hfirst, hsign⟩ := Parser.sees_iff.1 hminus
    obtain ⟨rfl, -⟩ := List.cons.inj (hrest.symm.trans hfirst)
    exact hsign
  rw [hview] at hleast
  exact .negation ((List.prefix_append [minus, t] rest).isInfix.trans htokens.isInfix) hsign hk
    hleast

/-- The function of the cursor that the reader is. -/
def scan {γ : Type} : Reader γ → Nat → CursorM γ
  | .expression => expression
  | .binary tables _ => (binary · tables)
  | .operators table tighter left _ => (operators · table tighter left)
  | .unary => unary
  | .primary => primary
  | .call callee start => (call · callee start)
  | .arguments => arguments
  | .initializer => initializer
  | .declaration => declaration
  | .ret => ret
  | .assignmentOrExpression => assignmentOrExpression
  | .params => params
  | .statement => statement
  | .strictStatement => strictStatement
  | .function => function
  | .ifChain => ifChain
  | .elseBranches => elseBranches
  | .guarded => guarded
  | .block => block
  | .blockStatements => blockStatements
  | .programStatements => programStatements

section

variable {budget : Nat}
variable (ih : ∀ {γ : Type} (r : Reader γ), Follows stream (scan r budget) (r.run budget))
include ih

theorem follows_binary {tables : List (List (Mark × BinaryOp))} (levels : tables <:+ precedence) :
    Follows stream (binary (budget + 1) tables) (Parser.binary (budget + 1) tables) := by
  cases tables with
  | nil => exact ih .unary
  | cons table tighter =>
    exact (ih (.binary tighter (Parser.tighter_levels levels))).bind fun left =>
      ih (.operators table tighter left levels)

theorem follows_operators {table : List (Mark × BinaryOp)}
    {tighter : List (List (Mark × BinaryOp))} (left : Expr)
    (levels : table :: tighter <:+ precedence) :
    Follows stream (operators (budget + 1) table tighter left)
      (Parser.operators (budget + 1) table tighter left) := by
  intro c hc
  refine .matchOperator_bind hc (fun op hend => ?_) (Follows.pure left hc)
  exact (ih (.binary tighter (Parser.tighter_levels levels))).bind
    (fun right => ih (.operators table tighter (left.join op right) levels)) (hc.next hend)

theorem follows_unary : Follows stream (unary (budget + 1)) (Parser.unary (budget + 1)) := by
  intro c hc
  refine .look (check_eq hc) (.look (checkAhead_eq stream) (.get_bind ?_))
  split
  · next hboth =>
    obtain ⟨hminus, hdigits⟩ := Bool.and_eq_true_iff.1 hboth
    have hend := not_atEnd_of_sees hminus
    refine .look (currentSpan_eq hc) ?_
    exact .of_run (bind_of_ok (advance_eq hend)) (bind_of_ok (advance_shown stream c))
      (Nat.le_succ _) rfl
      (followsAt_integerLiteral (hc.next hend) true _ fun _ =>
        blames_negation hc hminus hdigits)
  · refine .matchOperator_bind hc (fun op hend => ?_) (ih .primary hc)
    exact .look (previousSpan_next stream hend)
      ((ih .unary).bind (fun operand => .pure _) (hc.next hend))

theorem follows_primary :
    Follows stream (primary (budget + 1)) (Parser.primary (budget + 1)) := by
  intro c hc
  refine .look (peek_eq hc) (.get_bind ?_)
  dsimp only
  cases hk : (c.shown stream).view.kind with
  | integer => exact followsAt_integerLiteral hc false _ nofun
  | string => exact followsAt_stringLiteral hc hk
  | identifier =>
    exact follows_expectIdentifier.bind
      (fun named => .ite_check (ih (.call named.1 named.2)) (.pure _)) hc
  | keyword k =>
    cases k with
    | trueKw | falseKw => exact follows_advance.bind (fun _ => .pure _) hc
    | _ => exact follows_unexpected .expression hc
  | mark m =>
    cases m with
    | leftParen =>
      exact follows_advance.bind (fun _ => (ih .expression).bind fun inner =>
        (follows_expect _).bind fun _ => .pure inner) hc
    | _ => exact follows_unexpected .expression hc
  | _ => exact follows_unexpected .expression hc

theorem follows_call (name : String) (start : Span) :
    Follows stream (call (budget + 1) name start) (Parser.call (budget + 1) name start) :=
  (follows_expect _).bind fun _ => .ite_check_bind (.pure []) (ih .arguments) fun _ =>
    (follows_expect _).bind fun _ => .pure _

theorem follows_arguments :
    Follows stream (arguments (budget + 1)) (Parser.arguments (budget + 1)) :=
  (ih .expression).bind fun first =>
    .matchToken_bind (fun _ => (ih .arguments).bind fun _ => .pure _) (.pure [first])

end

end Cursor

end Slate
