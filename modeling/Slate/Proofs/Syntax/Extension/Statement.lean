-- SUMMARY: Reading statements goes the same way in a longer stream of tokens, recovery included, also up to the seam.
import Slate.Proofs.Syntax.Extension.Expression

/-!
# Reading statements in a longer stream

Statements agree as expressions do. A statement that is read also ends by itself:
its last token is a semicolon or a closing brace, so that it is read the same even
if that token is the last one of the short stream. `Firm` states this. Only an `if`
looks for what may follow its closing brace, and the seam makes sure that no `else`
does.

Recovery stops at a semicolon or a brace, and the last token before the seam is one,
so that it never goes on into the tokens behind the seam.
-/

namespace Slate.Parser

open Grammar (NotNext)
open State

variable {α β : Type} {more ts : List Token} {last t : Token} {s s₁ s₂ : State} {kind : Kind}
variable {m m' : ParseM α} {k k' : α → ParseM β} {f f' : State → ParseM α} {a : α}
variable {budget budget' : Nat}

/-! ## Simple statements -/

theorem agrees_semicolon : Agrees more last semicolon semicolon :=
  .bind (agrees_expect _) fun _ => .pure ()

theorem agrees_initializer (h : budget ≤ budget') :
    Agrees more last (initializer budget) (initializer budget') :=
  .bind (agrees_expect _) fun _ => .bind (expressionsAgree h).expression fun value =>
    .bind agrees_semicolon fun _ => .pure value

theorem agrees_declaration (h : budget ≤ budget') :
    Agrees more last (declaration budget) (declaration budget') := by
  refine .bind (agrees_expect _) fun _ => .bind agrees_expectIdentifier fun name =>
    .bind (agrees_accept? _) fun colon => ?_
  cases colon with
  | some _ =>
    refine .bind agrees_expectType fun ty => .bind (agrees_accept? _) fun stop => ?_
    cases stop with
    | some _ => exact .pure _
    | none => exact .bind (agrees_initializer h) fun _ => .pure _
  | none => exact .bind (agrees_initializer h) fun _ => .pure _

theorem agrees_needs : Agrees more last needs needs :=
  .bind (agrees_expect _) fun _ => .bind agrees_expectIdentifier fun _ =>
    .bind agrees_semicolon fun _ => .pure _

theorem agrees_ret (h : budget ≤ budget') : Agrees more last (ret budget) (ret budget') := by
  exact .bind (agrees_expect _) fun _ =>
    .ite_sees_bind (.pure none) (expressionsAgree h).expression.map fun _ =>
      .bind agrees_semicolon fun _ => .pure _

theorem agrees_assignmentOrExpression (h : budget ≤ budget') :
    Agrees more last (assignmentOrExpression budget) (assignmentOrExpression budget') := by
  intro s hs
  refine .get_bind (fun hc => ?_) ?_
  · simp only [sees_and_seesSecond_extend hs hc, ne_eq, reduceCtorEq, not_false_eq_true]
  split
  · exact agrees_expectIdentifier.bind (fun _ =>
      .bind (agrees_initializer h) fun _ => .pure _) hs
  · exact (expressionsAgree h).expression.bind (fun _ =>
      .bind agrees_semicolon fun _ => .pure _) hs

theorem agrees_params (h : budget ≤ budget') :
    Agrees more last (params budget) (params budget') := by
  induction budget generalizing budget' with
  | zero => exact .exhausted
  | succ budget ih =>
    obtain ⟨budget', rfl, hle⟩ := exists_of_succ_le h
    refine .bind agrees_expectIdentifier fun name => .bind (agrees_expect _) fun _ =>
      .bind agrees_expectType fun ty => .bind (agrees_accept? _) fun comma => ?_
    cases comma with
    | some _ => exact (ih hle).bind fun _ => .pure _
    | none => exact .pure _

/-! ## Recovery -/

/-- Recovery passes over no closing brace. -/
theorem resume_split (ts : List Token) :
    ∃ skipped, ts = skipped ++ resume ts ∧ ∀ t ∈ skipped, t.kind ≠ .mark .rightBrace := by
  induction ts with
  | nil => exact ⟨[], rfl, nofun⟩
  | cons t ts ih =>
    unfold resume
    split
    · next hsemicolon =>
      exact ⟨[t], rfl, List.forall_mem_singleton.2 (by rw [hsemicolon]; nofun)⟩
    · split
      · exact ⟨[], rfl, nofun⟩
      · next hbrace =>
        obtain ⟨skipped, hts, hskipped⟩ := ih
        exact ⟨t :: skipped, by rw [List.cons_append, ← hts],
          List.forall_mem_cons.2 ⟨hbrace, hskipped⟩⟩

theorem resume_suffix (ts : List Token) : resume ts <:+ ts := by
  obtain ⟨skipped, hts, -⟩ := resume_split ts
  exact ⟨skipped, hts.symm⟩

theorem resume_append (h : ∃ t ∈ ts, t.kind = .mark .semicolon ∨ t.kind = .mark .rightBrace) :
    resume (ts ++ more) = resume ts ++ more := by
  induction ts with
  | nil =>
    obtain ⟨_, hmem, -⟩ := h
    cases hmem
  | cons t ts ih =>
    simp only [List.cons_append, resume]
    split
    · rfl
    · next hsemicolon =>
      split
      · rfl
      · next hbrace =>
        obtain ⟨u, hmem, hk⟩ := h
        obtain rfl | hmem := List.mem_cons.1 hmem
        · exact absurd hk (not_or.2 ⟨hsemicolon, hbrace⟩)
        · exact ih ⟨u, hmem, hk⟩

/-- Recovery stops at the last token before the seam, if not earlier. -/
theorem Seam.resume_append (h : Seam more last s) (hne : s.rest ≠ []) :
    resume (s.rest ++ more) = resume s.rest ++ more := by
  by_cases hmore : more = []
  · rw [hmore, List.append_nil, List.append_nil]
  · have ht := List.getLast?_eq_some_getLast hne
    exact Parser.resume_append
      ⟨_, List.mem_of_getLast? ht, (h.closed hmore _ ht).imp_right And.left⟩

namespace State

/-- Where reading goes on if a statement that began at `before` cannot be read
past `after`. -/
def recovered (before after : State) : State :=
  let rest := resume after.rest
  { after with
    rest := if rest.length = before.rest.length then rest.tail else rest
    depth := before.depth }

theorem reaches_recovered (s s₁ : State) : s₁.Reaches (s.recovered s₁) := by
  refine ⟨?_, rfl⟩
  unfold State.recovered
  dsimp only
  split
  · exact (List.tail_suffix _).trans (resume_suffix s₁.rest)
  · exact resume_suffix s₁.rest

theorem Reaches.recovered (h : s.Reaches s₁) : s.Reaches (s.recovered s₁) :=
  h.trans (reaches_recovered s s₁)

/-- Recovery passes over a token, even if reading did not. -/
theorem Reaches.length_recovered_lt (h : s.Reaches s₁) (hne : s₁.rest ≠ []) :
    (s.recovered s₁).rest.length < s.rest.length := by
  have hpos : 0 < s₁.rest.length := List.length_pos_iff.2 hne
  have hle := h.length_le
  have hresume := (resume_suffix s₁.rest).length_le
  unfold State.recovered
  dsimp only
  split
  · rw [List.length_tail]
    omega
  · omega

theorem recovered_extend (hs : Seam more last s₁) (hr : s.Reaches s₁) (hne : s₁.rest ≠ []) :
    (s.extend more last).recovered (s₁.extend more last) = (s.recovered s₁).extend more last := by
  have hpos : 0 < s₁.rest.length := List.length_pos_iff.2 hne
  have hle := hr.length_le
  simp only [recovered, extend, hs.resume_append hne, List.length_append, Nat.add_right_cancel_iff,
    State.mk.injEq, and_true]
  split
  · next heq =>
    refine List.tail_append_of_ne_nil ?_
    rw [← List.length_pos_iff]
    omega
  · rfl

end State

section recovering

variable {m m' : ParseM Stmt} {stmt : Stmt} {fault : Fault} {span : Span}

theorem recovering_ok (h : m s = .ok stmt s₁) : recovering m s = .ok stmt s₁ := by
  simp only [recovering, h]

theorem recovering_exhausted (h : m s = .error .exhausted s₁) :
    recovering m s = .error .exhausted s₁ := by
  simp only [recovering, h]

theorem recovering_atEnd (h : m s = .error (.fault fault span) s₁) (hend : s₁.atEnd = true) :
    recovering m s = .error (.fault fault span) s₁ := by
  simp only [recovering, h, hend, if_true]

theorem recovering_fault (h : m s = .error (.fault fault span) s₁) (hend : s₁.atEnd = false) :
    recovering m s = .ok (.error s₁.view.text fault.reason span) (s.recovered s₁) := by
  simp only [recovering, h, hend, Bool.false_eq_true, if_false]
  rfl

/-- Where reading stops before the end, recovery does the same in the two streams. -/
theorem recovering_extend (hs : Seam more last s₁) (hr : s.Reaches s₁) (hend : s₁.atEnd = false)
    (h : m (s.extend more last) = .error (.fault fault span) (s₁.extend more last)) :
    recovering m (s.extend more last) =
      .ok (.error s₁.view.text fault.reason span) ((s.recovered s₁).extend more last) := by
  have hne : s₁.rest ≠ [] := List.isEmpty_eq_false_iff.1 hend
  rw [recovering_fault h ((atEnd_extend hs (.inl hne)).trans hend), view_extend hs (.inl hne),
    recovered_extend hs hr hne]

theorem Agrees.recovering (h : Agrees more last m m') :
    Agrees more last (recovering m) (Parser.recovering m') := by
  intro s hs
  unfold AgreesAt wp
  cases hm : m s with
  | ok stmt s₁ =>
    rw [recovering_ok hm]
    exact ⟨(h hs).reaches hm, (h hs).depth_eq hm, fun hc => recovering_ok ((h hs).ok hm hc)⟩
  | error failure s₁ =>
    have hr := (h hs).reaches_error hm
    cases failure with
    | exhausted =>
      rw [recovering_exhausted hm]
      exact ⟨hr, fun hf => absurd rfl hf⟩
    | fault fault span =>
      cases hend : s₁.atEnd with
      | true =>
        rw [recovering_atEnd hm hend]
        refine ⟨hr, fun hf hc => recovering_atEnd ((h hs).error hm hf hc) ?_⟩
        rw [atEnd_extend (hs.reaches hr) hc, hend]
      | false =>
        have hne : s₁.rest ≠ [] := List.isEmpty_eq_false_iff.1 hend
        rw [recovering_fault hm hend]
        exact ⟨hr.recovered, rfl, fun _ =>
          recovering_extend (hs.reaches hr) hr hend ((h hs).error hm nofun (.inl hne))⟩

end recovering

/-! ## Blocks -/

/-- Reads with one more block open. -/
def nested (m : ParseM α) : ParseM α := do
  modify fun s => { s with depth := s.depth + 1 }
  let a ← m
  modify fun s => { s with depth := s.depth - 1 }
  return a

theorem block_eq (budget : Nat) : block (budget + 1) = (do
    let start ← expect (.mark .leftBrace)
    let list ← nested (blockStatements budget)
    let stop ← expect (.mark .rightBrace)
    return .mk list (start.merge stop)) := by
  simp only [block, nested, bind_assoc, pure_bind]

theorem Agrees.nested (h : Agrees more last m m') :
    Agrees more last (nested m) (Parser.nested m') := by
  intro s hs
  have hs' : Seam more last { s with depth := s.depth + 1 } := ⟨hs.last, hs.closed⟩
  unfold AgreesAt Parser.nested
  rw [wp_bind]
  change wp (m >>= _) _ _ { s with depth := s.depth + 1 }
  rw [wp_bind]
  refine wp_mono (h hs') ?_ ?_
  · rintro a s₁ ⟨hr, hdepth, hok⟩
    refine ⟨⟨hr.suffix, hr.last⟩, Nat.sub_eq_of_eq_add hdepth, fun hc => ?_⟩
    exact bind_ok.2 ⟨_, _, rfl, bind_ok.2 ⟨a, _, hok hc, rfl⟩⟩
  · rintro failure s₁ ⟨hr, herror⟩
    exact ⟨⟨hr.suffix, hr.last⟩, fun hf hc =>
      (bind_of_ok rfl).trans (bind_of_error (herror hf hc))⟩

/-! ## One step of the descent -/

/-- The readers of statements do the same in the two streams, with the smaller
budget in the short one. -/
structure StatementsAgree (more : List Token) (last : Token) (budget budget' : Nat) : Prop where
  statement : Agrees more last (statement budget) (statement budget')
  strictStatement : Agrees more last (strictStatement budget) (strictStatement budget')
  function : Agrees more last (function budget) (function budget')
  ifChain : Agrees more last (ifChain budget) (ifChain budget')
  elseBranches : Agrees more last (elseBranches budget) (elseBranches budget')
  guarded : Agrees more last (guarded budget) (guarded budget')
  block : Agrees more last (block budget) (block budget')
  blockStatements : Agrees more last (blockStatements budget) (blockStatements budget')

namespace StatementsAgree

theorem zero : StatementsAgree more last 0 budget' where
  statement := .exhausted
  strictStatement := .exhausted
  function := .exhausted
  ifChain := .exhausted
  elseBranches := .exhausted
  guarded := .exhausted
  block := .exhausted
  blockStatements := .exhausted

variable (ih : StatementsAgree more last budget budget') (hle : budget ≤ budget')
include ih

theorem elseBranches_succ :
    Agrees more last (Parser.elseBranches (budget + 1)) (Parser.elseBranches (budget' + 1)) := by
  refine .bind (agrees_accept? _) fun accepted => ?_
  cases accepted with
  | some elseSpan =>
    refine .bind (agrees_accept? _) fun accepted => ?_
    cases accepted with
    | some ifSpan => exact ih.guarded.bind fun _ => ih.elseBranches.bind fun _ => .pure _
    | none => exact ih.block.bind fun _ => .pure _
  | none => exact .pure _

theorem ifChain_succ :
    Agrees more last (Parser.ifChain (budget + 1)) (Parser.ifChain (budget' + 1)) :=
  .bind (agrees_expect _) fun _ => ih.guarded.bind fun _ => ih.elseBranches.bind fun _ => .pure _

theorem block_succ :
    Agrees more last (Parser.block (budget + 1)) (Parser.block (budget' + 1)) := by
  rw [block_eq, block_eq]
  exact .bind (agrees_expect _) fun _ => ih.blockStatements.nested.bind fun _ =>
    .bind (agrees_expect _) fun _ => .pure _

theorem blockStatements_succ :
    Agrees more last (Parser.blockStatements (budget + 1))
      (Parser.blockStatements (budget' + 1)) := by
  intro s hs
  refine .get_bind (fun hc => by simp only [sees_extend hs hc, atEnd_extend hs hc]) ?_
  split
  · exact Agrees.pure [] hs
  · exact ih.statement.bind (fun _ => ih.blockStatements.bind fun _ => .pure _) hs

include hle

theorem guarded_succ :
    Agrees more last (Parser.guarded (budget + 1)) (Parser.guarded (budget' + 1)) :=
  .bind (agrees_expect _) fun _ => (expressionsAgree hle).expression.bind fun _ =>
    .bind (agrees_expect _) fun _ => ih.block.bind fun _ => .pure _

theorem function_succ :
    Agrees more last (Parser.function (budget + 1)) (Parser.function (budget' + 1)) := by
  refine .bind (agrees_expect _) fun _ => .bind agrees_expectIdentifier fun name =>
    .bind (agrees_expect _) fun _ => .ite_sees_bind (.pure []) (agrees_params hle) fun list =>
      .bind (agrees_expect _) fun _ => .bind (agrees_accept? _) fun arrow => ?_
  cases arrow with
  | some _ => exact .bind agrees_expectType.map fun _ => ih.block.bind fun _ => .pure _
  | none => exact .bind (.pure none) fun _ => ih.block.bind fun _ => .pure _

theorem strictStatement_succ :
    Agrees more last (Parser.strictStatement (budget + 1))
      (Parser.strictStatement (budget' + 1)) := by
  intro s hs
  refine .get_bind (fun hc => ?_) ?_
  · simp only [view_extend hs hc]; rfl
  cases s.view.kind with
  | keyword k =>
    cases k with
    | letKw => exact agrees_declaration hle hs
    | needsKw => exact agrees_needs hs
    | fnKw =>
      dsimp only
      split
      · exact Agrees.failAt _ _ hs
      · exact ih.function hs
    | ifKw => exact ih.ifChain hs
    | whileKw =>
      exact (agrees_expect _).bind (fun _ => ih.guarded.bind fun _ => .pure _) hs
    | returnKw => exact agrees_ret hle hs
    | breakKw | continueKw =>
      exact (agrees_expect _).bind (fun _ => agrees_semicolon.bind fun _ => .pure _) hs
    | _ => exact agrees_assignmentOrExpression hle hs
  | mark m =>
    cases m with
    | leftBrace => exact ih.block.bind (fun _ => .pure _) hs
    | _ => exact agrees_assignmentOrExpression hle hs
  | _ => exact agrees_assignmentOrExpression hle hs

theorem succ : StatementsAgree more last (budget + 1) (budget' + 1) where
  statement := ih.strictStatement.recovering
  strictStatement := ih.strictStatement_succ hle
  function := ih.function_succ hle
  ifChain := ih.ifChain_succ
  elseBranches := ih.elseBranches_succ
  guarded := ih.guarded_succ hle
  block := ih.block_succ
  blockStatements := ih.blockStatements_succ

end StatementsAgree

/-! ## The whole descent -/

theorem statementsAgree (h : budget ≤ budget') : StatementsAgree more last budget budget' := by
  induction budget generalizing budget' with
  | zero => exact .zero
  | succ budget ih =>
    obtain ⟨budget', rfl, hle⟩ := exists_of_succ_le h
    exact (ih hle).succ hle

/-! ## Up to the seam -/

/-- What `m` yields at this place, `m'` yields where the stream goes on with `more`,
also if nothing is left before the seam; and a token is passed over. -/
def FirmAt (more : List Token) (last : Token) (s : State) (m m' : ParseM α) : Prop :=
  ∀ ⦃a s₁⦄, m s = .ok a s₁ → s₁.rest.length < s.rest.length ∧
    m' (s.extend more last) = .ok a (s₁.extend more last)

/-- What the one program yields in the short stream, the other one yields in the long
one, also up to the seam. -/
def Firm (more : List Token) (last : Token) (m m' : ParseM α) : Prop :=
  ∀ ⦃s⦄, Seam more last s → FirmAt more last s m m'

/-- If the program reads up to the seam, then no `else` stands behind it. -/
def Closes (more : List Token) (last : Token) (m : ParseM α) : Prop :=
  ∀ ⦃s⦄, Seam more last s → ∀ ⦃a s₁⦄, m s = .ok a s₁ → s₁.rest = [] →
    NotNext (.keyword .elseKw) more

/-- As `Firm`, but perhaps without passing over a token, and only where no `else`
stands behind the seam if that is near. -/
def Continues (more : List Token) (last : Token) (m m' : ParseM α) : Prop :=
  ∀ ⦃s⦄, Seam more last s → (s.rest = [] → NotNext (.keyword .elseKw) more) →
    ∀ ⦃a s₁⦄, m s = .ok a s₁ → s₁.rest.length ≤ s.rest.length ∧
      m' (s.extend more last) = .ok a (s₁.extend more last)

theorem FirmAt.get_bind (hf : s.Clear more → f' (s.extend more last) = f' s)
    (h : FirmAt more last s (f s) (f' s)) :
    FirmAt more last s (get >>= f) (get >>= f') := by
  intro a s₁ hm
  obtain ⟨hlt, hm'⟩ := h (get_bind_ok.1 hm)
  refine ⟨hlt, get_bind_ok.2 ?_⟩
  rw [hf (clear_of_length_lt hlt)]
  exact hm'

namespace Firm

theorem fail {failure : Failure} : Firm more last (throw failure) m' :=
  fun _ _ _ _ h => absurd h throw_ok

theorem bind (h : Agrees more last m m') (hk : ∀ a, Firm more last (k a) (k' a)) :
    Firm more last (m >>= k) (m' >>= k') := by
  intro s hs b s₂ hb
  obtain ⟨a, s₁, hm, hka⟩ := bind_ok.1 hb
  have hr := (h hs).reaches hm
  obtain ⟨hlt, hka'⟩ := hk a (hs.reaches hr) hka
  have hm' := (h hs).ok hm (clear_of_length_lt hlt)
  exact ⟨Nat.lt_of_lt_of_le hlt hr.length_le, bind_ok.2 ⟨a, _, hm', hka'⟩⟩

/-- Making something of the value reads nothing. -/
theorem bind_pure (h : Firm more last m m') (g : α → β) :
    Firm more last (m >>= fun a => pure (g a)) (m' >>= fun a => pure (g a)) := by
  intro s hs b s₂ hb
  obtain ⟨a, s₁, hm, hka⟩ := bind_ok.1 hb
  obtain ⟨rfl, rfl⟩ := pure_ok.1 hka
  obtain ⟨hlt, hm'⟩ := h hs hm
  exact ⟨hlt, bind_ok.2 ⟨a, _, hm', rfl⟩⟩

/-- Where the first part closes, the second one may read nothing. -/
theorem bind_of_closes (hr : Agrees more last m m') (h : Firm more last m m')
    (hc : Closes more last m) (hk : ∀ a, Continues more last (k a) (k' a)) :
    Firm more last (m >>= k) (m' >>= k') := by
  intro s hs b s₂ hb
  obtain ⟨a, s₁, hm, hka⟩ := bind_ok.1 hb
  obtain ⟨hlt, hm'⟩ := h hs hm
  obtain ⟨hle, hka'⟩ := hk a (hs.reaches ((hr hs).reaches hm)) (hc hs hm) hka
  exact ⟨Nat.lt_of_le_of_lt hle hlt, bind_ok.2 ⟨a, _, hm', hka'⟩⟩

theorem accept?_bind {k k' : Option Span → ParseM α} (g : Span → α)
    (hsome : ∀ span, k (some span) = pure (g span) ∧ k' (some span) = pure (g span))
    (hnone : Firm more last (k none) (k' none)) :
    Firm more last (accept? kind >>= k) (accept? kind >>= k') := by
  rintro ⟨ts, last', depth⟩ hs a s₂ h
  obtain ⟨r, s₁, h₁, h₂⟩ := bind_ok.1 h
  obtain ⟨t, rest, rfl, hk, rfl, rfl⟩ | ⟨-, rfl, rfl⟩ := accept?_ok.1 h₁
  · obtain ⟨hpure, hpure'⟩ := hsome t.span
    rw [hpure] at h₂
    obtain ⟨rfl, rfl⟩ := pure_ok.1 h₂
    exact ⟨Nat.lt_succ_self _, bind_ok.2 ⟨_, _, accept?_cons hk, by rw [hpure']; rfl⟩⟩
  · obtain ⟨hlt, h'⟩ := hnone hs h₂
    exact ⟨hlt, bind_ok.2 ⟨none, _, (agrees_accept? kind hs).ok h₁ (clear_of_length_lt hlt), h'⟩⟩

theorem ite_sees_bind {n n' : ParseM α} (h : Agrees more last m m') (hn : Agrees more last n n')
    (hk : ∀ a, Firm more last (k a) (k' a)) :
    Firm more last (get >>= fun s => if s.sees kind = true then m >>= k else n >>= k)
      (get >>= fun s => if s.sees kind = true then m' >>= k' else n' >>= k') := by
  intro s hs
  refine .get_bind (fun hc => by simp only [sees_extend hs hc]) ?_
  split
  · exact Firm.bind h hk hs
  · exact Firm.bind hn hk hs

end Firm

namespace Closes

theorem fail {failure : Failure} : Closes more last (throw failure : ParseM α) :=
  fun _ _ _ _ h => absurd h throw_ok

theorem bind (h : Agrees more last m m') (hk : ∀ a, Closes more last (k a)) :
    Closes more last (m >>= k) := by
  intro s hs b s₂ hb
  obtain ⟨a, s₁, hm, hka⟩ := bind_ok.1 hb
  exact hk a (hs.reaches ((h hs).reaches hm)) hka

theorem bind_pure (h : Closes more last m) (g : α → β) :
    Closes more last (m >>= fun a => pure (g a)) := by
  intro s hs b s₂ hb
  obtain ⟨a, s₁, hm, hka⟩ := bind_ok.1 hb
  obtain ⟨rfl, rfl⟩ := pure_ok.1 hka
  exact h hs hm

end Closes

namespace Continues

theorem fail {failure : Failure} : Continues more last (throw failure) m' :=
  fun _ _ _ _ _ h => absurd h throw_ok

theorem bind_pure (h : Continues more last m m') (g : α → β) :
    Continues more last (m >>= fun a => pure (g a)) (m' >>= fun a => pure (g a)) := by
  intro s hs hend b s₂ hb
  obtain ⟨a, s₁, hm, hka⟩ := bind_ok.1 hb
  obtain ⟨rfl, rfl⟩ := pure_ok.1 hka
  obtain ⟨hle, hm'⟩ := h hs hend hm
  exact ⟨hle, bind_ok.2 ⟨a, _, hm', rfl⟩⟩

/-- An `else` begins what goes on, or nothing does. -/
theorem accept?_else {k k' : Option Span → ParseM α} (a : α)
    (hsome : ∀ span, Firm more last (k (some span)) (k' (some span)))
    (hnone : k none = pure a) (hnone' : k' none = pure a) :
    Continues more last (accept? (.keyword .elseKw) >>= k)
      (accept? (.keyword .elseKw) >>= k') := by
  rintro ⟨ts, last', depth⟩ hs hend b s₂ h
  obtain ⟨accepted, s₁, h₁, h₂⟩ := bind_ok.1 h
  have hs₁ := hs.reaches ((agrees_accept? _ hs).reaches h₁)
  obtain ⟨t, rest, rfl, hk, rfl, rfl⟩ | ⟨hnext, rfl, rfl⟩ := accept?_ok.1 h₁
  · obtain ⟨hlt, h'⟩ := hsome t.span hs₁ h₂
    exact ⟨Nat.le_succ_of_le (Nat.le_of_lt hlt), bind_ok.2 ⟨_, _, accept?_cons hk, h'⟩⟩
  · rw [hnone] at h₂
    obtain ⟨rfl, rfl⟩ := pure_ok.1 h₂
    have hboth : NotNext (.keyword .elseKw) (ts ++ more) := hnext.append hend
    refine ⟨Nat.le_refl _, bind_ok.2 ⟨none, _, accept?_none hboth, ?_⟩⟩
    rw [hnone']
    rfl

end Continues

/-! ### Simple statements -/

theorem firm_expect (kind : Kind) : Firm more last (expect kind) (expect kind) := by
  rintro ⟨ts, last', depth⟩ hs span s₁ h
  obtain ⟨t, rest, rfl, hk, rfl, rfl⟩ := expect_ok.1 h
  exact ⟨Nat.lt_succ_self _, expect_cons hk⟩

theorem firm_semicolon : Firm more last semicolon semicolon :=
  (firm_expect _).bind_pure fun _ => ()

theorem firm_initializer (h : budget ≤ budget') :
    Firm more last (initializer budget) (initializer budget') :=
  .bind (agrees_expect _) fun _ => .bind (expressionsAgree h).expression fun value =>
    firm_semicolon.bind_pure fun _ => value

theorem firm_declaration (h : budget ≤ budget') :
    Firm more last (declaration budget) (declaration budget') := by
  refine .bind (agrees_expect _) fun _ => .bind agrees_expectIdentifier fun name =>
    .bind (agrees_accept? _) fun colon => ?_
  cases colon with
  | some _ =>
    exact .bind agrees_expectType fun ty =>
      .accept?_bind _ (fun _ => ⟨rfl, rfl⟩) ((firm_initializer h).bind_pure _)
  | none => exact (firm_initializer h).bind_pure _

theorem firm_needs : Firm more last needs needs :=
  .bind (agrees_expect _) fun _ => .bind agrees_expectIdentifier fun _ =>
    firm_semicolon.bind_pure _

theorem firm_ret (h : budget ≤ budget') : Firm more last (ret budget) (ret budget') :=
  .bind (agrees_expect _) fun _ =>
    .ite_sees_bind (.pure none) (expressionsAgree h).expression.map fun _ =>
      firm_semicolon.bind_pure _

theorem firm_assignmentOrExpression (h : budget ≤ budget') :
    Firm more last (assignmentOrExpression budget) (assignmentOrExpression budget') := by
  intro s hs
  refine .get_bind (fun hc => ?_) ?_
  · simp only [sees_and_seesSecond_extend hs hc, ne_eq, reduceCtorEq, not_false_eq_true]
  split
  · exact Firm.bind agrees_expectIdentifier (fun _ => (firm_initializer h).bind_pure _) hs
  · exact Firm.bind (expressionsAgree h).expression (fun _ => firm_semicolon.bind_pure _) hs

/-! ### Statements with blocks -/

theorem firm_block (h : budget ≤ budget') : Firm more last (block budget) (block budget') := by
  cases budget with
  | zero => exact .fail
  | succ budget =>
    obtain ⟨budget', rfl, hle⟩ := exists_of_succ_le h
    rw [block_eq, block_eq]
    have hlist : Agrees more last (blockStatements budget) (blockStatements budget') :=
      (statementsAgree hle).blockStatements
    exact .bind (agrees_expect _) fun _ => .bind hlist.nested fun _ =>
      (firm_expect _).bind_pure _

/-- The brace that closes a block is the last token before the seam, if nothing is
left behind it. -/
theorem closes_rightBrace : Closes more last (expect (.mark .rightBrace)) := by
  rintro ⟨ts, last', depth⟩ hs span s₁ h hend
  obtain ⟨t, rest, rfl, hk, rfl, rfl⟩ := expect_ok.1 h
  obtain rfl : rest = [] := hend
  by_cases hmore : more = []
  · rw [hmore]
    exact nofun
  · obtain hsemicolon | ⟨-, hnext⟩ := hs.closed hmore t rfl
    · exact absurd (hk.symm.trans hsemicolon) nofun
    · exact hnext

theorem closes_block : Closes more last (block budget) := by
  cases budget with
  | zero => exact .fail
  | succ budget =>
    rw [block_eq]
    have hlist : Agrees more last (blockStatements budget) (blockStatements budget) :=
      (statementsAgree (Nat.le_refl budget)).blockStatements
    exact .bind (agrees_expect _) fun _ => .bind hlist.nested fun _ =>
      closes_rightBrace.bind_pure _

theorem closes_guarded : Closes more last (guarded budget) := by
  cases budget with
  | zero => exact .fail
  | succ budget =>
    have hcondition : Agrees more last (expression budget) (expression budget) :=
      (expressionsAgree (Nat.le_refl budget)).expression
    exact .bind (agrees_expect _) fun _ => .bind hcondition fun _ =>
      .bind (agrees_expect _) fun _ => closes_block.bind_pure _

theorem firm_guarded (h : budget ≤ budget') :
    Firm more last (guarded budget) (guarded budget') := by
  cases budget with
  | zero => exact .fail
  | succ budget =>
    obtain ⟨budget', rfl, hle⟩ := exists_of_succ_le h
    exact .bind (agrees_expect _) fun _ => .bind (expressionsAgree hle).expression fun _ =>
      .bind (agrees_expect _) fun _ => (firm_block hle).bind_pure _

theorem continues_elseBranches (h : budget ≤ budget') :
    Continues more last (elseBranches budget) (elseBranches budget') := by
  induction budget generalizing budget' with
  | zero => exact .fail
  | succ budget ih =>
    obtain ⟨budget', rfl, hle⟩ := exists_of_succ_le h
    refine .accept?_else _ (fun elseSpan => .bind (agrees_accept? _) fun accepted => ?_) rfl rfl
    cases accepted with
    | some ifSpan =>
      exact .bind_of_closes (statementsAgree hle).guarded (firm_guarded hle) closes_guarded
        fun _ => (ih hle).bind_pure _
    | none => exact (firm_block hle).bind_pure _

theorem firm_ifChain (h : budget ≤ budget') :
    Firm more last (ifChain budget) (ifChain budget') := by
  cases budget with
  | zero => exact .fail
  | succ budget =>
    obtain ⟨budget', rfl, hle⟩ := exists_of_succ_le h
    exact .bind (agrees_expect _) fun _ => .bind_of_closes (statementsAgree hle).guarded
      (firm_guarded hle) closes_guarded fun _ => (continues_elseBranches hle).bind_pure _

theorem firm_function (h : budget ≤ budget') :
    Firm more last (function budget) (function budget') := by
  cases budget with
  | zero => exact .fail
  | succ budget =>
    obtain ⟨budget', rfl, hle⟩ := exists_of_succ_le h
    refine .bind (agrees_expect _) fun _ => .bind agrees_expectIdentifier fun name =>
      .bind (agrees_expect _) fun _ => .ite_sees_bind (.pure []) (agrees_params hle) fun list =>
        .bind (agrees_expect _) fun _ => .bind (agrees_accept? _) fun arrow => ?_
    cases arrow with
    | some _ => exact .bind agrees_expectType.map fun _ => (firm_block hle).bind_pure _
    | none => exact .bind (.pure none) fun _ => (firm_block hle).bind_pure _

/-! ### Statements -/

theorem Firm.recovering {m m' : ParseM Stmt} (h : Firm more last m m')
    (hr : Agrees more last m m') : Firm more last (recovering m) (Parser.recovering m') := by
  intro s hs stmt s₂ hstmt
  cases hm : m s with
  | ok stmt' s₁ =>
    rw [recovering_ok hm] at hstmt
    cases hstmt
    obtain ⟨hlt, hm'⟩ := h hs hm
    exact ⟨hlt, recovering_ok hm'⟩
  | error failure s₁ =>
    cases failure with
    | exhausted =>
      rw [recovering_exhausted hm] at hstmt
      cases hstmt
    | fault fault span =>
      have hreach := (hr hs).reaches_error hm
      cases hend : s₁.atEnd with
      | true =>
        rw [recovering_atEnd hm hend] at hstmt
        cases hstmt
      | false =>
        have hne : s₁.rest ≠ [] := List.isEmpty_eq_false_iff.1 hend
        rw [recovering_fault hm hend] at hstmt
        cases hstmt
        exact ⟨hreach.length_recovered_lt hne, recovering_extend (hs.reaches hreach) hreach hend
          ((hr hs).error hm nofun (.inl hne))⟩

theorem firm_strictStatement (h : budget ≤ budget') :
    Firm more last (strictStatement budget) (strictStatement budget') := by
  cases budget with
  | zero => exact .fail
  | succ budget =>
    obtain ⟨budget', rfl, hle⟩ := exists_of_succ_le h
    intro s hs
    refine .get_bind (fun hc => ?_) ?_
    · simp only [view_extend hs hc]
      rfl
    cases s.view.kind with
    | keyword k =>
      cases k with
      | letKw => exact firm_declaration hle hs
      | needsKw => exact firm_needs hs
      | fnKw =>
        dsimp only
        split
        · exact Firm.fail hs
        · exact firm_function hle hs
      | ifKw => exact firm_ifChain hle hs
      | whileKw =>
        exact Firm.bind (agrees_expect _) (fun _ => (firm_guarded hle).bind_pure _) hs
      | returnKw => exact firm_ret hle hs
      | breakKw | continueKw =>
        exact Firm.bind (agrees_expect _) (fun _ => firm_semicolon.bind_pure _) hs
      | _ => exact firm_assignmentOrExpression hle hs
    | mark m =>
      cases m with
      | leftBrace => exact (firm_block hle).bind_pure _ hs
      | _ => exact firm_assignmentOrExpression hle hs
    | _ => exact firm_assignmentOrExpression hle hs

/-- A statement is read to its end or recovered from, and either way it passes over a
token and is the same in the two streams. -/
theorem firm_statement (h : budget ≤ budget') :
    Firm more last (statement budget) (statement budget') := by
  cases budget with
  | zero => exact .fail
  | succ budget =>
    obtain ⟨budget', rfl, hle⟩ := exists_of_succ_le h
    exact (firm_strictStatement hle).recovering (statementsAgree hle).strictStatement

end Slate.Parser
