-- SUMMARY: What is promised of every reader at every place, and the laws by which a promise goes through the body of a reader.
import Slate.Proofs.Syntax.Course
import Slate.Proofs.Syntax.Reader

/-!
# Walks

A walk is the run of a reader from some place of a stream. What is promised of a walk does not
depend on the reader, but for a few terms. If it comes to an end, it has taken a course, and the
nodes and blocks on the way are those of what it yields. If it is stopped, then either its budget
was not enough, or nothing is left, or a fault stops it at the next token, and the course up to
there is known as well.

At the end the last token stays in view, so a reader could mistake it for one that is still to be
read, and be stopped there by a fault that has nothing to do with the end. This does not happen to
a reader that is ready. Where an expression is due, the token passed over last is an operator, a
keyword or a mark, and none of these is read for itself; everything else that the readers look
for, they find missing.

Each law below is about the rest of a walk: a program that goes on from the place `s₁`, which has
been reached from `s`, where the walk began.
-/

namespace Slate.Parser

open State

variable {α β γ : Type} {s s₁ s₂ : State} {budget budget' cost cost' : Nat}
variable {nodes nodes' : List ErrorNode} {blocks blocks' : List Block}
variable {kind : Kind} {failure : Failure} {fault : Fault} {span : Span}

/-! ## Places -/

/-- What is left ends with the last token of the stream. -/
def State.Ends (s : State) : Prop := ∀ t, s.rest.getLast? = some t → t = s.last

theorem State.ends_of_suffix {tokens : List Token} (hlast : tokens.getLast? = some s.last)
    (hsuffix : s.rest <:+ tokens) : s.Ends := by
  intro t ht
  obtain ⟨before, hbefore⟩ := hsuffix
  rw [← hbefore, List.getLast?_append, ht, Option.some_or] at hlast
  exact Option.some.inj hlast

theorem State.Ends.reaches (h : s.Ends) (hr : s.Reaches s₁) : s₁.Ends := by
  intro t ht
  obtain ⟨before, hrest⟩ := hr.suffix
  rw [hr.last]
  refine h t ?_
  rw [← hrest, List.getLast?_append, ht, Option.some_or]

/-- Behind a token that is not read for itself, no operand is in view but what is left. -/
theorem State.Ends.due {t last : Token} {ts : List Token} {depth : Nat}
    (h : State.Ends ⟨t :: ts, last, depth⟩) (hself : isSelfContained t.kind = false) :
    Due ts last := by
  rintro rfl
  obtain rfl : t = last := h t rfl
  exact hself

/-- Reading has moved on from the first place to the second one, by one token or more, and has
not left the stream. -/
structure State.Passes (s s₁ : State) : Prop where
  last : s₁.last = s.last
  tokens : ∃ passed, passed ≠ [] ∧ s.rest = passed ++ s₁.rest

theorem State.Reaches.passes (h : s.Reaches s₁) (hlt : s₁.rest.length < s.rest.length) :
    s.Passes s₁ := by
  obtain ⟨passed, hpassed⟩ := h.suffix
  refine ⟨h.last, passed, ?_, hpassed.symm⟩
  rintro rfl
  rw [← hpassed, List.nil_append] at hlt
  exact absurd hlt (Nat.lt_irrefl _)

namespace State.Passes

theorem reaches (h : s.Passes s₁) : s.Reaches s₁ := by
  obtain ⟨passed, -, htokens⟩ := h.tokens
  exact ⟨⟨passed, htokens.symm⟩, h.last⟩

theorem length_lt (h : s.Passes s₁) : s₁.rest.length < s.rest.length := by
  obtain ⟨passed, hne, htokens⟩ := h.tokens
  have hpos : 0 < passed.length := List.length_pos_iff.2 hne
  rw [htokens, List.length_append]
  omega

theorem before (h : s₁.Passes s₂) (hr : s.Reaches s₁) : s.Passes s₂ :=
  (hr.trans h.reaches).passes (Nat.lt_of_lt_of_le h.length_lt hr.length_le)

theorem behind (h : s.Passes s₁) (hr : s₁.Reaches s₂) : s.Passes s₂ :=
  (h.reaches.trans hr).passes (Nat.lt_of_le_of_lt hr.length_le h.length_lt)

end State.Passes

theorem passes_cons {t last : Token} {ts : List Token} {depth : Nat} :
    State.Passes ⟨t :: ts, last, depth⟩ ⟨ts, last, depth⟩ :=
  State.Reaches.passes ⟨List.suffix_cons t ts, rfl⟩ (Nat.lt_succ_self _)

/-- The budget is enough for a reader of this cost and for all that may follow. -/
structure Enough (cost budget : Nat) (s : State) : Prop where
  last : s.last.kind ≠ .mark .leftParen
  le : 16 * s.rest.length + cost ≤ budget

namespace Enough

theorem reaches (h : Enough cost budget s) (hr : s.Reaches s₁)
    (hcost : cost' + budget ≤ cost + budget') : Enough cost' budget' s₁ where
  last := by rw [hr.last]; exact h.last
  le := by
    have hle := h.le
    have hlength := hr.length_le
    omega

/-- Each token that is passed over pays for the readers in between. -/
theorem behind (h : Enough cost budget s) (hpass : s.Passes s₁)
    (hcost : cost' + budget ≤ cost + budget' + 16) : Enough cost' budget' s₁ where
  last := by rw [hpass.last]; exact h.last
  le := by
    have hle := h.le
    have hlt := hpass.length_lt
    omega

end Enough

/-! ## Ways -/

/-- Reading has come from the first place to the second one, over passages that make these nodes
and with these blocks. -/
structure Gone (outside : Bool) (s : State) (nodes : List ErrorNode) (blocks : List Block)
    (s₁ : State) : Prop where
  last : s₁.last = s.last
  course : ∃ passages, Course outside s.rest passages blocks s₁.rest ∧
    passages.map Passage.node = nodes

namespace Gone

variable {outside outside' : Bool}

theorem refl (s : State) : Gone outside s [] [] s := ⟨rfl, [], .rest _, rfl⟩

theorem reaches (g : Gone outside s nodes blocks s₁) : s.Reaches s₁ := by
  obtain ⟨passages, hcourse, -⟩ := g.course
  exact ⟨hcourse.suffix, g.last⟩

theorem trans (g : Gone outside s nodes blocks s₁) (g₁ : Gone outside s₁ nodes' blocks' s₂) :
    Gone outside s (nodes ++ nodes') (blocks ++ blocks') s₂ where
  last := g₁.last.trans g.last
  course := by
    obtain ⟨passages, hcourse, rfl⟩ := g.course
    obtain ⟨passages', hcourse', rfl⟩ := g₁.course
    exact ⟨passages ++ passages', hcourse.append hcourse', List.map_append⟩

theorem outwards (g : Gone outside' s nodes blocks s₁) (h : outside' = true → outside = true) :
    Gone outside s nodes blocks s₁ where
  last := g.last
  course := by
    obtain ⟨passages, hcourse, hnodes⟩ := g.course
    refine ⟨passages, ?_, hnodes⟩
    cases outside' with
    | true => rwa [h rfl]
    | false =>
      cases outside with
      | true => exact hcourse.outwards
      | false => exact hcourse

/-- A plain token adds nothing. -/
theorem plain {t last : Token} {ts : List Token} {depth : Nat}
    (g : Gone outside s nodes blocks ⟨t :: ts, last, depth⟩) (h : t.IsPlain) :
    Gone outside s nodes blocks ⟨ts, last, depth⟩ where
  last := g.last
  course := by
    obtain ⟨passages, hcourse, hnodes⟩ := g.course
    refine ⟨passages, ?_, hnodes⟩
    have happend := hcourse.append (.plain h)
    rwa [List.append_nil, List.append_nil] at happend

end Gone

/-- Reading has come here from `s` behind a token. -/
structure Past (s : State) (nodes : List ErrorNode) (blocks : List Block) (s₁ : State) : Prop where
  gone : Gone false s nodes blocks s₁
  passes : s.Passes s₁

/-- Behind the token that was passed over last, an operand may be due. -/
structure Behind (s : State) (nodes : List ErrorNode) (blocks : List Block) (s₁ : State) : Prop
    extends Past s nodes blocks s₁ where
  due : s.Ends → Due s₁.rest s₁.last

theorem Gone.behind {t last : Token} {ts : List Token} {depth : Nat}
    (g : Gone false s nodes blocks ⟨t :: ts, last, depth⟩) (hplain : isPlainKind t.kind = true)
    (hself : isSelfContained t.kind = false) : Behind s nodes blocks ⟨ts, last, depth⟩ where
  gone := g.plain (isPlain_of_kind hplain)
  passes := passes_cons.before g.reaches
  due hends := (hends.reaches g.reaches).due hself

/-! ## Promises -/

/-- What is known of a walk before it begins, and which faults may stop it before the end. -/
structure Terms where
  /-- A statement may begin with a closing brace. -/
  outside : Bool
  ready : Prop
  enough : Prop
  faults : Fault → Prop

/-- A walk from `s` is stopped at `s₁`. At the end, a token is missing; before the end, a fault of
the next token is met. -/
inductive Halts (T : Terms) (s : State) : Failure → State → Prop
  | exhausted {s₁ : State} (spent : ¬ T.enough) : Halts T s .exhausted s₁
  | missing {s₁ : State} {fault : Fault} {span : Span} (nothingLeft : s₁.rest = [])
      (lacks : T.ready → ∃ what, fault = .expected what none ∧ span = s.last.span) :
      Halts T s (.fault fault span) s₁
  | charged {s₁ : State} {t : Token} {ts : List Token} {fault : Fault} {span : Span}
      {nodes : List ErrorNode} {blocks : List Block} (left : s₁.rest = t :: ts)
      (gone : Gone T.outside s nodes blocks s₁) (charged : Charged s.rest t ts fault span)
      (met : T.faults fault) : Halts T s (.fault fault span) s₁

/-- The terms of a part of a walk let it do no more than those of the whole. -/
structure Terms.Within (T' T : Terms) : Prop where
  outside : T'.outside = true → T.outside = true
  ready : T.ready → T'.ready
  enough : T.enough → T'.enough
  faults : ∀ fault, T'.faults fault → T.faults fault

/-- Where a part of the walk is stopped, the walk is. -/
theorem Halts.part {T T' : Terms} (h : Halts T' s₁ failure s₂)
    (g : Gone T.outside s nodes blocks s₁) (hT : T'.Within T) : Halts T s failure s₂ := by
  cases h with
  | exhausted spent => exact .exhausted fun henough => spent (hT.enough henough)
  | missing nothingLeft lacks =>
    refine .missing nothingLeft fun hready => ?_
    rw [← g.last]
    exact lacks (hT.ready hready)
  | charged left gone charged met =>
    exact .charged left (g.trans (gone.outwards hT.outside)) (charged.mono g.reaches.suffix)
      (hT.faults _ met)

/-- From `s₁`, a walk that began at `s` keeps to its terms, and what it yields is as in `Q`. -/
def Keeps (T : Terms) (s : State) (Q : α → State → Prop) (m : ParseM α) (s₁ : State) : Prop :=
  wp m Q (Halts T s) s₁

theorem Keeps.bind {T T' : Terms} {Q : α → State → Prop} {Q' : β → State → Prop} {m : ParseM β}
    {k : β → ParseM α} (h : Keeps T' s₁ Q' m s₁) (g : Gone T.outside s nodes blocks s₁)
    (hT : T'.Within T) (hk : ∀ b s₂, Q' b s₂ → Keeps T s Q (k b) s₂) :
    Keeps T s Q (m >>= k) s₁ :=
  wp_bind.2 (wp_mono h hk fun _ _ hstops => hstops.part g hT)

theorem Keeps.get_bind {T : Terms} {Q : α → State → Prop} {f : State → ParseM α}
    (h : Keeps T s Q (f s₁) s₁) : Keeps T s Q (get >>= f) s₁ := h

namespace Reader

/-- Where a reader may begin, so that at the end nothing but a missing token stops it: a reader
of operands where one is due, a reader of statements where a token is left. -/
def Ready {γ : Type} : Reader γ → State → Prop
  | .expression, s | .binary .., s | .unary, s | .primary, s | .arguments, s => Due s.rest s.last
  | .assignmentOrExpression, s | .statement, s | .strictStatement, s => s.rest ≠ []
  | _, _ => True

/-- Whether what is read may begin with a closing brace. -/
def outside {γ : Type} : Reader γ → State → Bool
  | .statement, s => s.sees (.mark .rightBrace)
  | .programStatements, _ => true
  | _, _ => false

/-- The faults that stop the reader before the end. Statements are recovered from, and a function
is out of place only where a statement begins. -/
def Faults {γ : Type} : Reader γ → State → Fault → Prop
  | .statement, _, _ | .blockStatements, _, _ | .programStatements, _, _ => False
  | .strictStatement, s, fault => fault = .nestedFunction → 0 < s.depth
  | _, _, fault => fault ≠ .nestedFunction

/-- The error nodes of what the reader yields. -/
def errorsOf {γ : Type} : Reader γ → γ → List ErrorNode
  | .declaration, stmt | .ret, stmt | .assignmentOrExpression, stmt | .statement, stmt
  | .strictStatement, stmt | .function, stmt | .ifChain, stmt => stmt.errors
  | .elseBranches, (branches, otherwise) =>
    branchErrors branches ++ (otherwise.map Block.errors).getD []
  | .guarded, (_, body) => body.errors
  | .block, body => body.errors
  | .blockStatements, list | .programStatements, list => statementErrors list
  | _, _ => []

/-- The blocks of what the reader yields. -/
def blocksOf {γ : Type} : Reader γ → γ → List Block
  | .declaration, stmt | .ret, stmt | .assignmentOrExpression, stmt | .statement, stmt
  | .strictStatement, stmt | .function, stmt | .ifChain, stmt => stmt.blocks
  | .elseBranches, (branches, otherwise) =>
    branchBlocks branches ++ (otherwise.map Block.blocks).getD []
  | .guarded, (_, body) => body.blocks
  | .block, body => body.blocks
  | .blockStatements, list | .programStatements, list => statementBlocks list
  | _, _ => []

/-- Where the reader leaves the stream. -/
def Leaves {γ : Type} : Reader γ → State → State → Prop
  | .expression, s, s₁ | .binary .., s, s₁ | .unary, s, s₁ | .primary, s, s₁
  | .arguments, s, s₁ => s.Ends → Due s.rest s.last → s.Passes s₁
  | .statement, s, s₁ => s.Passes s₁
  | .blockStatements, _, s₁ => s₁.rest = [] ∨ s₁.sees (.mark .rightBrace) = true
  | .programStatements, _, s₁ => s₁.rest = []
  | _, _, _ => True

/-- The terms of a reader with this budget. -/
def terms {γ : Type} (r : Reader γ) (budget : Nat) (s : State) : Terms where
  outside := r.outside s
  ready := s.Ends ∧ r.Ready s
  enough := Enough r.rank budget s
  faults := r.Faults s

/-- The walk yields what the way to this place has made. -/
def Yields {γ : Type} (r : Reader γ) (outside : Bool) (s : State) (a : γ) (s₁ : State) : Prop :=
  Gone outside s (r.errorsOf a) (r.blocksOf a) s₁ ∧ r.Leaves s s₁

/-- The promise that a reader gives at a place. -/
def Walks {γ : Type} (r : Reader γ) (budget : Nat) (s : State) : Prop :=
  Keeps (r.terms budget s) s (r.Yields (r.outside s) s) (r.run budget) s

/-- The rest of a walk that goes over whole statements, and over no function out of place. -/
def Part (r : Reader α) (budget : Nat) (s : State) (m : ParseM α) (s₁ : State) : Prop :=
  Keeps ⟨false, s.Ends ∧ r.Ready s, Enough r.rank budget s, fun fault => fault ≠ .nestedFunction⟩ s
    (r.Yields false s) m s₁

theorem not_enough_zero (r : Reader α) : ¬ Enough r.rank 0 s := by
  have hpos : 0 < r.rank := by
    cases r with
    | binary tables levels => exact Nat.add_pos_left (by decide) _
    | _ => exact Nat.le_of_ble_eq_true rfl
  intro h
  have hle := h.le
  omega

end Reader

/-! ## Laws -/

namespace Reader.Part

variable {r : Reader α} {r' : Reader β} {m : ParseM α} {k : β → ParseM α} {a : α}

theorem pure (g : Gone false s (r.errorsOf a) (r.blocksOf a) s₁) (h : r.Leaves s s₁) :
    r.Part budget s (pure a) s₁ := ⟨g, h⟩

theorem get_bind {f : State → ParseM α} (h : r.Part budget s (f s₁) s₁) :
    r.Part budget s (get >>= f) s₁ := h

theorem map_bind {f : γ → β} {n : ParseM γ}
    (h : r.Part budget s (n >>= fun c => k (f c)) s₁) : r.Part budget s (f <$> n >>= k) s₁ := by
  rwa [bind_map_left]

/-- The walk ends with that of another reader. -/
theorem of_bind_pure (h : r.Part budget s (m >>= Pure.pure) s₁) : r.Part budget s m s₁ := by
  rwa [bind_pure] at h

/-- A fault of the next token. -/
theorem failAt (g : Gone false s nodes blocks s₁) (hfault : fault ≠ .nestedFunction)
    (hleft : s.Ends → r.Ready s → s₁.rest ≠ [])
    (hcharged : ∀ t ts, s₁.rest = t :: ts → Charged s₁.rest t ts fault span) :
    r.Part budget s (failAt fault span) s₁ := by
  cases hrest : s₁.rest with
  | nil => exact .missing hrest fun ⟨hends, hready⟩ => absurd hrest (hleft hends hready)
  | cons t ts => exact .charged hrest g ((hcharged t ts hrest).mono g.reaches.suffix) hfault

/-- What is looked for is not the next token, or it is missing at the end. -/
theorem unexpected (g : Gone false s nodes blocks s₁) {what : Expectation}
    (h : what = .expression → s₁.view.kind ≠ .integer ∧ s₁.view.kind ≠ .string) :
    r.Part budget s (unexpected what) s₁ := by
  obtain ⟨_ | ⟨t, ts⟩, last, depth⟩ := s₁
  · exact .missing rfl fun _ => ⟨what, rfl, congrArg Token.span g.last⟩
  · exact .charged rfl g (.unexpected what h) nofun

theorem unexpected_bind (g : Gone false s nodes blocks s₁) {what : Expectation}
    (h : what ≠ .expression) : r.Part budget s (Parser.unexpected what >>= k) s₁ :=
  unexpected (r := r) g fun hwhat => absurd hwhat h

/-- Another reader is called. -/
theorem call (h : r'.Part budget' s₁ (r'.run budget') s₁) (g : Gone false s nodes blocks s₁)
    (hready : s.Ends → r.Ready s → r'.Ready s₁)
    (henough : Enough r.rank budget s → Enough r'.rank budget' s₁)
    (hk : ∀ b s₂, Gone false s (nodes ++ r'.errorsOf b) (blocks ++ r'.blocksOf b) s₂ →
      s₁.Reaches s₂ → r'.Leaves s₁ s₂ → r.Part budget s (k b) s₂) :
    r.Part budget s (r'.run budget' >>= k) s₁ :=
  Keeps.bind h g
    { outside := id
      ready := fun ⟨hends, h⟩ => ⟨hends.reaches g.reaches, hready hends h⟩
      enough := henough
      faults := fun _ hfault => hfault }
    fun b s₂ ⟨g₁, hleaves⟩ => hk b s₂ (g.trans g₁) g₁.reaches hleaves

/-- A reader of a lower rank is called, from where nothing may have been passed over. -/
theorem inside (h : r'.Part budget s₁ (r'.run budget) s₁) (g : Gone false s nodes blocks s₁)
    (hready : s.Ends → r.Ready s → r'.Ready s₁) (hrank : r'.rank < r.rank)
    (hk : ∀ b s₂, Gone false s (nodes ++ r'.errorsOf b) (blocks ++ r'.blocksOf b) s₂ →
      s₁.Reaches s₂ → r'.Leaves s₁ s₂ → r.Part (budget + 1) s (k b) s₂) :
    r.Part (budget + 1) s (r'.run budget >>= k) s₁ :=
  call h g hready (fun henough => henough.reaches g.reaches (by omega)) hk

/-- Behind a token, any reader can be called. -/
theorem behind (h : r'.Part budget' s₁ (r'.run budget') s₁) (p : Past s nodes blocks s₁)
    (hready : s.Ends → r'.Ready s₁) (hbudget : budget ≤ budget' + 1)
    (hk : ∀ b s₂, Past s (nodes ++ r'.errorsOf b) (blocks ++ r'.blocksOf b) s₂ →
      r.Part budget s (k b) s₂) :
    r.Part budget s (r'.run budget' >>= k) s₁ := by
  refine call h p.gone (fun hends _ => hready hends) (fun henough => ?_)
    fun b s₂ g hr _ => hk b s₂ ⟨g, p.passes.behind hr⟩
  have hrank := r'.rank_le
  exact henough.behind p.passes (by omega)

/-! ### Single tokens -/

theorem accept? {k : Option Span → ParseM α} (g : Gone false s nodes blocks s₁)
    (hplain : isPlainKind kind = true) (hself : isSelfContained kind = false)
    (hnone : r.Part budget s (k none) s₁)
    (hsome : ∀ span s₂, Behind s nodes blocks s₂ → r.Part budget s (k (some span)) s₂) :
    r.Part budget s (accept? kind >>= k) s₁ := by
  obtain ⟨ts, last, depth⟩ := s₁
  unfold Part Keeps wp
  cases hsees : State.sees ⟨ts, last, depth⟩ kind with
  | true =>
    obtain ⟨t, ts, rfl, rfl⟩ := sees_iff.1 hsees
    rw [bind_of_ok (accept?_cons rfl)]
    exact hsome t.span _ (g.behind hplain hself)
  | false =>
    rw [bind_of_ok (accept?_none (not_sees_iff.1 hsees))]
    exact hnone

/-- A token that has to be there may also be one that is not plain. -/
theorem expect_any {k : Span → ParseM α} (g : Gone false s nodes blocks s₁)
    (hk : ∀ t ts, s₁.rest = t :: ts → t.kind = kind →
      r.Part budget s (k t.span) { s₁ with rest := ts }) :
    r.Part budget s (expect kind >>= k) s₁ := by
  obtain ⟨ts, last, depth⟩ := s₁
  unfold Part Keeps wp
  cases hsees : State.sees ⟨ts, last, depth⟩ kind with
  | true =>
    obtain ⟨t, ts, rfl, hkind⟩ := sees_iff.1 hsees
    rw [bind_of_ok (expect_cons hkind)]
    exact hk t ts rfl hkind
  | false =>
    have hmissing : r.Part budget s (Parser.unexpected (.kind kind) >>= k) ⟨ts, last, depth⟩ :=
      unexpected_bind g nofun
    unfold Parser.expect
    rw [bind_assoc, bind_of_ok (accept?_none (not_sees_iff.1 hsees))]
    exact hmissing

theorem expect {k : Span → ParseM α} (g : Gone false s nodes blocks s₁)
    (hplain : isPlainKind kind = true) (hself : isSelfContained kind = false)
    (hk : ∀ span s₂, Behind s nodes blocks s₂ → r.Part budget s (k span) s₂) :
    r.Part budget s (expect kind >>= k) s₁ := by
  obtain ⟨ts, last, depth⟩ := s₁
  refine expect_any g ?_
  rintro t ts rfl rfl
  exact hk t.span _ (g.behind hplain hself)

theorem expectIdentifier {k : String × Span → ParseM α} (g : Gone false s nodes blocks s₁)
    (hk : ∀ named s₂, Behind s nodes blocks s₂ → r.Part budget s (k named) s₂) :
    r.Part budget s (expectIdentifier >>= k) s₁ := by
  obtain ⟨ts, last, depth⟩ := s₁
  cases hsees : State.sees ⟨ts, last, depth⟩ .identifier with
  | true =>
    obtain ⟨t, ts, rfl, hk'⟩ := sees_iff.1 hsees
    unfold Part Keeps wp
    rw [bind_of_ok (expectIdentifier_cons hk')]
    exact hk _ _ (g.behind (by rw [hk']; rfl) (by rw [hk']; rfl))
  | false =>
    unfold Parser.expectIdentifier
    rw [bind_assoc]
    refine get_bind ?_
    rw [hsees]
    exact unexpected_bind g nofun

/-- At the end too: the name of a type that is in view there is taken once more. -/
theorem expectType {k : Ty → ParseM α} (p : Past s nodes blocks s₁)
    (hk : ∀ ty s₂, Past s nodes blocks s₂ → r.Part budget s (k ty) s₂) :
    r.Part budget s (expectType >>= k) s₁ := by
  unfold Parser.expectType
  rw [bind_assoc]
  refine get_bind ?_
  cases hkind : s₁.view.kind with
  | typeName ty =>
    obtain ⟨_ | ⟨t, ts⟩, last, depth⟩ := s₁
    · exact hk ty _ p
    · have hkind : t.kind = .typeName ty := hkind
      exact hk ty _ ⟨p.gone.plain (isPlain_of_kind (by rw [hkind]; rfl)),
        p.passes.behind passes_cons.reaches⟩
  | _ => exact unexpected_bind p.gone nofun

theorem acceptOperator? {table : List (Mark × γ)} {k : Option (γ × Span) → ParseM α}
    (g : Gone false s nodes blocks s₁)
    (hplain : ∀ entry ∈ table, isPlainKind (.mark entry.1) = true)
    (hnone : r.Part budget s (k none) s₁)
    (hsome : ∀ operator s₂, Behind s nodes blocks s₂ → r.Part budget s (k (some operator)) s₂) :
    r.Part budget s (acceptOperator? table >>= k) s₁ := by
  induction table with
  | nil => exact hnone
  | cons entry table ih =>
    obtain ⟨hentry, htable⟩ := List.forall_mem_cons.1 hplain
    unfold Parser.acceptOperator?
    rw [bind_assoc]
    refine accept? g hentry rfl (ih htable) fun span s₂ b => ?_
    rw [pure_bind]
    exact hsome _ s₂ b

theorem semicolon {k : Unit → ParseM α} (g : Gone false s nodes blocks s₁)
    (hk : ∀ s₂, Past s nodes blocks s₂ → r.Part budget s (k ()) s₂) :
    r.Part budget s (semicolon >>= k) s₁ := by
  unfold Parser.semicolon
  rw [bind_assoc]
  exact expect g rfl rfl fun _ s₂ b => hk s₂ b.toPast

/-- Something is read, or nothing if a token of this class is next. -/
theorem ite_sees {n : ParseM β} {b : β} (p : Past s nodes blocks s₁)
    (hn : (∀ b s₂, Past s nodes blocks s₂ → r.Part budget s (k b) s₂) →
      r.Part budget s (n >>= k) s₁)
    (hk : ∀ b s₂, Past s nodes blocks s₂ → r.Part budget s (k b) s₂) :
    r.Part budget s (get >>= fun s => if s.sees kind = true then Pure.pure b >>= k else n >>= k)
      s₁ := by
  refine get_bind ?_
  split
  · exact hk b s₁ p
  · exact hn hk

end Reader.Part

end Slate.Parser
