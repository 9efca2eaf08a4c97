-- SUMMARY: The parser counts the blocks around every statement right, so that functions are read at the top level and nowhere else.
import Slate.Proofs.Syntax.Trace
import Slate.Proofs.Syntax.Walk.Statement
import Slate.Proofs.Check.WellFormed

/-!
# Functions at the top level

A reader that is stopped inside of a block leaves the count of blocks too high, and nobody
but the recovery of a statement around it sets it right. So the count is right wherever
reading goes on, and says nothing where it has failed: this is what `Levels` demands of a
reader. Every statement then begins with the right count. In a block none is read as a
function, and at the top level a function is not refused for its place; all that it can lack
is a token.
-/

namespace Slate

theorem Stmt.functionsAtTop_of_functionFree {stmt : Stmt} (h : stmt.functionFree = true) :
    stmt.functionsAtTop = true := by
  cases stmt with
  | function => cases h
  | _ => exact h

namespace Parser

open State

variable {α β : Type} {m : ParseM α} {k : α → ParseM β} {s s₁ : State} {budget : Nat}
variable {Q R : α → Prop}

/-! ## Statements without a function inside -/

/-- The statement may stand inside so many blocks. Inside of any, none is a function. -/
def Fits (blocks : Nat) (stmt : Stmt) : Prop :=
  stmt.functionsAtTop = true ∧ (0 < blocks → stmt.functionFree = true)

theorem fits_of_functionFree {stmt : Stmt} (h : stmt.functionFree = true) (blocks : Nat) :
    Fits blocks stmt :=
  ⟨Stmt.functionsAtTop_of_functionFree h, fun _ => h⟩

/-- What the program yields is as in `Q`, wherever it is run. -/
def Yields (Q : α → Prop) (m : ParseM α) : Prop := ∀ ⦃s a s₁⦄, m s = .ok a s₁ → Q a

namespace Yields

theorem pure {a : α} (h : Q a) : Yields Q (pure a) := by
  intro s a' s₁ hrun
  obtain ⟨rfl, -⟩ := pure_ok.1 hrun
  exact h

/-- What is yielded at the end counts. -/
theorem bind {Q : β → Prop} (hk : ∀ a, Yields Q (k a)) : Yields Q (m >>= k) := by
  intro s b s₁ hrun
  obtain ⟨a, s₂, -, hrun⟩ := bind_ok.1 hrun
  exact hk a hrun

end Yields

theorem functionFree_declaration (budget : Nat) :
    Yields (fun stmt => stmt.functionFree = true) (declaration budget) := by
  refine .bind fun _ => .bind fun name => .bind fun colon => ?_
  cases colon with
  | some _ =>
    refine .bind fun ty => .bind fun stop => ?_
    cases stop with
    | some _ => exact .pure rfl
    | none => exact .bind fun _ => .pure rfl
  | none => exact .bind fun _ => .pure rfl

theorem functionFree_needs : Yields (fun stmt => stmt.functionFree = true) needs :=
  .bind fun _ => .bind fun _ => .bind fun _ => .pure rfl

theorem functionFree_ret (budget : Nat) :
    Yields (fun stmt => stmt.functionFree = true) (ret budget) := by
  refine .bind fun _ => .bind fun s => ?_
  split <;> exact .bind fun _ => .bind fun _ => .pure rfl

theorem functionFree_assignmentOrExpression (budget : Nat) :
    Yields (fun stmt => stmt.functionFree = true) (assignmentOrExpression budget) := by
  refine .bind fun s => ?_
  split <;> exact .bind fun _ => .bind fun _ => .pure rfl

/-- The tokens that begin a statement with statements inside. -/
def beginsCompound : Kind → Bool
  | .keyword .fnKw | .keyword .ifKw | .keyword .whileKw | .mark .leftBrace => true
  | _ => false

theorem functionFree_strictStatement {stmt : Stmt} (hk : beginsCompound s.view.kind = false)
    (hrun : strictStatement (budget + 1) s = .ok stmt s₁) : stmt.functionFree = true := by
  have hother := @functionFree_assignmentOrExpression budget s stmt s₁
  have hpassed : ∀ {kind : Kind} {k : Span → Stmt}, (∀ span, (k span).functionFree = true) →
      Yields (fun stmt => stmt.functionFree = true) (do
        let span ← expect kind
        semicolon
        return k span) := fun h => .bind fun span => .bind fun _ => .pure (h span)
  unfold strictStatement at hrun
  rw [get_bind_ok] at hrun
  cases hkind : s.view.kind with
  | keyword k =>
    rw [hkind] at hrun hk
    cases k with
    | letKw => exact functionFree_declaration budget hrun
    | needsKw => exact functionFree_needs hrun
    | fnKw | ifKw | whileKw => cases hk
    | returnKw => exact functionFree_ret budget hrun
    | breakKw | continueKw => exact hpassed (fun _ => rfl) hrun
    | _ => exact hother hrun
  | mark mark =>
    rw [hkind] at hrun hk
    cases mark with
    | leftBrace => cases hk
    | _ => exact hother hrun
  | _ =>
    rw [hkind] at hrun
    exact hother hrun

/-! ## The count of blocks -/

/-- The statement begins in the stream of `origin`, with the right count of blocks. -/
structure Start.Sound (origin : State) (start : Start) : Prop where
  reaches : origin.Reaches start.state
  depth : start.state.depth = start.blocks

/-- All that began so far began so. -/
structure Traced.Sound (origin : State) (r : Traced) : Prop where
  reaches : origin.Reaches r.state
  starts : ∀ start ∈ r.starts, start.Sound origin

theorem Traced.Sound.move {origin : State} {r : Traced} (h : r.Sound origin)
    (hr : r.state.Reaches s) : Traced.Sound origin { r with state := s } :=
  ⟨h.reaches.trans hr, h.starts⟩

namespace Trace

variable {origin : State} {blocks : Nat} {m : TraceM α} {f : α → TraceM β} {r : Traced}

theorem wp_plain {m : ParseM α} {Q : α → Traced → Prop} {F : Failure → Traced → Prop} :
    wp (plain m) Q F r ↔ wp m (fun a s => Q a { r with state := s })
      (fun failure s => F failure { r with state := s }) r.state := by
  unfold wp plain
  cases m r.state <;> exact Iff.rfl

theorem wp_plain_get {f : State → TraceM α} {Q : α → Traced → Prop} {F : Failure → Traced → Prop} :
    wp (plain get >>= f) Q F r ↔ wp (f r.state) Q F r := Iff.rfl

/-- Inside of so many blocks and with the count right, the reader begins statements with the
right count only. Where it goes on the count is right as before, and it yields something as
in `Q`. -/
def Levels (origin : State) (blocks : Nat) (Q : α → Prop) (m : TraceM α) : Prop :=
  ∀ ⦃r : Traced⦄, r.Sound origin → r.state.depth = blocks →
    wp m (fun a r₁ => r₁.Sound origin ∧ r₁.state.depth = blocks ∧ Q a)
      (fun _ r₁ => r₁.Sound origin) r

namespace Levels

theorem pure {a : α} (h : Q a) : Levels origin blocks Q (pure a) :=
  fun _ hr hdepth => ⟨hr, hdepth, h⟩

theorem throw (failure : Failure) : Levels origin blocks Q (throw failure) := fun _ hr _ => hr

theorem bind {Q : β → Prop} (hm : Levels origin blocks R m)
    (hf : ∀ a, R a → Levels origin blocks Q (f a)) : Levels origin blocks Q (m >>= f) := by
  intro r hr hdepth
  rw [wp_bind]
  refine wp_mono (hm hr hdepth) ?_ fun _ _ h => h
  rintro a r₁ ⟨hr₁, hdepth₁, ha⟩
  exact hf a ha hr₁ hdepth₁

theorem mono {Q' : α → Prop} (hm : Levels origin blocks Q m) (h : ∀ a, Q a → Q' a) :
    Levels origin blocks Q' m := by
  intro r hr hdepth
  refine wp_mono (hm hr hdepth) ?_ fun _ _ h => h
  rintro a r₁ ⟨hr₁, hdepth₁, ha⟩
  exact ⟨hr₁, hdepth₁, h a ha⟩

/-- A reader of the parser that leaves the count as it is. -/
theorem plain_at {m : ParseM α} (hm : AgreesAt [] r.state.last r.state m m)
    (hQ : ∀ a s₁, m r.state = .ok a s₁ → Q a) (hr : r.Sound origin)
    (hdepth : r.state.depth = blocks) :
    wp (plain m) (fun a r₁ => r₁.Sound origin ∧ r₁.state.depth = blocks ∧ Q a)
      (fun _ r₁ => r₁.Sound origin) r := by
  rw [wp_plain]
  unfold wp
  cases hrun : m r.state with
  | ok a s₁ =>
    exact ⟨hr.move (hm.reaches hrun), (hm.depth_eq hrun).trans hdepth, hQ a s₁ hrun⟩
  | error failure s₁ => exact hr.move (hm.reaches_error hrun)

theorem plain {m : ParseM α} (hm : ∀ last, Agrees [] last m m) :
    Levels origin blocks (fun _ => True) (plain m) :=
  fun r hr hdepth => plain_at (hm r.state.last (.self r.state)) (fun _ _ _ => trivial) hr hdepth

theorem get_bind {f : State → TraceM α} (h : ∀ s, Levels origin blocks Q (f s)) :
    Levels origin blocks Q (Trace.plain get >>= f) := fun r hr hdepth => h r.state hr hdepth

theorem mark (hm : Levels origin blocks Q m) :
    Levels origin blocks Q (Trace.mark blocks >>= fun _ => m) := by
  intro r hr hdepth
  have hstart : Start.Sound origin ⟨blocks, r.state⟩ := ⟨hr.reaches, hdepth⟩
  refine hm (r := { r with starts := r.starts ++ [⟨blocks, r.state⟩] })
    ⟨hr.reaches, fun start hmem => ?_⟩ hdepth
  obtain hmem | hmem := List.mem_append.1 hmem
  · exact hr.starts start hmem
  · rw [List.mem_singleton.1 hmem]
    exact hstart

/-- The count is one higher for what is read inside of a block. -/
theorem nested {Q : β → Prop} (hm : Levels origin (blocks + 1) R m)
    (hf : ∀ a, R a → Levels origin blocks Q (f a)) :
    Levels origin blocks Q (do
      Trace.plain (modify fun s => { s with depth := s.depth + 1 })
      let a ← m
      Trace.plain (modify fun s => { s with depth := s.depth - 1 })
      f a) := by
  intro r hr hdepth
  have hopened : Traced.Sound origin { r with state := { r.state with depth := r.state.depth + 1 } } :=
    hr.move ⟨List.suffix_rfl, rfl⟩
  change wp (m >>= _) _ _ { r with state := { r.state with depth := r.state.depth + 1 } }
  rw [wp_bind]
  refine wp_mono (hm hopened (congrArg (· + 1) hdepth)) ?_ fun _ _ h => h
  rintro a r₁ ⟨hr₁, hdepth₁, ha⟩
  exact hf a ha (r := { r₁ with state := { r₁.state with depth := r₁.state.depth - 1 } })
    (hr₁.move ⟨List.suffix_rfl, rfl⟩) (Nat.sub_eq_of_eq_add hdepth₁)

/-- Recovery sets the count right, however deep inside of blocks reading was stopped. -/
theorem recovering {m : TraceM Stmt} {Q : Stmt → Prop} (hm : Levels origin blocks Q m)
    (hQ : ∀ text reason span, Q (.error text reason span)) :
    Levels origin blocks Q (recovering m) := by
  intro r hr hdepth
  have hrun := hm hr hdepth
  change wp (Trace.plain (Parser.recovering fun _ => forget (m r))) _ _
    { r with starts := starts (m r) }
  rw [wp_plain]
  apply wp_recovering
  unfold wp at hrun ⊢
  cases hm : m r with
  | ok stmt r₁ =>
    rw [hm] at hrun
    exact hrun
  | error failure r₁ =>
    rw [hm] at hrun
    have hr₁ : r₁.Sound origin := hrun
    exact ⟨fun _ => hr₁, fun fault span _ _ =>
      ⟨hr₁.move (reaches_recovered r.state r₁.state), hdepth, hQ _ _ _⟩⟩

end Levels

/-! ## One step of the descent -/

theorem agrees_heading (budget : Nat) (last : Token) :
    Agrees [] last (heading budget) (heading budget) := by
  refine .bind (agrees_expect _) fun _ => .bind agrees_expectIdentifier fun name =>
    .bind (agrees_expect _) fun _ => .ite_sees_bind (.pure []) (agrees_params le_rfl) fun list =>
      .bind (agrees_expect _) fun _ => .bind (agrees_accept? _) fun arrow => ?_
  cases arrow with
  | some _ => exact .bind agrees_expectType.map fun _ => .pure _
  | none => exact .bind (.pure none) fun _ => .pure _

theorem agrees_guard (budget : Nat) (last : Token) :
    Agrees [] last (guard budget) (guard budget) :=
  .bind (agrees_expect _) fun _ => .bind (expressionsAgree le_rfl).expression fun condition =>
    .bind (agrees_expect _) fun _ => .pure condition

/-- The readers of statements keep the count of blocks, and what they yield may stand where
it stands. Of a function this is true outside of blocks only. -/
structure StatementsLevel (origin : State) (budget : Nat) : Prop where
  statement : ∀ blocks, Levels origin blocks (Fits blocks) (statement blocks budget)
  strictStatement : ∀ blocks, Levels origin blocks (Fits blocks) (strictStatement blocks budget)
  function : Levels origin 0 (Fits 0) (function 0 budget)
  ifChain : ∀ blocks,
    Levels origin blocks (fun stmt => stmt.functionFree = true) (ifChain blocks budget)
  elseBranches : ∀ blocks, Levels origin blocks
    (fun chain => branchesFunctionFree chain.1 = true ∧
      ∀ body, chain.2 = some body → body.functionFree = true) (elseBranches blocks budget)
  guarded : ∀ blocks,
    Levels origin blocks (fun parts => parts.2.functionFree = true) (guarded blocks budget)
  block : ∀ blocks, Levels origin blocks (fun body => body.functionFree = true) (block blocks budget)
  blockStatements : ∀ blocks, Levels origin (blocks + 1) (fun list => allFunctionFree list = true)
    (blockStatements (blocks + 1) budget)

namespace StatementsLevel

theorem zero : StatementsLevel origin 0 where
  statement _ := .throw _
  strictStatement _ := .throw _
  function := .throw _
  ifChain _ := .throw _
  elseBranches _ := .throw _
  guarded _ := .throw _
  block _ := .throw _
  blockStatements _ := .throw _

variable (ih : StatementsLevel origin budget) (blocks : Nat)
include ih

theorem strictStatement_succ :
    Levels origin blocks (Fits blocks) (Trace.strictStatement blocks (budget + 1)) := by
  intro r hr hdepth
  have hother (hk : beginsCompound r.state.view.kind = false) :
      wp (plain (Parser.strictStatement (budget + 1)))
        (fun stmt r₁ => r₁.Sound origin ∧ r₁.state.depth = blocks ∧ Fits blocks stmt)
        (fun _ r₁ => r₁.Sound origin) r :=
    Levels.plain_at ((statementsAgree le_rfl).strictStatement (.self r.state))
      (fun _ _ hrun => fits_of_functionFree (functionFree_strictStatement hk hrun) blocks) hr hdepth
  rw [Trace.strictStatement, wp_plain_get]
  cases hk : r.state.view.kind with
  | keyword k =>
    cases k with
    | fnKw =>
      dsimp only
      split
      · exact Levels.plain_at (Agrees.failAt _ _ (.self r.state)) (by rintro _ _ ⟨⟩) hr hdepth
      · next htop =>
        obtain rfl : blocks = 0 := by omega
        exact ih.function hr hdepth
    | ifKw =>
      exact (ih.ifChain blocks).mono (fun _ hstmt => fits_of_functionFree hstmt blocks) hr hdepth
    | whileKw =>
      refine Levels.bind (.plain fun _ => agrees_expect _) (fun _ _ =>
        (ih.guarded blocks).bind fun _ hbody => .pure (fits_of_functionFree ?_ blocks)) hr hdepth
      exact hbody
    | _ => exact hother (by rw [hk]; rfl)
  | mark mark =>
    cases mark with
    | leftBrace =>
      refine (ih.block blocks).bind (fun _ hbody => .pure (fits_of_functionFree ?_ blocks))
        hr hdepth
      exact hbody
    | _ => exact hother (by rw [hk]; rfl)
  | _ => exact hother (by rw [hk]; rfl)

theorem function_succ : Levels origin 0 (Fits 0) (Trace.function 0 (budget + 1)) := by
  unfold Trace.function
  refine .bind (.plain (agrees_heading budget)) fun head _ => ?_
  exact (ih.block 0).bind fun body hbody => .pure ⟨hbody, fun hinside => absurd rfl hinside.ne⟩

theorem guarded_succ : Levels origin blocks (fun parts => parts.2.functionFree = true)
    (Trace.guarded blocks (budget + 1)) := by
  unfold Trace.guarded
  exact .bind (.plain (agrees_guard budget)) fun _ _ => (ih.block blocks).bind fun _ hbody =>
    .pure hbody

theorem elseBranches_succ : Levels origin blocks
    (fun chain => branchesFunctionFree chain.1 = true ∧
      ∀ body, chain.2 = some body → body.functionFree = true)
    (Trace.elseBranches blocks (budget + 1)) := by
  unfold Trace.elseBranches
  refine .bind (.plain fun _ => agrees_accept? _) fun found _ => ?_
  cases found with
  | none => exact .pure ⟨rfl, by rintro _ ⟨⟩⟩
  | some elseSpan =>
    refine .bind (.plain fun _ => agrees_accept? _) fun found _ => ?_
    cases found with
    | none =>
      refine (ih.block blocks).bind fun body hbody => .pure ⟨rfl, ?_⟩
      rintro _ ⟨⟩
      exact hbody
    | some ifSpan =>
      refine (ih.guarded blocks).bind fun parts hbody =>
        (ih.elseBranches blocks).bind fun chain hchain => .pure ⟨?_, hchain.2⟩
      rw [branchesFunctionFree, hbody, hchain.1, Bool.and_true]

theorem ifChain_succ : Levels origin blocks (fun stmt => stmt.functionFree = true)
    (Trace.ifChain blocks (budget + 1)) := by
  unfold Trace.ifChain
  refine .bind (.plain fun _ => agrees_expect _) fun span _ =>
    (ih.guarded blocks).bind fun parts hbody =>
      (ih.elseBranches blocks).bind fun chain hchain => .pure ?_
  obtain ⟨branches, otherwise⟩ := chain
  have hbranches : branchesFunctionFree (.mk parts.1 parts.2 span :: branches) = true := by
    rw [branchesFunctionFree, hbody, hchain.1, Bool.and_true]
  cases otherwise with
  | none => exact hbranches
  | some body => exact Bool.and_eq_true_iff.2 ⟨hbranches, hchain.2 body rfl⟩

theorem block_succ : Levels origin blocks (fun body => body.functionFree = true)
    (Trace.block blocks (budget + 1)) := by
  unfold Trace.block
  refine .bind (.plain fun _ => agrees_expect _) fun start _ =>
    .nested (ih.blockStatements blocks) fun list hlist =>
      .bind (.plain fun _ => agrees_expect _) fun stop _ => .pure hlist

theorem blockStatements_succ :
    Levels origin (blocks + 1) (fun list => allFunctionFree list = true)
      (Trace.blockStatements (blocks + 1) (budget + 1)) := by
  unfold Trace.blockStatements
  refine .get_bind fun s => ?_
  split
  · exact .pure rfl
  · refine (ih.statement (blocks + 1)).bind fun stmt hstmt =>
      (ih.blockStatements blocks).bind fun list hlist => .pure ?_
    rw [allFunctionFree, hstmt.2 (Nat.succ_pos blocks), hlist, Bool.and_true]

theorem statement_succ :
    Levels origin blocks (Fits blocks) (Trace.statement blocks (budget + 1)) := by
  unfold Trace.statement
  exact ((ih.strictStatement blocks).recovering fun _ _ _ => fits_of_functionFree rfl blocks).mark

theorem succ : StatementsLevel origin (budget + 1) where
  statement := ih.statement_succ
  strictStatement := ih.strictStatement_succ
  function := ih.function_succ
  ifChain := ih.ifChain_succ
  elseBranches := ih.elseBranches_succ
  guarded := ih.guarded_succ
  block := ih.block_succ
  blockStatements := ih.blockStatements_succ

end StatementsLevel

theorem statementsLevel (origin : State) (budget : Nat) : StatementsLevel origin budget := by
  induction budget with
  | zero => exact .zero
  | succ budget ih => exact ih.succ

theorem levels_programStatements (budget : Nat) :
    Levels origin 0 (fun list => list.all Stmt.functionsAtTop = true)
      (programStatements budget) := by
  induction budget with
  | zero =>
    unfold programStatements
    exact .throw _
  | succ budget ih =>
    unfold programStatements
    refine .get_bind fun s => ?_
    split
    · exact .pure rfl
    · refine ((statementsLevel origin budget).statement 0).bind fun stmt hstmt =>
        ih.bind fun list hlist => .pure ?_
      rw [List.all_cons, hstmt.1, hlist, Bool.and_true]

end Trace

/-! ## Functions at the top level -/

/-- The result of reading a statement speaks of the fault: it is the reason of a failure, or
an error node has its wording. -/
def Reports (fault : Fault) : EStateM.Result Failure State Stmt → Prop
  | .ok (.error _ reason _) _ => reason = fault.reason
  | .ok _ _ => False
  | .error (.fault found _) _ => found = fault
  | .error .exhausted _ => False

theorem reason_expected (what : Expectation) (found : Option String) :
    ∃ rest, (Fault.expected what found).reason = "Expected " ++ rest := by
  cases found with
  | none =>
    have hreason : (Fault.expected what none).reason =
        "Expected " ++ what.text ++ ", found end of input" := rfl
    exact ⟨_, hreason.trans String.append_assoc⟩
  | some found =>
    have hreason : (Fault.expected what (some found)).reason =
        "Expected " ++ what.text ++ ", found '" ++ found ++ "'" := rfl
    simp only [String.append_assoc] at hreason
    exact ⟨_, hreason⟩

/-- No other fault has the wording of a function out of place. -/
theorem reason_ne_nestedFunction {fault : Fault} (h : fault ≠ .nestedFunction) :
    fault.reason ≠ Fault.nestedFunction.reason := by
  intro hsame
  have hnested : Fault.nestedFunction.reason.toList.head? = some 'F' := by decide +kernel
  rw [← hsame] at hnested
  cases fault with
  | nestedFunction => exact h rfl
  | expected what found =>
    obtain ⟨rest, hrest⟩ := reason_expected what found
    have hE : ("Expected ".toList ++ rest.toList).head? = some 'E' := rfl
    rw [hrest, String.toList_append, hE] at hnested
    exact absurd hnested (by decide)
  | unknownEscape c =>
    have hreason : (Fault.unknownEscape c).reason =
        "Unknown escape sequence '\\" ++ (String.singleton c ++ "'") := String.append_assoc
    have hU : ("Unknown escape sequence '\\".toList ++ (String.singleton c ++ "'").toList).head? =
        some 'U' := rfl
    rw [hreason, String.toList_append, hU] at hnested
    exact absurd hnested (by decide)
  | integerOutOfRange | unterminatedEscape => exact absurd hnested (by decide +kernel)

/-- A function that begins outside of blocks is read as one, or it is stopped for another reason
than its place. -/
theorem strictStatement_function (hends : s.Ends) (hdepth : s.depth = 0)
    (hk : s.view.kind = .keyword .fnKw) (budget : Nat) :
    wp (strictStatement budget) (fun stmt _ => ∀ text reason span, stmt ≠ .error text reason span)
      (fun failure _ => ∀ fault span, failure = .fault fault span → fault ≠ .nestedFunction) s := by
  cases budget with
  | zero =>
    unfold strictStatement
    rintro _ _ ⟨⟩
  | succ budget =>
    have hread : strictStatement (budget + 1) s = function budget s := by
      unfold strictStatement
      rw [get_bind_apply, hk, hdepth]
      rfl
    have hfunction : Yields (fun stmt => ∀ text reason span, stmt ≠ .error text reason span)
        (function budget) := by
      cases budget with
      | zero =>
        unfold function
        rintro _ _ _ ⟨⟩
      | succ budget =>
        rw [function_eq]
        exact .bind fun head => .bind fun body => .pure (by rintro _ _ _ ⟨⟩)
    unfold wp
    rw [hread]
    cases hrun : function budget s with
    | ok stmt s₁ => exact hfunction hrun
    | error failure s₁ =>
      rintro fault span rfl
      cases Reader.halts .function hrun with
      | missing _ lacks =>
        obtain ⟨what, rfl, -⟩ := lacks ⟨hends, trivial⟩
        simp
      | charged _ _ _ met => exact met

theorem wp_result {P : EStateM.Result Failure State α → Prop} :
    wp m (fun a s₁ => P (.ok a s₁)) (fun failure s₁ => P (.error failure s₁)) s ↔ P (m s) := by
  unfold wp
  cases m s <;> exact Iff.rfl

/-- So it is not refused for its place. -/
theorem not_reports_nestedFunction (hends : s.Ends) (hdepth : s.depth = 0)
    (hk : s.view.kind = .keyword .fnKw) (budget : Nat) :
    ¬ Reports .nestedFunction (statement budget s) := by
  cases budget with
  | zero =>
    unfold statement
    exact id
  | succ budget =>
    unfold statement
    rw [← wp_result (P := fun result => ¬ Reports .nestedFunction result)]
    refine wp_recovering (wp_mono (strictStatement_function hends hdepth hk budget) ?_ ?_)
    · intro stmt s₁ hstmt hreports
      cases stmt with
      | error text reason span => exact hstmt text reason span rfl
      | _ => exact hreports
    · intro failure s₁ hfailure
      refine ⟨fun _ => ?_, fun fault span hfault _ =>
        reason_ne_nestedFunction (hfailure fault span hfault)⟩
      cases failure with
      | fault fault span => exact hfailure fault span rfl
      | exhausted => exact id

end Parser

/-- In a program that is read, no function is inside of a block. Whatever the stream of
tokens, a statement begins with the count at the number of blocks that are being read around
it, also behind statements that could not be read; and where no block is around it, a function
that begins there is not refused for its place. -/
theorem functions_read_at_top (tokens : List Token) :
    (∀ program, parse tokens = .ok program → program.functionsAtTop = true) ∧
      (Parser.tracedParse tokens).1 = parse tokens ∧
      ∀ start ∈ Parser.statementStarts tokens, start.state.depth = start.blocks ∧
        (start.blocks = 0 → start.state.view.kind = .keyword .fnKw →
          ∀ budget, ¬ Parser.Reports .nestedFunction (Parser.statement budget start.state)) := by
  have hparse := Parser.tracedParse_parse tokens
  suffices hboth : (∀ program, (Parser.tracedParse tokens).1 = .ok program →
      program.functionsAtTop = true) ∧
      ∀ start ∈ Parser.statementStarts tokens, start.state.Ends ∧
        start.state.depth = start.blocks by
    refine ⟨fun program hprogram => hboth.1 program (hparse.trans hprogram), hparse, ?_⟩
    intro start hmem
    obtain ⟨hends, hdepth⟩ := hboth.2 start hmem
    exact ⟨hdepth, fun htop hk budget =>
      Parser.not_reports_nestedFunction hends (hdepth.trans htop) hk budget⟩
  unfold Parser.statementStarts Parser.tracedParse
  cases hlast : tokens.getLast? with
  | none =>
    refine ⟨?_, nofun⟩
    rintro _ ⟨⟩
    rfl
  | some last =>
    let origin : Parser.State := { rest := tokens, last, depth := 0 }
    have hends : origin.Ends := Parser.State.ends_of_suffix hlast List.suffix_rfl
    have hlevels := Parser.Trace.levels_programStatements (Parser.budgetFor tokens.length)
      (r := ⟨origin, []⟩) ⟨.refl origin, nofun⟩ rfl
    have hsound {r : Parser.Traced} (hr : r.Sound origin) :
        ∀ start ∈ r.starts, start.state.Ends ∧ start.state.depth = start.blocks :=
      fun start hmem =>
        ⟨hends.reaches (hr.starts start hmem).reaches, (hr.starts start hmem).depth⟩
    unfold wp at hlevels
    dsimp only
    split at hlevels
    · next statements r hrun =>
      rw [hrun]
      refine ⟨?_, hsound hlevels.1⟩
      rintro _ ⟨⟩
      exact hlevels.2.2
    · next failure r hrun =>
      rw [hrun]
      exact ⟨nofun, hsound hlevels⟩

/-- A function inside of two blocks, and one behind them. -/
def functionsInAndBehind : List Token :=
  [⟨.mark .leftBrace, "\x7b", default⟩, ⟨.mark .leftBrace, "\x7b", default⟩,
    ⟨.keyword .fnKw, "fn", default⟩, ⟨.identifier, "f", default⟩,
    ⟨.mark .rightBrace, "\x7d", default⟩, ⟨.mark .rightBrace, "\x7d", default⟩,
    ⟨.keyword .fnKw, "fn", default⟩, ⟨.identifier, "g", default⟩,
    ⟨.mark .leftParen, "(", default⟩, ⟨.mark .rightParen, ")", default⟩,
    ⟨.mark .leftBrace, "\x7b", default⟩, ⟨.mark .rightBrace, "\x7d", default⟩]

/-- The first one is refused, and the count is right behind it. -/
theorem functions_read_at_top_inAndBehind :
    (∃ program, parse functionsInAndBehind = .ok program ∧ program.functionsAtTop = true) ∧
      (Parser.tracedParse functionsInAndBehind).1 = parse functionsInAndBehind ∧
      ∃ start ∈ Parser.statementStarts functionsInAndBehind, start.blocks = 0 ∧
        start.state.depth = 0 ∧ start.state.view.kind = .keyword .fnKw ∧
        ¬ Parser.Reports .nestedFunction (Parser.statement 40 start.state) := by
  obtain ⟨hprogram, hforgets, hstarts⟩ := functions_read_at_top functionsInAndBehind
  obtain ⟨program, hparse⟩ : ∃ program, parse functionsInAndBehind = .ok program := ⟨_, rfl⟩
  have hrecord : (Parser.statementStarts functionsInAndBehind).map
      (fun start => (start.blocks, start.state.view.kind)) =
        [(0, .mark .leftBrace), (1, .mark .leftBrace), (2, .keyword .fnKw),
          (0, .keyword .fnKw)] := by decide +kernel
  obtain ⟨start, hmem, hstart⟩ : ∃ start ∈ Parser.statementStarts functionsInAndBehind,
      (start.blocks, start.state.view.kind) = (0, .keyword .fnKw) := by
    rw [← List.mem_map, hrecord]
    decide
  obtain ⟨htop, hk⟩ := Prod.mk.inj hstart
  obtain ⟨hdepth, hreported⟩ := hstarts start hmem
  exact ⟨⟨program, hparse, hprogram program hparse⟩, hforgets, start, hmem, htop,
    hdepth.trans htop, hk, hreported htop hk 40⟩

end Slate
