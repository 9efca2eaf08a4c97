-- SUMMARY: Checking only adds to the table, whether it succeeds or fails, and where the current scope is then.
import Slate.Proofs.Check.Moves
import Slate.Proofs.Scope.Growth

/-!
# Checking only adds

A walk over a program takes nothing back. Wherever it stops, the scopes it started from
are all there with their symbols, and only the one that was current has gained any. A
walk that succeeds is back in that scope; one that fails is in it or in a scope that it
has opened inside.
-/

namespace Slate

/-- The state in which a block begins that is met in the state `s`. -/
def CheckState.entered (s : CheckState) (start : Location) : CheckState :=
  { s with
    table := s.table.enter (some start)
    events := s.events.push (.enterScope s.table.scopes.length s.table.current) }

/-- The state behind a block that was met in the state `s` and ends in `s'`. -/
def CheckState.left (s s' : CheckState) : CheckState :=
  { s' with
    table := { s'.table with current := s.table.current }
    events := s'.events.push (.exitScope s'.table.current s.table.current) }

namespace Check

variable {α β : Type}

/-- A part of the walk that stays in its scope if it succeeds, and within it if it fails. -/
def Growing (m : CheckM α) : Prop :=
  ∀ s, wp m (fun _ s' => s.table.Stays s'.table) (fun _ s' => s.table.Within s'.table) s

variable {m : CheckM α} {f : α → CheckM β}

/-! ## Steps -/

theorem Growing.bind (hm : Growing m) (hf : ∀ a, Growing (f a)) : Growing (m >>= f) := by
  intro s
  rw [wp_bind]
  apply wp_mono (hm s)
  · intro a s₁ h₁
    apply wp_mono (hf a s₁)
    · intro _ s₂ h₂
      exact h₁.trans h₂
    · intro d s₂ h₂
      exact h₁.trans_within h₂
  · intro d s₁ h₁
    exact h₁

theorem growing_pure (a : α) : Growing (pure a) := fun s => .refl s.table

theorem growing_throw (d : Diagnostic) : Growing (throw d : CheckM α) :=
  fun s => (Table.Stays.refl s.table).within

theorem growing_emit (event : Event) : Growing (emit event) := fun s => .refl s.table

theorem growing_require (r : Except Diagnostic α) : Growing (require r) := by
  cases r with
  | ok a => exact growing_pure a
  | error d => exact growing_throw d

theorem growing_define (symbol : Symbol) : Growing (define symbol) := by
  intro s
  rw [wp_define]
  exact ⟨fun _ => Table.stays_define, fun _ _ => (Table.Stays.refl s.table).within⟩

theorem growing_defineAll : ∀ symbols, Growing (defineAll symbols)
  | [] => growing_pure _
  | symbol :: symbols => (growing_define symbol).bind fun _ => growing_defineAll symbols

/-- A look leaves the table as it is. -/
theorem Looks.growing {P : Span → Prop} {Q : Table → α → Prop} (hm : Looks P Q m) :
    Growing m := by
  intro s
  apply wp_mono (hm s)
  · rintro a s' ⟨⟨events, rfl⟩, -⟩
    exact .refl s.table
  · rintro d s' ⟨⟨events, rfl⟩, -⟩
    exact (Table.Stays.refl s.table).within

theorem MakesMove.growing {P : Span → Prop} {m : CheckM Unit} (hm : MakesMove P m) :
    Growing m := by
  intro s
  apply wp_mono (hm s)
  · intro _ s' hmoves
    rw [hmoves.table_eq]
    exact .refl s.table
  · rintro d s' ⟨⟨events, rfl⟩, -⟩
    exact (Table.Stays.refl s.table).within

theorem growing_simple {stmt : Stmt} (h : stmt.isSimple = true) : Growing stmt.check := by
  cases hintroduction : stmt.introduction? with
  | some m =>
    rw [Stmt.check_introduction hintroduction]
    exact (looks_introduction (P := fun _ => True) hintroduction fun _ _ => trivial).growing.bind
      growing_define
  | none =>
    exact (Stmt.makesMove (P := fun _ => True) h hintroduction fun _ _ => trivial).growing

theorem growing_functionHead (name : String) (params : List Param) (returns : Option Ty)
    (span : Span) : Growing (functionHead name params returns span) := by
  rw [functionHead_eq]
  have hlook : Looks (fun _ => True) (HeadFound (fun _ => True) name params span returns)
      (functionSymbols name params returns span) :=
    looks_functionSymbols trivial fun _ _ => trivial
  refine hlook.growing.bind fun head => ?_
  dsimp only
  split
  · exact (growing_define _).bind fun _ => growing_pure _
  · exact growing_pure _

theorem growing_functionTail (name : String) (returns : Option Ty) (body : Block) (span : Span)
    (symbol : Symbol) (context : Option FunctionContext) :
    Growing (functionTail name returns body span symbol context) := by
  have hverdict : Growing (functionVerdict name returns body span context) := by
    unfold functionVerdict
    split
    · exact growing_throw _
    · refine (growing_emit _).bind fun _ => (growing_require _).bind fun _ => ?_
      dsimp only
      split
      · exact growing_throw _
      · exact growing_pure _
  rw [functionTail_eq]
  refine hverdict.bind fun _ => ?_
  split
  · exact growing_define _
  · exact growing_pure _

/-! ## Constructions -/

/-- What is entered is left again: leaving the scope of a block never fails. -/
theorem wp_inScope {start : Location} {s : CheckState} {Q : β → CheckState → Prop}
    {F : Diagnostic → CheckState → Prop} (hm : Growing m)
    (h : wp m (fun a s' => (s.table.enter (some start)).Stays s'.table →
        wp (f a) Q F (s.left s'))
      (fun d s' => (s.table.enter (some start)).Within s'.table → F d s') (s.entered start)) :
    wp (do enterBlock start; let a ← m; exitBlock; f a) Q F s := by
  rw [wp_bind, wp_enterBlock, wp_bind]
  apply wp_mono (wp_and (hm _) h)
  · rintro a s' ⟨hstays, hbehind⟩
    have hexit : s'.table.exit = .ok (s.left s').table := Table.Stays.exit hstays
    rw [wp_bind, wp_exitBlock]
    constructor
    · intro outer houter
      cases hexit.symm.trans houter
      exact hbehind hstays
    · intro d hd
      cases hexit.symm.trans hd
  · rintro d s' ⟨hwithin, hfail⟩
    exact hfail hwithin

/-- A part of the walk in a scope of its own, and what comes behind that. -/
theorem growing_inScope {start : Location} (hm : Growing m) (hf : ∀ a, Growing (f a)) :
    Growing (do enterBlock start; let a ← m; exitBlock; f a) := by
  intro s
  apply wp_inScope hm
  apply wp_mono (hm _)
  · intro a s₁ _ hstays
    apply wp_mono (hf a _)
    · intro _ s₂ h₂
      exact hstays.leave.trans h₂
    · intro d s₂ h₂
      exact hstays.leave.trans_within h₂
  · intro d s₁ _ hwithin
    exact hwithin.of_enter

theorem growing_insideBlock {start : Location} {m : CheckM Unit} (hm : Growing m) :
    Growing (insideBlock start m) := by
  have hscope : Growing (do enterBlock start; m; exitBlock; pure ()) :=
    growing_inScope hm growing_pure
  rw [insideBlock]
  simpa only [bind_pure_unit] using hscope

theorem growing_loopBody {span : Span} {m : CheckM Unit} (hm : Growing m) :
    Growing (loopBody span m) := by
  intro s
  rw [loopBody, wp_bind, wp_insideLoop]
  apply wp_mono (hm _)
  · intro _ s' h
    cases s'.loops.head? <;> exact h
  · intro d s' h
    exact h

theorem growing_insideFunction {context : FunctionContext} {m : CheckM Unit} (hm : Growing m) :
    Growing (insideFunction context m) := by
  intro s
  rw [wp_insideFunction]
  exact hm { s with function := some context }

theorem growing_functionBody {name : String} {params : List Param} {returns : Option Ty}
    {body : Block} {span : Span} {m : CheckM Unit} (hm : Growing m) :
    Growing (functionBody name params returns body span m) := by
  refine (growing_functionHead name params returns span).bind fun ⟨symbols, symbol⟩ => ?_
  -- the parameters are bound in the scope of the body
  have hinner : Growing (do
      defineAll symbols
      insideFunction (functionStart name returns) m) :=
    (growing_defineAll symbols).bind fun _ => growing_insideFunction hm
  have hscope := @growing_inScope _ _ _ _ body.span.start hinner
    (growing_functionTail name returns body span symbol)
  simpa only [bind_assoc] using hscope

/-- Walks only add to the table. -/
theorem growing_walk :
    Walk (fun s s' => s.table.Stays s'.table) (fun s _ s' => s.table.Within s'.table) where
  refl s := .refl s.table
  trans h h' := h.trans h'
  fails h h' := h.trans_within h'
  simple h := growing_simple h
  condition _ _ _ := (looks_condition (P := fun _ => True) (fun _ _ => trivial) trivial).growing
  block hm := growing_insideBlock hm
  loop hm := growing_loopBody hm
  function hm := growing_functionBody hm

end Check

theorem checkAll_growing (statements : List Stmt) : Check.Growing (checkAll statements) :=
  checkAll_walk Check.growing_walk statements

/-! ## Programs -/

theorem Program.check_growing (p : Program) : Check.Growing p.check :=
  Check.Growing.bind (checkAll_growing p.statements) fun _ =>
    Check.Growing.bind (fun s => .refl s.table) fun _ => Check.growing_emit _

/-- Checking a program on top of any table only adds to it, whether the program is
accepted or not: every scope keeps its number, the scope around it, its place and its
symbols, and only the one that was current may have gained more of them. Behind an
accepted program that scope is current again. Behind any other it is, or one that was
opened inside it on the way. -/
theorem Program.checkFrom_only_adds (p : Program) (t : Table) :
    t.Grows (p.checkFrom t).table ∧
      ((p.checkFrom t).error = none → (p.checkFrom t).table.current = t.current) ∧
      ((p.checkFrom t).error ≠ none →
        Table.OpenedInside (p.checkFrom t).table.scopes t.current t.scopes.length
          (p.checkFrom t).table.current) := by
  have hgrowing := p.check_growing (.start t)
  unfold Program.checkFrom
  split
  · next s' hcheck =>
    have hstays := wp_of_ok hgrowing hcheck
    exact ⟨hstays.toGrows, fun _ => hstays.current, fun h => absurd rfl h⟩
  · next d s' hcheck =>
    have hwithin := wp_of_error hgrowing hcheck
    exact ⟨hwithin.toGrows, nofun, fun _ => hwithin.opened⟩

/-- A block that declares a name twice. -/
def doubledInBlock : Program :=
  ⟨[.block (.mk [.declare "n" .int default, .declare "n" .int default] default)]⟩

/-- The walk stops inside the block, and so does the table. -/
theorem Program.checkFrom_only_adds_doubled :
    (doubledInBlock.checkFrom .empty).table.current = 1 ∧
      Table.OpenedInside (doubledInBlock.checkFrom .empty).table.scopes 0 1 1 := by
  have hcurrent : (doubledInBlock.checkFrom .empty).table.current = 1 := by decide +kernel
  have herror : (doubledInBlock.checkFrom .empty).error ≠ none := by decide +kernel
  have hopened := (Program.checkFrom_only_adds doubledInBlock .empty).2.2 herror
  rw [hcurrent] at hopened
  exact ⟨hcurrent, hopened⟩

end Slate
