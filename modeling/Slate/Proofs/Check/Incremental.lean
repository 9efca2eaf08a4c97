-- SUMMARY: Checking a program in two parts, the second on top of the table of the first, is checking it whole.
import Slate.Proofs.Check.Bisimulation
import Slate.Proofs.Check.Context

/-!
# Checking in parts

The walk over more statements goes on where the walk over the first ones ended. There no
loop and no function is around, as at the start of any walk, so that nothing but the table
and the reports has been handed on. A table cannot be told apart from itself, and reports
are never read; so the rest of the program is checked as it would be on its own, on top of
that table.
-/

namespace Slate

/-! ## The second walk -/

/-- No table can be told apart from itself. -/
theorem Table.bisimulation_eq : Table.Bisimulation (fun _ => True) Eq where
  agree h := by rintro name -; rw [h]
  count h := by rw [h]
  current h := by rw [h]
  enter h block := by rw [h]
  exit := by
    rintro t _ rfl
    cases t.exit with
    | ok outer => exact .ok rfl
    | error d => exact .error d
  define := by
    rintro t _ rfl symbol -
    cases t.define symbol with
    | ok table => exact .ok rfl
    | error d => exact .error d

theorem checkAll_append (statements more : List Stmt) :
    checkAll (statements ++ more) = (do checkAll statements; checkAll more) := by
  induction statements with
  | nil => rfl
  | cons stmt statements ih =>
    rw [List.cons_append, checkAll, checkAll, ih, bind_assoc]

/-- Where a walk over a program ends, it is as at the start of a walk but for the table and
the reports. -/
theorem related_start {statements : List Stmt} {t : Table} {s : CheckState}
    (h : checkAll statements (.start t) = .ok () s) :
    (CheckState.start s.table).Related Eq s.events s := by
  have hcontext := wp_of_ok (checkAll_walk Check.restores_walk statements (.start t)) h
  have hfunction : s.function = none := by
    have hsame := hcontext.function
    generalize s.function = f at hsame
    cases hsame
    rfl
  exact {
    table := rfl
    function := hfunction
    loops := List.map_eq_nil_iff.1 hcontext.loops
    events := (Array.append_empty ..).symm }

namespace Program

/-- What the walk over its statements comes to decides what a program comes to. -/
theorem checkFrom_of_ok {p : Program} {t : Table} {s : CheckState}
    (h : checkAll p.statements (.start t) = .ok () s) :
    p.checkFrom t = {
      table := s.table
      events := s.events.push (.programChecked s.table.scopes.length s.table.globals)
      error := none } := by
  rw [checkFrom, check_ok.2 ⟨s, h, rfl⟩]

theorem checkFrom_of_error {p : Program} {t : Table} {s : CheckState} {d : Diagnostic}
    (h : checkAll p.statements (.start t) = .error d s) :
    p.checkFrom t = { table := s.table, events := s.events, error := some d } := by
  have hcheck : p.check (.start t) = .error d s := bind_of_error h
  rw [checkFrom, hcheck]

/-- Behind a program that is accepted, the rest is checked as on its own. -/
theorem checkFrom_append_of_ok {first more : List Stmt} {t : Table} {s : CheckState}
    (h : checkAll first (.start t) = .ok () s) :
    let rest := checkFrom ⟨more⟩ s.table
    checkFrom ⟨first ++ more⟩ t = { rest with events := s.events ++ rest.events } := by
  have hwhole : checkAll (first ++ more) (.start t) = checkAll more s := by
    rw [checkAll_append, bind_of_ok h]
  have hrun := checkAll_alike Table.bisimulation_eq more (fun _ _ => trivial) (related_start h)
  rw [← hwhole] at hrun
  generalize hrest : checkAll more (.start s.table) = r,
    hboth : checkAll (first ++ more) (.start t) = r' at hrun
  cases hrun with
  | ok _ related =>
    rw [checkFrom_of_ok hrest, checkFrom_of_ok hboth, ← related.table, related.events,
      Array.push_append]
  | error d related =>
    rw [checkFrom_of_error hrest, checkFrom_of_error hboth, ← related.table, related.events]

/-- Behind an error, nothing is checked. -/
theorem checkFrom_append_of_error {first more : List Stmt} {t : Table} {s : CheckState}
    {d : Diagnostic} (h : checkAll first (.start t) = .error d s) :
    checkFrom ⟨first ++ more⟩ t = checkFrom ⟨first⟩ t := by
  have hwhole : checkAll (first ++ more) (.start t) = .error d s := by
    rw [checkAll_append, bind_of_error h]
  rw [checkFrom_of_error (p := ⟨first⟩) h, checkFrom_of_error (p := ⟨first ++ more⟩) hwhole]

/-- Every statement, also one that fails, leaves the loops and the function around it as
they were. So a program is checked in parts: what stands behind an accepted program is
checked as on its own, on top of the table of that program and behind its reports; what
stands behind a rejected one is not checked. -/
theorem checkFrom_append :
    (∀ (stmt : Stmt) (s : CheckState),
      wp stmt.check (fun _ s' => s.SameContext s') (fun _ s' => s.SameContext s') s) ∧
    ∀ (first more : List Stmt) (t : Table),
      let before := checkFrom ⟨first⟩ t
      let whole := checkFrom ⟨first ++ more⟩ t
      (before.error = none →
        let rest := checkFrom ⟨more⟩ before.table
        whole = { rest with events := before.events.pop ++ rest.events }) ∧
      (before.error ≠ none → whole = before) := by
  refine ⟨fun stmt => stmt.check_walk Check.restores_walk, fun first more t => ?_⟩
  dsimp only
  cases hfirst : checkAll first (.start t) with
  | ok _ s =>
    have hbefore := checkFrom_of_ok (p := ⟨first⟩) hfirst
    refine ⟨fun _ => ?_, fun herror => absurd (by rw [hbefore]) herror⟩
    rw [checkFrom_append_of_ok hfirst, hbefore, Array.pop_push]
  | error d s =>
    have hbefore := checkFrom_of_error (p := ⟨first⟩) hfirst
    refine ⟨fun hnone => ?_, fun _ => checkFrom_append_of_error hfirst⟩
    rw [hbefore] at hnone
    cases hnone

/-- A loop around one statement. -/
def loopAround (stmt : Stmt) : Stmt :=
  .whileLoop (.literal (.bool true) default) (.mk [stmt] default) default

/-- A `continue` behind a loop is outside of it, and behind a loop with an error it is not
looked at. -/
theorem checkFrom_append_loopAround :
    let left := loopAround (.breakLoop default)
    let broken := loopAround (.declare "v" .void default)
    let before := checkFrom ⟨[left]⟩ .empty
    let rest := checkFrom ⟨[.continueLoop default]⟩ before.table
    before.error = none ∧
      checkFrom ⟨[left, .continueLoop default]⟩ .empty =
        { rest with events := before.events.pop ++ rest.events } ∧
      (checkFrom ⟨[broken]⟩ .empty).error ≠ none ∧
      checkFrom ⟨[broken, .continueLoop default]⟩ .empty = checkFrom ⟨[broken]⟩ .empty := by
  intro left broken before rest
  have hleft : before.error = none := rfl
  have hbroken : (checkFrom ⟨[broken]⟩ .empty).error ≠ none := by decide +kernel
  exact ⟨hleft, (checkFrom_append.2 [left] [.continueLoop default] .empty).1 hleft, hbroken,
    (checkFrom_append.2 [broken] [.continueLoop default] .empty).2 hbroken⟩

end Program

end Slate
