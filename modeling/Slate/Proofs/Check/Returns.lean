-- SUMMARY: The account of a function's returns reports the first return that is bad by its detected type, and no later one.
import Slate.Proofs.Check.Success

/-!
# The first bad return

Whether a return is accepted is decided by checking its value against the declared type; what
a report says of it is the type that is inferred. A return is called bad here by its inferred
type alone. Since the two typings agree, these are the returns that are not accepted, and of
them the account reports the first, as it was found against the table of that moment. So a
report never says that a function which yields a value was given what it declares.
-/

namespace Slate

/-! ## One return -/

/-- A return as it is inspected: what it carries, where it stands, and the table by then. -/
structure ReturnSite where
  table : Table
  value : Option Expr
  span : Span

namespace ReturnSite

/-- A function of type `void` may not return a value. Any other has to, and the value needs the
declared type. -/
def Bad (declared : Ty) (site : ReturnSite) : Prop :=
  (declared = .void ∧ site.value ≠ none) ∨
    (declared ≠ .void ∧ (site.value = none ∨
      ∃ e, site.value = some e ∧ e.type? site.table ≠ some declared))

/-- What is reported of a return: its span, and the type of its value against its table, or
`void` if it has none. -/
def mismatch (declared : Ty) (site : ReturnSite) : ReturnMismatch where
  span := site.span
  expected := declared
  found := match site.value with
    | none => some .void
    | some e => e.type? site.table

variable {declared : Ty} {site : ReturnSite}

theorem agrees_iff_not_bad :
    Returns.agrees site.table declared site.value = true ↔ ¬ site.Bad declared := by
  obtain ⟨t, value, span⟩ := site
  cases value with
  | none => simp [Returns.agrees, Bad]
  | some e =>
    have hfits := Expr.fits_iff_type? t e declared
    by_cases hvoid : declared = .void
    · simp [Returns.agrees, Bad, hvoid]
    · simp [Returns.agrees, Bad, hvoid, hfits]

/-- What is found at a bad return of a function that yields a value is not what it declares. -/
theorem Bad.found_ne (h : site.Bad declared) (hvalue : declared ≠ .void) :
    (site.mismatch declared).found ≠ some declared := by
  obtain ⟨hvoid, -⟩ | ⟨-, hnone | ⟨e, he, hty⟩⟩ := h
  · exact absurd hvoid hvalue
  · simpa [mismatch, hnone] using Ne.symm hvalue
  · simpa [mismatch, he] using hty

end ReturnSite

/-! ## All returns of a function -/

namespace Returns

variable {r : Returns} {sites : List ReturnSite} {m : ReturnMismatch}

/-- Takes account of returns, one behind the other. -/
def inspectAll (r : Returns) (sites : List ReturnSite) : Returns :=
  sites.foldl (fun r site => r.inspect site.table site.value site.span) r

theorem inspectAll_inspected (r : Returns) (sites : List ReturnSite) :
    (r.inspectAll sites).inspected = r.inspected + sites.length := by
  induction sites generalizing r with
  | nil => rfl
  | cons site sites ih =>
    have hstep := ih (r.inspect site.table site.value site.span)
    rw [inspectAll, List.foldl_cons, ← inspectAll, hstep, List.length_cons]
    show r.inspected + 1 + sites.length = r.inspected + (sites.length + 1)
    omega

/-- What has been found once is not found anew. -/
theorem inspectAll_of_mismatch (h : r.mismatch = some m) :
    (r.inspectAll sites).mismatch = some m := by
  induction sites generalizing r with
  | nil => exact h
  | cons site sites ih =>
    have hstep : (r.inspect site.table site.value site.span).mismatch = some m := by
      simp only [inspect, h]
    exact ih hstep

/-- As long as nothing has been found, the first return that does not agree is found. -/
theorem inspectAll_mismatch (h : r.mismatch = none) :
    (r.inspectAll sites).mismatch =
      (sites.find? fun site => !agrees site.table r.declared site.value).map
        (·.mismatch r.declared) := by
  induction sites generalizing r with
  | nil => exact h
  | cons site sites ih =>
    rw [List.find?_cons]
    cases hagrees : agrees site.table r.declared site.value with
    | true =>
      have hstep : (r.inspect site.table site.value site.span).mismatch = none := by
        simp only [inspect, h, hagrees, if_true]
      exact ih hstep
    | false =>
      have hstep : (r.inspect site.table site.value site.span).mismatch =
          some (site.mismatch r.declared) := by
        simp only [inspect, h, hagrees, Bool.false_eq_true, if_false]
        cases site with
        | mk t value span => cases value <;> rfl
      exact inspectAll_of_mismatch (r := r.inspect site.table site.value site.span) hstep

/-- What is found is the first bad return. -/
theorem inspectAll_start_eq_some {declared : Ty} :
    ((start declared).inspectAll sites).mismatch = some m ↔
      ∃ before site after, sites = before ++ site :: after ∧
        (∀ earlier ∈ before, ¬ earlier.Bad declared) ∧ site.Bad declared ∧
        site.mismatch declared = m := by
  have hbad : ∀ site : ReturnSite,
      (!agrees site.table declared site.value) = true ↔ site.Bad declared := fun site => by
    rw [Bool.not_eq_true', ← Bool.not_eq_true, ReturnSite.agrees_iff_not_bad,
      Classical.not_not]
  have hgood : ∀ site : ReturnSite,
      (!!agrees site.table declared site.value) = true ↔ ¬ site.Bad declared := fun site => by
    rw [Bool.not_not, ReturnSite.agrees_iff_not_bad]
  rw [inspectAll_mismatch rfl, Option.map_eq_some_iff]
  simp only [List.find?_eq_some_iff_append, start, hbad, hgood]
  constructor
  · rintro ⟨site, ⟨hsite, before, after, hsites, hbefore⟩, hm⟩
    exact ⟨before, site, after, hsites, hbefore, hsite, hm⟩
  · rintro ⟨before, site, after, hsites, hbefore, hsite, hm⟩
    exact ⟨site, ⟨hsite, before, after, hsites, hbefore⟩, hm⟩

theorem inspectAll_start_eq_none {declared : Ty} :
    ((start declared).inspectAll sites).mismatch = none ↔
      ∀ site ∈ sites, ¬ site.Bad declared := by
  rw [inspectAll_mismatch rfl, Option.map_eq_none_iff, List.find?_eq_none]
  refine forall₂_congr fun site _ => ?_
  rw [Bool.not_eq_true', Bool.not_eq_false, start, ReturnSite.agrees_iff_not_bad]

theorem finish_eq_error {d : Diagnostic} :
    r.finish = .error d ↔ ∃ m, r.mismatch = some m ∧ m.diagnostic = d := by
  unfold finish
  cases r.mismatch with
  | none => simp
  | some m => simp

/-- The account of a function counts every return, and refuses the function if and only if one
of them is bad. What it reports is the first bad one, whatever comes behind it: its span, the
declared type, and the type that its value has against the table of that moment, or `void` if
it has no value. If the function yields a value, that is never the declared type. -/
theorem finish_reports_first_bad (declared : Ty) (sites : List ReturnSite) :
    ((start declared).inspectAll sites).inspected = sites.length ∧
    (((start declared).inspectAll sites).finish = .ok () ↔
      ∀ site ∈ sites, ¬ site.Bad declared) ∧
    (∀ d, ((start declared).inspectAll sites).finish = .error d ↔
      ∃ before site after, sites = before ++ site :: after ∧
        (∀ earlier ∈ before, ¬ earlier.Bad declared) ∧ site.Bad declared ∧
        (site.mismatch declared).diagnostic = d) ∧
    (declared ≠ .void → ∀ m, ((start declared).inspectAll sites).mismatch = some m →
      m.found ≠ some declared) := by
  refine ⟨?_, ?_, fun d => ?_, fun hvalue m hm => ?_⟩
  · rw [inspectAll_inspected, start, Nat.zero_add]
  · rw [Check.Returns.finish_ok, inspectAll_start_eq_none]
  · rw [finish_eq_error]
    constructor
    · rintro ⟨m, hm, rfl⟩
      obtain ⟨before, site, after, hsites, hbefore, hbad, rfl⟩ := inspectAll_start_eq_some.1 hm
      exact ⟨before, site, after, hsites, hbefore, hbad, rfl⟩
    · rintro ⟨before, site, after, hsites, hbefore, hbad, rfl⟩
      exact ⟨_, inspectAll_start_eq_some.2 ⟨before, site, after, hsites, hbefore, hbad, rfl⟩, rfl⟩
  · obtain ⟨before, site, after, -, -, hbad, rfl⟩ := inspectAll_start_eq_some.1 hm
    exact hbad.found_ne hvalue

/-- In a function of type `bool`: a return that fits, one of a string, and one without a value. -/
def mixedReturns : List ReturnSite :=
  [⟨.empty, some (.literal (.bool true) default), default⟩,
    ⟨.empty, some (.literal (.string "no") default), default⟩, ⟨.empty, none, default⟩]

/-- The string is reported. -/
theorem finish_reports_first_bad_mixedReturns :
    ((start .bool).inspectAll mixedReturns).finish =
      .error (.spanned (.wrongReturn .bool (some .string)) default) ∧
    some Ty.string ≠ some Ty.bool := by
  obtain ⟨-, -, herror, hfound⟩ := finish_reports_first_bad .bool mixedReturns
  have hgood : ¬ ReturnSite.Bad .bool ⟨.empty, some (.literal (.bool true) default), default⟩ := by
    simp [ReturnSite.Bad, Expr.type?, Value.ty]
  have hbad : ReturnSite.Bad .bool ⟨.empty, some (.literal (.string "no") default), default⟩ := by
    simp [ReturnSite.Bad, Expr.type?, Value.ty]
  exact ⟨(herror _).2 ⟨_, _, _, rfl, List.forall_mem_singleton.2 hgood, hbad, rfl⟩,
    hfound (by decide) _ rfl⟩

end Returns

end Slate
