-- SUMMARY: The parser accepts exactly the grammar, and yields the tree of the derivation.
import Slate.Proofs.Syntax.Completeness.Statement
import Slate.Proofs.Syntax.Soundness.Statement

/-!
# What the parser accepts

Both directions put together, for whole streams of tokens. A program comes out
without error nodes exactly if the tokens derive it, so that recovery never hides
an error. As the reader is a function, the grammar gives no stream two trees.
-/

namespace Slate

open Grammar

variable {ts : List Token} {p : Program}

/-- What derives from the grammar is read as the tree of its derivation. -/
theorem parse_of_derives (h : Derives ts p) : parse ts = .ok p := by
  obtain ⟨statements⟩ := p
  cases hlast : ts.getLast? with
  | none =>
    obtain rfl : ts = [] := List.getLast?_eq_none_iff.1 hlast
    cases h with
    | none => rfl
    | more h => exact absurd rfl h.opens.ne_nil
  | some last =>
    have hread : Parser.programStatements (Parser.budgetFor ts.length) ⟨ts, last, 0⟩ =
        .ok statements ⟨[], last, 0⟩ :=
      Parser.programStatements_of_statements last h (by unfold Parser.budgetFor; omega)
    simp only [parse, hlast, hread]

/-- What is read derives from the grammar with recovery. -/
theorem recovered_of_parse (hs : ∀ t ∈ ts, t.WellSpelled) (h : parse ts = .ok p) :
    Recovered.Statements true ts p.statements [] := by
  unfold parse at h
  split at h
  · next hlast =>
    obtain rfl : ts = [] := List.getLast?_eq_none_iff.1 hlast
    cases h
    exact .none
  · next last hlast =>
    have hsane : Parser.Sane ts last := ⟨hs, fun t ht => Option.some.inj (ht.symm.trans hlast)⟩
    simp only at h
    split at h
    · next list s' hread =>
      cases h
      exact Parser.recovered_of_programStatements hsane hread
    · cases h

/-- What is read without error nodes derives from the grammar. -/
theorem derives_of_parse (hs : ∀ t ∈ ts, t.WellSpelled) (h : parse ts = .ok p)
    (hfree : p.errorFree = true) : Derives ts p := (recovered_of_parse hs h).grammar hfree

/-- A well spelled stream of tokens is read as a program without error nodes exactly
if the program derives from it by the grammar. -/
theorem parse_iff_derives (hs : ∀ t ∈ ts, t.WellSpelled) (p : Program) :
    parse ts = .ok p ∧ p.errorFree = true ↔ Derives ts p :=
  ⟨fun ⟨h, hfree⟩ => derives_of_parse hs h hfree,
    fun h => ⟨parse_of_derives h, Statements.errorFree h⟩⟩

/-- The tokens of `x = -1 - 2 - "a";`, without their places. -/
def differences : List Token :=
  [(.identifier, "x"), (.mark .equal, "="), (.mark .minus, "-"), (.integer, "1"),
    (.mark .minus, "-"), (.integer, "2"), (.mark .minus, "-"), (.string, "\"a\""),
    (.mark .semicolon, ";")].map fun (kind, text) => ⟨kind, text, default⟩

theorem differences_wellSpelled : ∀ t ∈ differences, t.WellSpelled := by
  have hdigit {text : String} {c : Char} (htext : text.toList = [c]) (hc : c.isDigit = true) :
      text.toList ≠ [] ∧ ∀ c ∈ text.toList, c.isDigit = true := by
    rw [htext]
    exact ⟨List.cons_ne_nil c [], List.forall_mem_singleton.2 hc⟩
  have hone := hdigit (show "1".toList = ['1'] from rfl) rfl
  have htwo := hdigit (show "2".toList = ['2'] from rfl) rfl
  have hstring : ∃ inside, "\"a\"".toList = '"' :: (inside ++ ['"']) := ⟨['a'], rfl⟩
  simp only [differences, List.map_cons, List.map_nil, List.forall_mem_cons, Token.WellSpelled]
  exact ⟨trivial, trivial, trivial, hone, trivial, htwo, trivial, hstring, trivial,
    fun _ h => absurd h List.not_mem_nil⟩

/-- The first minus belongs to its literal, the others join to the left. -/
theorem parse_iff_derives_differences :
    (∀ t ∈ differences, t.WellSpelled) ∧
      Derives differences ⟨[.assign "x" (.binary
        (.binary (.literal (.int (-1)) default) .subtract (.literal (.int 2) default) default)
        .subtract (.literal (.string "a") default) default) default]⟩ :=
  ⟨differences_wellSpelled, (parse_iff_derives differences_wellSpelled _).1 ⟨rfl, rfl⟩⟩

/-- No stream of tokens spells two programs. -/
theorem Grammar.Derives.unique {q : Program} (hp : Derives ts p) (hq : Derives ts q) : p = q :=
  Except.ok.inj ((parse_of_derives hp).symm.trans (parse_of_derives hq))

end Slate
