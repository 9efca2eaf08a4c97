-- SUMMARY: The lexer gives integers digits and strings quotes, which the parser counts on.
import Slate.Proofs.Token.MaximalMunch

/-!
# Spelling of tokens

The class of a token does not by itself say what its text looks like. Two classes
are read further by the parser: the digits of an integer and what stands between
the quotes of a string. Tokens that were cut from a source text are well spelled
in this sense.
-/

namespace Slate

/-- The text of a token has the form that goes with its class: digits for an
integer, quotes at both ends for a string. -/
def Token.WellSpelled (t : Token) : Prop :=
  match t.kind with
  | .integer => t.text.toList ≠ [] ∧ ∀ c ∈ t.text.toList, c.isDigit = true
  | .string => ∃ inside, t.text.toList = '"' :: (inside ++ ['"'])
  | _ => True

theorem Token.WellSpelled.of_integer {t : Token} (h : t.WellSpelled) (hk : t.kind = .integer) :
    t.text.toList ≠ [] ∧ ∀ c ∈ t.text.toList, c.isDigit = true := by
  simpa [Token.WellSpelled, hk] using h

theorem Token.WellSpelled.of_string {t : Token} (h : t.WellSpelled) (hk : t.kind = .string) :
    ∃ inside, t.text.toList = '"' :: (inside ++ ['"']) := by
  simpa [Token.WellSpelled, hk] using h

/-- The patterns of integers and of strings say as much. -/
theorem Token.WellSpelled.of_mem_pattern {t : Token} (h : t.text.toList ∈ t.kind.pattern) :
    t.WellSpelled := by
  obtain ⟨kind, text, span⟩ := t
  cases kind with
  | integer =>
    obtain ⟨c, v, hc, hv, hw⟩ := Lexer.mem_run.1 h
    simp only [Token.WellSpelled, hw]
    exact ⟨List.cons_ne_nil c v, List.forall_mem_cons.2
      ⟨Lexer.isDigit_iff.2 hc, fun d hd => Lexer.isDigit_iff.2 (hv d hd)⟩⟩
  | string =>
    obtain ⟨inside, -, hw⟩ := Lexer.mem_string.1 h
    exact ⟨inside, hw⟩
  | keyword _ | typeName _ | identifier | mark _ => trivial

theorem Lexer.Reached.mem_pattern {text cs : List Char} {offset : Nat} {ts : List Token}
    (h : Reached text offset cs ts) : ∀ t ∈ ts, t.text.toList ∈ t.kind.pattern := by
  induction h with
  | start => nofun
  | skip _ _ _ ih => exact ih
  | token _ htakes ih =>
    intro t ht
    obtain ht | ht := List.mem_append.1 ht
    · exact ih t ht
    · rw [List.mem_singleton.1 ht, String.toList_ofList]
      exact htakes.fits

/-- Every token of a text is well spelled. -/
theorem wellSpelled_of_tokenize {source : String} {ts : List Token}
    (h : tokenize source = .ok ts) : ∀ t ∈ ts, t.WellSpelled := by
  obtain ⟨offset, hreached⟩ := tokenize_eq_ok_iff.1 h
  exact fun t ht => .of_mem_pattern (hreached.mem_pattern t ht)

end Slate
