-- SUMMARY: Tokenizing a text is reading it by its rules one behind the other, always with the longest match.
import Slate.Proofs.Token.Munch

/-!
# Maximal munch

A text is read from its front by the rules for blanks, comments and tokens, one
behind the other; each takes the longest match. This is all there is to `tokenize`:
it yields the tokens read when nothing is left, and fails where the reading gets
stuck. There is one way to read a text, so that this is the first such place.
-/

namespace Slate

namespace Lexer

/-! ## Reading -/

/-- `Reached text offset cs ts`: reading `text` by its rules leads to the byte `offset`, with
`cs` left to read and the tokens `ts` behind. -/
inductive Reached (text : List Char) : Nat → List Char → List Token → Prop where
  | start : Reached text 0 text []
  | skip {rule : Rule} {w rest : List Char} {offset : Nat} {ts : List Token} :
      Reached text offset (w ++ rest) ts → rule.kind? = none → rule.Takes w (w ++ rest) →
      Reached text (offset + byteLength w) rest ts
  | token {kind : Kind} {w rest : List Char} {offset : Nat} {ts : List Token} :
      Reached text offset (w ++ rest) ts → (Rule.token kind).Takes w (w ++ rest) →
      Reached text (offset + byteLength w) rest
        (ts ++ [⟨kind, String.ofList w, (Lines.ofText text).span offset (offset + byteLength w)⟩])

/-! ## Gaps -/

/-- The tokens of a text at a place where the first of them must begin. -/
def tokensAt (lines : Lines) (offset : Nat) : List Char → Except Diagnostic (List Token)
  | [] => .ok []
  | d :: ds =>
    match munch d ds with
    | .stuck n =>
      let slice := (d :: ds).take n
      .error ⟨.invalidToken (String.ofList slice),
        some (lines.span offset (offset + byteLength slice))⟩
    | .token kind n =>
      let lexeme := (d :: ds).take n
      let stop := offset + byteLength lexeme
      (tokensFrom lines stop (ds.drop (n - 1))).map
        (⟨kind, String.ofList lexeme, lines.span offset stop⟩ :: ·)

theorem byteLength_append (cs ds : List Char) :
    byteLength (cs ++ ds) = byteLength cs + byteLength ds := by
  induction cs with
  | nil => rw [List.nil_append, byteLength, Nat.zero_add]
  | cons c cs ih => rw [List.cons_append, byteLength, ih, byteLength, Nat.add_assoc]

section

variable {lines : Lines} {offset : Nat} {w rest cs : List Char}

theorem tokensFrom_eq : tokensFrom lines offset cs =
    tokensAt lines (offset + byteLength (cs.take (gapLength false cs)))
      (cs.drop (gapLength false cs)) := by
  rw [tokensFrom]
  split
  · next h => rw [h, tokensAt]
  · next d ds h =>
    rw [h, tokensAt]
    cases munch d ds with
    | stuck n => rfl
    | token kind n =>
      dsimp only
      split <;> next h => rw [h, Except.map]

theorem tokensFrom_eq_tokensAt (h : gapLength false cs = 0) :
    tokensFrom lines offset cs = tokensAt lines offset cs := by
  rw [tokensFrom_eq, h, List.drop_zero, List.take_zero, byteLength, Nat.add_zero]

/-- Where the gap in front of a text goes on behind `w`, the tokens of the text are those
behind `w`. -/
theorem tokensFrom_append (h : gapLength false (w ++ rest) = w.length + gapLength false rest) :
    tokensFrom lines offset (w ++ rest) = tokensFrom lines (offset + byteLength w) rest := by
  rw [tokensFrom_eq, h, List.drop_length_add_append, List.take_length_add_append,
    byteLength_append, ← Nat.add_assoc, ← tokensFrom_eq]

theorem gapLength_blanks (hw : ∀ c ∈ w, isBlank c = true) :
    gapLength false (w ++ rest) = w.length + gapLength false rest := by
  induction w with
  | nil => simp
  | cons c w ih =>
    obtain ⟨hc, hw⟩ := List.forall_mem_cons.1 hw
    rw [List.cons_append, gapLength, if_neg Bool.false_ne_true, if_pos hc, ih hw]
    simp only [List.length_cons]
    omega

theorem gapLength_slashes : gapLength false ('/' :: '/' :: cs) = gapLength true cs + 2 := by
  simp [gapLength, isBlank]

/-- A comment goes up to the end of its line. -/
theorem gapLength_comment (hw : ∀ c ∈ w, c ≠ '\n') (hrest : ∀ c ∈ rest.head?, c = '\n') :
    gapLength true (w ++ rest) = w.length + gapLength false rest := by
  induction w with
  | nil =>
    cases rest with
    | nil => rfl
    | cons c rest =>
      obtain rfl := hrest c rfl
      simp [gapLength, isBlank]
  | cons c w ih =>
    obtain ⟨hc, hw⟩ := List.forall_mem_cons.1 hw
    rw [List.cons_append, gapLength, if_pos rfl, bne_iff_ne.2 hc, ih hw]
    simp only [List.length_cons]
    omega

/-- What is behind a comment begins with a line feed, or else the comment would go on. -/
theorem Rule.Takes.comment_ends (h : Rule.comment.Takes w (w ++ rest)) :
    ∀ c ∈ rest.head?, c = '\n' := by
  intro c hc
  by_contra hne
  obtain ⟨more, rfl⟩ := List.head?_eq_some_iff.1 hc
  obtain ⟨v, hv, rfl⟩ := mem_comment.1 h.fits
  have hlonger : '/' :: '/' :: (v ++ [c]) ∈ Rule.comment.pattern :=
    mem_comment.2 ⟨v ++ [c], by simpa [or_imp, forall_and] using ⟨hv, hne⟩, rfl⟩
  have hlength := h.longest .comment _ hlonger ⟨more, by simp⟩
  simp only [List.length_cons, List.length_append, List.length_nil] at hlength
  omega

/-- Blanks and comments that a rule takes lie in the gap. -/
theorem gapLength_of_takes {rule : Rule} (hrule : rule.kind? = none)
    (h : rule.Takes w (w ++ rest)) :
    gapLength false (w ++ rest) = w.length + gapLength false rest := by
  cases rule with
  | token kind => cases hrule
  | blanks =>
    obtain ⟨c, v, hc, hv, rfl⟩ := mem_run.1 h.fits
    apply gapLength_blanks
    exact List.forall_mem_cons.2 ⟨isBlank_iff.2 hc, fun d hd => isBlank_iff.2 (hv d hd)⟩
  | comment =>
    obtain ⟨v, hv, rfl⟩ := mem_comment.1 h.fits
    rw [List.cons_append, List.cons_append, gapLength_slashes, gapLength_comment hv h.comment_ends]
    simp only [List.length_cons]
    omega

/-- A gap begins with what the rule for blanks or that for comments takes. -/
theorem exists_takes_of_gap {c : Char} (h : gapLength false (c :: cs) ≠ 0) :
    ∃ rule w, Rule.kind? rule = none ∧ rule.Takes w (c :: cs) := by
  by_cases hblank : isBlank c = true
  · exact ⟨.blanks, _, rfl, takes_blanks hblank⟩
  · have hcomment : c = '/' ∧ cs.head? = some '/' := by
      by_contra hcomment
      exact h (gapLength_eq_zero.2 ⟨Bool.eq_false_of_not_eq_true hblank, hcomment⟩)
    obtain ⟨rfl, hslash⟩ := hcomment
    obtain ⟨more, rfl⟩ := List.head?_eq_some_iff.1 hslash
    exact ⟨.comment, _, rfl, takes_comment⟩

/-- In front of a token there is no gap. -/
theorem gapLength_of_takes_token {kind : Kind} {c : Char}
    (h : (Rule.token kind).Takes w (c :: cs)) : gapLength false (c :: cs) = 0 := by
  by_contra hgap
  obtain ⟨rule, v, hrule, htakes⟩ := exists_takes_of_gap hgap
  rw [(htakes.unique h).1] at hrule
  cases hrule

theorem Rule.Takes.ne_nil {rule : Rule} (h : rule.Takes w cs) : w ≠ [] := by
  obtain ⟨c, v, rfl, -⟩ := rule.opens h.fits
  exact List.cons_ne_nil c v

theorem Stuck.not_takes {rule : Rule} (hstuck : Stuck cs) : ¬ rule.Takes w cs :=
  fun h => h.ne_nil (hstuck rule w h.fits h.front)

/-- Where no rule matches, there is no gap either. -/
theorem Stuck.gapLength {c : Char} (h : Stuck (c :: cs)) :
    Lexer.gapLength false (c :: cs) = 0 := by
  by_contra hgap
  obtain ⟨rule, v, -, htakes⟩ := exists_takes_of_gap hgap
  exact h.not_takes htakes

/-! ## Steps -/

/-- At the front of a text that is not empty either a rule takes something, or no rule
matches and something is to blame. -/
theorem takes_or_stuck (c : Char) (cs : List Char) :
    (∃ rule w, Rule.Takes rule w (c :: cs)) ∨ (Stuck (c :: cs) ∧ ∃ w, Blames w (c :: cs)) := by
  by_cases hgap : gapLength false (c :: cs) = 0
  · cases hmunch : munch c cs with
    | token kind n =>
      obtain ⟨w, -, htakes⟩ := takes_of_munch hgap hmunch
      exact .inl ⟨_, w, htakes⟩
    | stuck n =>
      obtain ⟨hstuck, w, -, hblames⟩ := stuck_of_munch hgap hmunch
      exact .inr ⟨hstuck, w, hblames⟩
  · obtain ⟨rule, w, -, htakes⟩ := exists_takes_of_gap hgap
    exact .inl ⟨rule, w, htakes⟩

/-- The lexer leaves out what the rules for blanks and comments take. -/
theorem tokensFrom_skip {rule : Rule} (hrule : rule.kind? = none)
    (h : rule.Takes w (w ++ rest)) :
    tokensFrom lines offset (w ++ rest) = tokensFrom lines (offset + byteLength w) rest :=
  tokensFrom_append (gapLength_of_takes hrule h)

/-- The lexer yields a token for what another rule takes. -/
theorem tokensFrom_token {kind : Kind} (h : (Rule.token kind).Takes w (w ++ rest)) :
    tokensFrom lines offset (w ++ rest) =
      (tokensFrom lines (offset + byteLength w) rest).map
        (⟨kind, String.ofList w, lines.span offset (offset + byteLength w)⟩ :: ·) := by
  obtain ⟨c, v, rfl, -⟩ := Rule.opens h.fits
  have hgap : gapLength false (c :: (v ++ rest)) = 0 := gapLength_of_takes_token h
  rw [List.cons_append, tokensFrom_eq_tokensAt hgap, tokensAt]
  cases hmunch : munch c (v ++ rest) with
  | token kind' n =>
    obtain ⟨w, rfl, htakes⟩ := takes_of_munch hgap hmunch
    obtain ⟨hrule, rfl⟩ := htakes.unique h
    cases hrule
    have htake : (c :: (v ++ rest)).take (c :: v).length = c :: v := by
      rw [← List.cons_append, List.take_left]
    have hdrop : (v ++ rest).drop ((c :: v).length - 1) = rest := by
      rw [List.length_cons, Nat.add_sub_cancel, List.drop_left]
    simp only [htake, hdrop]
  | stuck n => exact absurd h (stuck_of_munch hgap hmunch).1.not_takes

theorem Blames.unique {v : List Char} (h : Blames v cs) (h' : Blames w cs) : v = w := by
  cases h with
  | character hc =>
    cases h' with
    | character _ => rfl
    | string _ _ => exact absurd rfl hc
  | @string v rest hv hrest =>
    have hcs := stringBody_unclosed hv hrest
    generalize hwhole : v ++ rest = cs at hcs h'
    cases h' with
    | character hc => exact absurd rfl hc
    | @string w rest' hw hrest' =>
      -- both are as long as the lexer reads on
      rw [stringBody_unclosed hw hrest'] at hcs
      rw [List.append_inj_left hwhole (Except.error.inj hcs).symm]

/-- The lexer fails where no rule matches. -/
theorem tokensFrom_stuck (hstuck : Stuck cs) (hblames : Blames w cs) :
    tokensFrom lines offset cs = .error ⟨.invalidToken (String.ofList w),
      some (lines.span offset (offset + byteLength w))⟩ := by
  match cs with
  | c :: cs =>
    have hgap := hstuck.gapLength
    rw [tokensFrom_eq_tokensAt hgap, tokensAt]
    cases hmunch : munch c cs with
    | token kind n =>
      obtain ⟨v, -, htakes⟩ := takes_of_munch hgap hmunch
      exact absurd htakes hstuck.not_takes
    | stuck n =>
      obtain ⟨-, v, rfl, hv⟩ := stuck_of_munch hgap hmunch
      obtain rfl := hv.unique hblames
      simp only [← List.prefix_iff_eq_take.1 hv.front]

end

/-! ## Whole texts -/

/-- From everywhere that reading leads to, the lexer goes on to the tokens that remain. -/
theorem Reached.tokensFrom {text cs : List Char} {offset : Nat} {ts : List Token}
    (h : Reached text offset cs ts) :
    Lexer.tokensFrom (Lines.ofText text) 0 text =
      (Lexer.tokensFrom (Lines.ofText text) offset cs).map (ts ++ ·) := by
  induction h with
  | start => cases Lexer.tokensFrom (Lines.ofText text) 0 text <;> rfl
  | skip _ hrule htakes ih => rw [ih, tokensFrom_skip hrule htakes]
  | @token kind w rest offset ts _ htakes ih =>
    rw [ih, tokensFrom_token htakes]
    cases Lexer.tokensFrom (Lines.ofText text) (offset + byteLength w) rest with
    | ok more => simp [Except.map]
    | error d => rfl

/-- Reading leads to the end of the text, or to where no rule matches. -/
theorem Reached.exists_end {text cs : List Char} {offset : Nat} {ts : List Token}
    (h : Reached text offset cs ts) : ∃ offset' cs' ts', Reached text offset' cs' ts' ∧
      (cs' = [] ∨ (Stuck cs' ∧ ∃ w, Blames w cs')) := by
  match cs with
  | [] => exact ⟨offset, [], ts, h, .inl rfl⟩
  | c :: cs =>
    obtain ⟨rule, w, htakes⟩ | hstuck := takes_or_stuck c cs
    · have hlength := List.length_pos_iff.2 htakes.ne_nil
      obtain ⟨rest, hrest⟩ := htakes.front
      have hshorter : rest.length < (c :: cs).length := by
        rw [← hrest, List.length_append]
        omega
      rw [← hrest] at h htakes
      cases hrule : rule.kind? with
      | none => exact (h.skip hrule htakes).exists_end
      | some kind =>
        cases rule with
        | token kind => exact (h.token htakes).exists_end
        | blanks | comment => cases hrule
    · exact ⟨offset, c :: cs, ts, h, .inr hstuck⟩
termination_by cs.length
decreasing_by all_goals exact hshorter

end Lexer

open Lexer

section

variable {source : String} {offset : Nat} {cs w : List Char} {ts : List Token} {d : Diagnostic}

/-- A text that can be read up to its end is cut into the tokens read. -/
theorem tokenize_of_reached (h : Reached source.toList offset [] ts) :
    tokenize source = .ok ts := by
  rw [tokenize, h.tokensFrom, tokensFrom_eq_tokensAt rfl, tokensAt, Except.map, List.append_nil]

/-- A text on which reading gets stuck is refused for what is to blame there. -/
theorem tokenize_of_stuck (h : Reached source.toList offset cs ts) (hstuck : Stuck cs)
    (hblames : Blames w cs) :
    tokenize source = .error ⟨.invalidToken (String.ofList w),
      some ((Lines.ofText source.toList).span offset (offset + byteLength w))⟩ := by
  rw [tokenize, h.tokensFrom, tokensFrom_stuck hstuck hblames, Except.map]

/-- The tokens of a text are those read up to its end. -/
theorem tokenize_eq_ok_iff :
    tokenize source = .ok ts ↔ ∃ offset, Reached source.toList offset [] ts := by
  constructor
  · intro h
    obtain ⟨offset, cs, ts', hreached, rfl | ⟨hstuck, w, hblames⟩⟩ :=
      (Reached.start : Reached source.toList 0 source.toList []).exists_end
    · cases (tokenize_of_reached hreached).symm.trans h
      exact ⟨offset, hreached⟩
    · cases (tokenize_of_stuck hreached hstuck hblames).symm.trans h
  · rintro ⟨offset, hreached⟩
    exact tokenize_of_reached hreached

/-- A text is refused for the place at which reading it gets stuck. -/
theorem tokenize_eq_error_iff :
    tokenize source = .error d ↔ ∃ offset cs ts w,
      Reached source.toList offset cs ts ∧ Stuck cs ∧ Blames w cs ∧
        d = ⟨.invalidToken (String.ofList w),
          some ((Lines.ofText source.toList).span offset (offset + byteLength w))⟩ := by
  constructor
  · intro h
    obtain ⟨offset, cs, ts, hreached, rfl | ⟨hstuck, w, hblames⟩⟩ :=
      (Reached.start : Reached source.toList 0 source.toList []).exists_end
    · cases (tokenize_of_reached hreached).symm.trans h
    · cases (tokenize_of_stuck hreached hstuck hblames).symm.trans h
      exact ⟨offset, cs, ts, w, hreached, hstuck, hblames, rfl⟩
  · rintro ⟨offset, cs, ts, w, hreached, hstuck, hblames, rfl⟩
    exact tokenize_of_stuck hreached hstuck hblames

end

/-- A text is cut into tokens by reading it with the longest match at every place. The tokens
are those read up to its end. There is a failure exactly if reading gets stuck before, where
something is left that no rule matches; it says where, and what is to blame there. -/
theorem tokenize_maximal_munch (source : String) :
    (∀ ts, tokenize source = .ok ts ↔ ∃ offset, Reached source.toList offset [] ts) ∧
    (∀ d, tokenize source = .error d ↔ ∃ offset cs ts w,
      Reached source.toList offset cs ts ∧ Stuck cs ∧ Blames w cs ∧
        d = ⟨.invalidToken (String.ofList w),
          some ((Lines.ofText source.toList).span offset (offset + byteLength w))⟩) ∧
    ((∃ d, tokenize source = .error d) ↔ ∃ offset cs ts,
      Reached source.toList offset cs ts ∧ cs ≠ [] ∧ Stuck cs) := by
  refine ⟨fun ts => tokenize_eq_ok_iff, fun d => tokenize_eq_error_iff, ?_, ?_⟩
  · rintro ⟨d, h⟩
    obtain ⟨offset, cs, ts, w, hreached, hstuck, hblames, -⟩ := tokenize_eq_error_iff.1 h
    refine ⟨offset, cs, ts, hreached, ?_, hstuck⟩
    rintro rfl
    cases hblames
  · rintro ⟨offset, cs, ts, hreached, hcs, hstuck⟩
    obtain ⟨c, cs, rfl⟩ := List.exists_cons_of_ne_nil hcs
    obtain ⟨rule, w, htakes⟩ | ⟨-, w, hblames⟩ := takes_or_stuck c cs
    · exact absurd htakes hstuck.not_takes
    · exact ⟨_, tokenize_of_stuck hreached hstuck hblames⟩

end Slate
