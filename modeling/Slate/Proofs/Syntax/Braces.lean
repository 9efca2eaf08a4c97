-- SUMMARY: A block ends at the brace that matches its opening brace exactly if the braces of every passage given up in it are balanced.
import Slate.Proofs.Syntax.Walk.Statement

/-!
# Braces and recovery

Recovery does not count braces. It goes from the token where reading stopped to the next
semicolon or closing brace, and passes over opening braces on the way. So a passage that is
given up may leave braces open, and each of them takes the closing brace of a block around
it: that block then ends too early, at a brace which belongs to the passage. Where the
braces of every passage are balanced, each block ends where it should.
-/

namespace Slate

variable {t closing : Token} {ts us xs ys inner after : List Token} {depth : Nat}

/-! ## Balanced braces -/

/-- The number of open braces behind the tokens if so many are open before them, unless one is
closed that is not open. -/
def openBraces? : Nat → List Token → Option Nat
  | depth, [] => some depth
  | depth, t :: ts =>
    if t.kind = .mark .leftBrace then openBraces? (depth + 1) ts
    else if t.kind = .mark .rightBrace then
      match depth with
      | 0 => none
      | depth + 1 => openBraces? depth ts
    else openBraces? depth ts

/-- Every brace in the tokens has its match there. -/
def Balanced (ts : List Token) : Prop := openBraces? 0 ts = some 0

instance (ts : List Token) : Decidable (Balanced ts) :=
  inferInstanceAs (Decidable (openBraces? 0 ts = some 0))

/-- The tokens from the matching brace on, for a brace that was opened before so many others
which are still open. -/
def closing? : Nat → List Token → Option (List Token)
  | _, [] => none
  | depth, t :: ts =>
    if t.kind = .mark .leftBrace then closing? (depth + 1) ts
    else if t.kind = .mark .rightBrace then
      match depth with
      | 0 => some (t :: ts)
      | depth + 1 => closing? depth ts
    else closing? depth ts

theorem openBraces?_left (h : t.kind = .mark .leftBrace) :
    openBraces? depth (t :: ts) = openBraces? (depth + 1) ts := by
  rw [openBraces?.eq_def]
  exact if_pos h

theorem openBraces?_right (h : t.kind = .mark .rightBrace) :
    openBraces? (depth + 1) (t :: ts) = openBraces? depth ts := by
  rw [openBraces?, if_neg (by rw [h]; nofun), if_pos h]

theorem openBraces?_other (hleft : t.kind ≠ .mark .leftBrace)
    (hright : t.kind ≠ .mark .rightBrace) :
    openBraces? depth (t :: ts) = openBraces? depth ts := by
  rw [openBraces?.eq_def]
  simp only [hleft, hright, if_false]

theorem openBraces?_append (depth : Nat) (xs ys : List Token) :
    openBraces? depth (xs ++ ys) = (openBraces? depth xs).bind (openBraces? · ys) := by
  induction xs generalizing depth with
  | nil => rfl
  | cons t xs ih =>
    rw [List.cons_append]
    by_cases hleft : t.kind = .mark .leftBrace
    · rw [openBraces?_left hleft, openBraces?_left hleft, ih]
    · by_cases hright : t.kind = .mark .rightBrace
      · cases depth with
        | zero => simp [openBraces?, hright]
        | succ depth => rw [openBraces?_right hright, openBraces?_right hright, ih]
      · rw [openBraces?_other hleft hright, openBraces?_other hleft hright, ih]

/-- Braces that were open before stay open. -/
theorem openBraces?_add {depth' : Nat} (h : openBraces? depth xs = some depth') (more : Nat) :
    openBraces? (depth + more) xs = some (depth' + more) := by
  induction xs generalizing depth with
  | nil =>
    cases h
    rfl
  | cons t xs ih =>
    by_cases hleft : t.kind = .mark .leftBrace
    · rw [openBraces?_left hleft] at h ⊢
      rw [Nat.add_right_comm]
      exact ih h
    · by_cases hright : t.kind = .mark .rightBrace
      · cases depth with
        | zero => simp [openBraces?, hright] at h
        | succ depth =>
          rw [openBraces?_right hright] at h
          rw [Nat.add_right_comm, openBraces?_right hright]
          exact ih h
      · rw [openBraces?_other hleft hright] at h ⊢
        exact ih h

/-- What is open behind two stretches of tokens comes from either. -/
theorem openBraces?_append_zero {m n : Nat} (hx : openBraces? 0 xs = some m)
    (hy : openBraces? 0 ys = some n) : openBraces? 0 (xs ++ ys) = some (m + n) := by
  rw [openBraces?_append, hx, Option.bind_some, Nat.add_comm]
  simpa using openBraces?_add hy m

/-- Where no brace is closed, none is closed that is not open. -/
theorem exists_openBraces? (h : ∀ t ∈ xs, t.kind ≠ .mark .rightBrace) (depth : Nat) :
    ∃ depth', openBraces? depth xs = some depth' := by
  induction xs generalizing depth with
  | nil => exact ⟨depth, rfl⟩
  | cons t xs ih =>
    obtain ⟨ht, hxs⟩ := List.forall_mem_cons.1 h
    by_cases hleft : t.kind = .mark .leftBrace
    · rw [openBraces?_left hleft]
      exact ih hxs (depth + 1)
    · rw [openBraces?_other hleft ht]
      exact ih hxs depth

theorem closing?_suffix (h : closing? depth ts = some us) : us <:+ ts := by
  induction ts generalizing depth with
  | nil => cases h
  | cons t ts ih =>
    unfold closing? at h
    split at h
    · exact (ih h).trans (List.suffix_cons t ts)
    · split at h
      · cases depth with
        | zero =>
          cases h
          exact List.suffix_rfl
        | succ depth => exact (ih h).trans (List.suffix_cons t ts)
      · exact (ih h).trans (List.suffix_cons t ts)

/-- A brace closes the innermost open one if as many were opened as closed in between. -/
theorem closing?_eq_some_iff (hclosing : closing.kind = .mark .rightBrace) :
    closing? depth (inner ++ closing :: after) = some (closing :: after) ↔
      openBraces? depth inner = some 0 := by
  induction inner generalizing depth with
  | nil =>
    cases depth with
    | zero => simp [closing?, openBraces?, hclosing]
    | succ depth =>
      refine iff_of_false (fun h => ?_) (by simp [openBraces?])
      have hafter : closing? depth after = some (closing :: after) := by
        simpa [closing?, hclosing] using h
      exact absurd (closing?_suffix hafter).length_le (by simp)
  | cons t inner ih =>
    rw [List.cons_append, closing?.eq_def, openBraces?.eq_def]
    dsimp only
    split
    · exact ih
    · split
      · cases depth with
        | zero =>
          refine iff_of_false (fun h => ?_) (by simp)
          have := congrArg List.length (Option.some.inj h)
          simp at this
          omega
        | succ depth => exact ih
      · exact ih

/-! ## Blocks in the stream -/

/-- The block was read from these tokens at the end of a stream: from an opening brace, what
stands inside, and a closing brace. Inside, reading passed over one passage for each error node
of the block. -/
structure Block.ReadAt (b : Block) (opening : Token) (inner : List Token) (closing : Token)
    (after : List Token) (passages : List Parser.Passage) : Prop where
  left : opening.kind = .mark .leftBrace
  right : closing.kind = .mark .rightBrace
  span : b.span = opening.span.merge closing.span
  course : Parser.Course false (inner ++ closing :: after) passages
    (statementBlocks b.statements) (closing :: after)
  nodes : passages.map Parser.Passage.node = b.errors

namespace Parser

variable {outside : Bool} {here there : List Token} {passages : List Passage} {blocks : List Block}

theorem Course.exists_readAt (h : Course outside here passages blocks there) :
    ∀ b ∈ blocks, ∃ opening inner closing after passages,
      opening :: (inner ++ closing :: after) <:+ here ∧
        b.ReadAt opening inner closing after passages := by
  induction h with
  | rest | plain | negative | error | stray => exact nofun
  | append hbefore _ before behind =>
    intro b hb
    rcases List.mem_append.1 hb with hb | hb
    · exact before b hb
    · obtain ⟨opening, inner, closing, after, passages, hsuffix, hread⟩ := behind b hb
      exact ⟨opening, inner, closing, after, passages, hsuffix.trans hbefore.suffix, hread⟩
  | @block _ opening closing inner after list passages hleft hright hbody hnodes ih =>
    intro b hb
    rcases List.mem_cons.1 hb with rfl | hb
    · obtain ⟨inner, rfl⟩ := hbody.suffix
      exact ⟨opening, inner, closing, after, passages, List.suffix_rfl,
        ⟨hleft, hright, rfl, hbody, hnodes⟩⟩
    · obtain ⟨opening', inner', closing', after', passages', hsuffix, hread⟩ := ih b hb
      exact ⟨opening', inner', closing', after', passages',
        hsuffix.trans (List.suffix_cons _ _), hread⟩

/-- Inside of a block, what reading goes over closes no brace that is not open, and it leaves
braces open exactly if a passage does. -/
theorem Course.openBraces (h : Course false here passages blocks there) :
    ∃ inner depth, here = inner ++ there ∧ openBraces? 0 inner = some depth ∧
      (depth = 0 ↔ ∀ p ∈ passages, Balanced p.tokens) ∧
      ∀ p ∈ passages, ∃ depth, openBraces? 0 p.tokens = some depth := by
  generalize hinside : false = inside at h
  induction h with
  | rest here => exact ⟨[], 0, rfl, rfl, by simp, nofun⟩
  | @plain _ t ts token =>
    exact ⟨[t], 0, rfl, openBraces?_other token.notLeft token.notRight, by simp, nofun⟩
  | @negative _ minus t ts _ sign literal _ =>
    refine ⟨[minus, t], 0, rfl, ?_, by simp, nofun⟩
    rw [openBraces?_other (by simp [sign]) (by simp [sign]),
      openBraces?_other (by simp [literal]) (by simp [literal]), openBraces?]
  | append _ _ before behind =>
    obtain ⟨inner, depth, rfl, hdepth, hbalanced, hopen⟩ := before hinside
    obtain ⟨inner', depth', rfl, hdepth', hbalanced', hopen'⟩ := behind hinside
    refine ⟨inner ++ inner', depth + depth', (List.append_assoc ..).symm,
      openBraces?_append_zero hdepth hdepth', ?_, List.forall_mem_append.2 ⟨hopen, hopen'⟩⟩
    rw [Nat.add_eq_zero_iff, hbalanced, hbalanced', List.forall_mem_append]
  | @error _ first t others ts tokens _ _ _ _ _ _ _ hpassed read =>
    obtain ⟨inner, depth, hinner, hdepth, -⟩ := read rfl
    obtain ⟨skipped, hskipped, hright⟩ := resume_split (t :: ts)
    obtain ⟨depth', hdepth'⟩ := exists_openBraces? hright 0
    -- the passage is what was read of the statement, and what recovery passed over
    have hsame : tokens ++ resume (t :: ts) = inner ++ skipped ++ resume (t :: ts) := by
      rw [List.append_assoc, ← hskipped, ← hinner, hpassed]
    have htokens : tokens = inner ++ skipped := List.append_cancel_right hsame
    have hopen := openBraces?_append_zero hdepth hdepth'
    rw [← htokens] at hopen
    refine ⟨tokens, _, hpassed, hopen, ?_, List.forall_mem_singleton.2 ⟨_, hopen⟩⟩
    rw [List.forall_mem_singleton]
    unfold Balanced
    rw [hopen, Option.some.injEq]
  | stray => cases hinside
  | @block _ opening closing inner after list passages hleft hright _ _ ih =>
    obtain ⟨inner', depth, rfl, hdepth, hbalanced⟩ := ih rfl
    refine ⟨opening :: (inner' ++ [closing]), depth, by simp, ?_, hbalanced⟩
    rw [openBraces?_left hleft, openBraces?_append, openBraces?_add hdepth 1, Option.bind_some,
      openBraces?_right hright]
    rfl

end Parser

/-- Every block of a program, at any depth, begins at an opening brace of the stream and ends at
a closing brace behind it. That brace is the matching one exactly if the braces are balanced in
every passage that was passed over for an error node of the block; if they are not, the passage
leaves braces open. -/
theorem block_ends_at_match_iff {tokens : List Token} {program : Program}
    (h : parse tokens = .ok program) :
    ∀ b ∈ program.blocks, ∃ opening inner closing after passages,
      opening :: (inner ++ closing :: after) <:+ tokens ∧
      b.ReadAt opening inner closing after passages ∧
      (closing? 0 (inner ++ closing :: after) = some (closing :: after) ↔
        ∀ p ∈ passages, Balanced p.tokens) ∧
      ∀ p ∈ passages, ∃ depth, openBraces? 0 p.tokens = some depth := by
  intro b hb
  obtain ⟨_, hcourse, -⟩ := parse_course h
  obtain ⟨opening, inner, closing, after, passages, hsuffix, hread⟩ := hcourse.exists_readAt b hb
  obtain ⟨inner', depth, hinner, hdepth, hbalanced, hopen⟩ := hread.course.openBraces
  obtain rfl : inner = inner' := List.append_cancel_right hinner
  refine ⟨opening, inner, closing, after, passages, hsuffix, hread, ?_, hopen⟩
  rw [closing?_eq_some_iff hread.right, hdepth, Option.some.injEq, hbalanced]

/-- Two blocks with a passage each: `if (a) { } else x;` is balanced, and the block around it
ends at its match; `fn inner() {` is not. -/
def twoPassages : String :=
  "\x7b if (a) \x7b \x7d else x; \x7d fn outer() \x7b fn inner() \x7b \x7d \x7d"

theorem block_ends_at_match_iff_twoPassages :
    ∃ tokens program, tokenize twoPassages = .ok tokens ∧ parse tokens = .ok program ∧
      program.errors.map ErrorNode.text = ["x", "fn", "\x7d"] ∧
      program.blocks.map (fun b => (b.span.start.offset, b.span.stop.offset)) =
        [(0, 22), (34, 50)] ∧
      ∀ b ∈ program.blocks, ∃ opening inner closing after passages,
        opening :: (inner ++ closing :: after) <:+ tokens ∧
        b.ReadAt opening inner closing after passages ∧
        (closing? 0 (inner ++ closing :: after) = some (closing :: after) ↔
          ∀ p ∈ passages, Balanced p.tokens) ∧
        ∀ p ∈ passages, ∃ depth, openBraces? 0 p.tokens = some depth := by
  have hrun : (tokenize twoPassages).toOption.bind (fun tokens =>
      (parse tokens).toOption.map fun program => (program.errors.map ErrorNode.text,
        program.blocks.map fun b => (b.span.start.offset, b.span.stop.offset))) =
      some (["x", "fn", "\x7d"], [(0, 22), (34, 50)]) := by
    decide +kernel
  cases htokens : tokenize twoPassages with
  | error d => rw [htokens] at hrun; cases hrun
  | ok tokens =>
    rw [htokens] at hrun
    cases hprogram : parse tokens with
    | error d => simp [Except.toOption, hprogram] at hrun
    | ok program =>
      obtain ⟨herrors, hblocks⟩ : program.errors.map ErrorNode.text = ["x", "fn", "\x7d"] ∧
          program.blocks.map (fun b => (b.span.start.offset, b.span.stop.offset)) =
            [(0, 22), (34, 50)] := by
        simpa [Except.toOption, hprogram] using hrun
      exact ⟨tokens, program, rfl, hprogram, herrors, hblocks, block_ends_at_match_iff hprogram⟩

/-- A function inside of a function, `fn outer() { fn inner() { } }`. -/
def innerFunction : List Token :=
  let span := Lines.span ⟨[0]⟩
  [⟨.keyword .fnKw, "fn", span 0 2⟩, ⟨.identifier, "outer", span 3 8⟩,
    ⟨.mark .leftParen, "(", span 8 9⟩, ⟨.mark .rightParen, ")", span 9 10⟩,
    ⟨.mark .leftBrace, "\x7b", span 11 12⟩, ⟨.keyword .fnKw, "fn", span 13 15⟩,
    ⟨.identifier, "inner", span 16 21⟩, ⟨.mark .leftParen, "(", span 21 22⟩,
    ⟨.mark .rightParen, ")", span 22 23⟩, ⟨.mark .leftBrace, "\x7b", span 24 25⟩,
    ⟨.mark .rightBrace, "\x7d", span 26 27⟩, ⟨.mark .rightBrace, "\x7d", span 28 29⟩]

/-- The inner function is refused, and recovery goes on at the brace that ends it. The body of
the outer function ends there, before its match, although all braces are balanced. -/
theorem block_ends_before_match :
    tokenize "fn outer() \x7b fn inner() \x7b \x7d \x7d" = .ok innerFunction ∧
      Balanced innerFunction ∧
      ∃ program b opening rest closing, parse innerFunction = .ok program ∧ b ∈ program.blocks ∧
        opening :: rest <:+ innerFunction ∧ b.span.start = opening.span.start ∧
        closing? 0 rest = some [closing] ∧ b.span.stop ≠ closing.span.stop := by
  refine ⟨by decide +kernel, by decide +kernel, ?_⟩
  obtain ⟨program, hprogram⟩ : ∃ program, parse innerFunction = .ok program := ⟨_, rfl⟩
  have hspans : (parse innerFunction).toOption.map (·.blocks.map Block.span) =
      some [Lines.span ⟨[0]⟩ 11 27] := by decide +kernel
  rw [hprogram] at hspans
  have hblocks : program.blocks.map Block.span = [Lines.span ⟨[0]⟩ 11 27] :=
    Option.some.inj hspans
  obtain ⟨b, hb, hspan⟩ : ∃ b ∈ program.blocks, b.span = Lines.span ⟨[0]⟩ 11 27 := by
    rw [← List.mem_map, hblocks]
    exact List.mem_singleton_self _
  refine ⟨program, b, innerFunction[4], innerFunction.drop 5, innerFunction[11], hprogram, hb,
    List.drop_suffix 4 innerFunction, ?_, by decide +kernel, ?_⟩
  · rw [hspan]
    rfl
  · rw [hspan]
    decide +kernel

end Slate
