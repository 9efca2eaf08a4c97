-- SUMMARY: The course that reading takes through the tokens: which it passes over, where it begins and closes blocks, and where it makes error nodes.
import Slate.Proofs.Syntax.Errors
import Slate.Proofs.Syntax.Extension.Statement

/-!
# The course of reading

The readers hand on trees, not the tokens that these were made of. The course of a run says
what happened to the tokens on the way: most are passed over one by one, a pair of braces
with what stands between them makes a block, and where a statement cannot be read, a whole
passage is passed over at once for one error node. The node is made at a later token than
the one at which its passage begins, and the course keeps both, with what the fault found
wrong there. Nodes and blocks are counted in the order of the tree that is handed on.
-/

namespace Slate

/-- A token that is passed over on its own: no brace, and a literal only if it denotes
something. -/
structure Token.IsPlain (t : Token) : Prop where
  notLeft : t.kind ≠ .mark .leftBrace
  notRight : t.kind ≠ .mark .rightBrace
  denotes : t.kind = .string → ∃ value, Literal.string t.text = .ok value
  fits : t.kind = .integer → ∃ n, Literal.integer? false t.text = some n

namespace Parser

open State

variable {here there ts : List Token} {t : Token} {s s₁ : State}

/-- Tokens of this class are plain whatever their text. -/
def isPlainKind : Kind → Bool
  | .mark .leftBrace | .mark .rightBrace | .integer | .string => false
  | _ => true

theorem isPlain_of_kind (h : isPlainKind t.kind = true) : t.IsPlain where
  notLeft hk := by rw [hk] at h; cases h
  notRight hk := by rw [hk] at h; cases h
  denotes hk := by rw [hk] at h; cases h
  fits hk := by rw [hk] at h; cases h

/-! ## Faults -/

/-- The fault that stops the reading of a statement at the token `t`, before `ts`, and the span
it points at. The statement begins at `here`; this matters only to a minus that belongs to an
integer literal. -/
inductive Charged (here : List Token) (t : Token) (ts : List Token) : Fault → Span → Prop
  /-- Where an expression is due, a literal is never refused for being one. -/
  | unexpected (what : Expectation)
      (operand : what = .expression → t.kind ≠ .integer ∧ t.kind ≠ .string) :
      Charged here t ts (.expected what (some t.text)) t.span
  | nestedFunction (fn : t.kind = .keyword .fnKw) : Charged here t ts .nestedFunction t.span
  | integer (literal : t.kind = .integer) (tooLarge : Literal.integer? false t.text = none) :
      Charged here t ts .integerOutOfRange t.span
  | negative {minus : Token} (literal : t.kind = .integer)
      (tooLarge : Literal.integer? true t.text = none) (sign : minus.kind = .mark .minus)
      (before : minus :: t :: ts <:+ here) :
      Charged here t ts .integerOutOfRange (minus.span.merge t.span)
  | string {fault : Fault} (literal : t.kind = .string)
      (wrong : Literal.string t.text = .error fault) : Charged here t ts fault t.span

theorem Charged.mono {fault : Fault} {span : Span} (h : Charged there t ts fault span)
    (hsuffix : there <:+ here) : Charged here t ts fault span := by
  cases h with
  | unexpected what operand => exact .unexpected what operand
  | nestedFunction fn => exact .nestedFunction fn
  | integer literal tooLarge => exact .integer literal tooLarge
  | negative literal tooLarge sign before =>
    exact .negative literal tooLarge sign (before.trans hsuffix)
  | string literal wrong => exact .string literal wrong

/-! ## Courses -/

/-- A passage that is passed over for an error node: a statement that could not be read, up to
where reading goes on. -/
structure Passage where
  node : ErrorNode
  tokens : List Token

/-- Reading goes from `here` to `there`, over these passages and with these blocks. A statement
that cannot be read is read in part, up to a token `t`, and then passed over up to where
recovery ends. Only `outside` of all blocks can one begin with a closing brace. -/
inductive Course : Bool → List Token → List Passage → List Block → List Token → Prop
  | rest {outside : Bool} (here : List Token) : Course outside here [] [] here
  | plain {outside : Bool} {t : Token} {ts : List Token} (token : t.IsPlain) :
      Course outside (t :: ts) [] [] ts
  /-- A minus that belongs to an integer literal is passed over with it. -/
  | negative {outside : Bool} {minus t : Token} {ts : List Token} {n : Int32}
      (sign : minus.kind = .mark .minus) (literal : t.kind = .integer)
      (fits : Literal.integer? true t.text = some n) :
      Course outside (minus :: t :: ts) [] [] ts
  | append {outside : Bool} {here between there : List Token} {passages passages' : List Passage}
      {blocks blocks' : List Block} (before : Course outside here passages blocks between)
      (behind : Course outside between passages' blocks' there) :
      Course outside here (passages ++ passages') (blocks ++ blocks') there
  | error {outside : Bool} {first t : Token} {others ts tokens : List Token} {fault : Fault}
      {span : Span} {passages : List Passage} {blocks : List Block}
      (begins : first.kind ≠ .mark .rightBrace)
      (read : Course false (first :: others) passages blocks (t :: ts))
      (charged : Charged (first :: others) t ts fault span)
      (passed : first :: others = tokens ++ resume (t :: ts)) :
      Course outside (first :: others) [⟨⟨t.text, fault.reason, span⟩, tokens⟩] []
        (resume (t :: ts))
  | stray {t : Token} {ts : List Token} {fault : Fault} {span : Span}
      (brace : t.kind = .mark .rightBrace) (charged : Charged (t :: ts) t ts fault span) :
      Course true (t :: ts) [⟨⟨t.text, fault.reason, span⟩, [t]⟩] [] ts
  | block {outside : Bool} {opening closing : Token} {inner after : List Token}
      {list : List Stmt} {passages : List Passage} (left : opening.kind = .mark .leftBrace)
      (right : closing.kind = .mark .rightBrace)
      (body : Course false inner passages (statementBlocks list) (closing :: after))
      (nodes : passages.map Passage.node = statementErrors list) :
      Course outside (opening :: inner) passages
        (Block.mk list (opening.span.merge closing.span) :: statementBlocks list) after

section

variable {outside : Bool} {passages passages' : List Passage} {blocks blocks' : List Block}

theorem Course.suffix (h : Course outside here passages blocks there) : there <:+ here := by
  induction h with
  | rest here => exact List.suffix_rfl
  | plain token => exact List.suffix_cons _ _
  | negative => exact (List.suffix_cons _ _).trans (List.suffix_cons _ _)
  | append _ _ before behind => exact behind.trans before
  | error _ _ _ _ read => exact (resume_suffix _).trans read
  | stray _ _ => exact List.suffix_cons _ _
  | block _ _ _ _ body =>
    exact (List.suffix_cons _ _).trans (body.trans (List.suffix_cons _ _))

/-- What is read inside of blocks may be read outside. -/
theorem Course.outwards (h : Course false here passages blocks there) :
    Course true here passages blocks there := by
  generalize hinside : false = inside at h
  induction h with
  | rest here => exact .rest here
  | plain token => exact .plain token
  | negative sign literal fits => exact .negative sign literal fits
  | append _ _ before behind => exact .append (before hinside) (behind hinside)
  | error begins read charged passed => exact .error begins read charged passed
  | stray => cases hinside
  | block left right body nodes => exact .block left right body nodes

/-- Every error node says what was wrong with a token of its statement. -/
theorem Course.charged (h : Course outside here passages blocks there) :
    ∀ p ∈ passages, ∃ begin t ts fault span, begin <:+ here ∧ t :: ts <:+ begin ∧
      Charged begin t ts fault span ∧ p.node = ⟨t.text, fault.reason, span⟩ := by
  induction h with
  | rest | plain | negative => exact nofun
  | append hbefore _ before behind =>
    refine List.forall_mem_append.2 ⟨before, fun p hp => ?_⟩
    obtain ⟨begin, t, ts, fault, span, hbegin, hcharged⟩ := behind p hp
    exact ⟨begin, t, ts, fault, span, hbegin.trans hbefore.suffix, hcharged⟩
  | error _ read charged _ _ =>
    exact List.forall_mem_singleton.2
      ⟨_, _, _, _, _, List.suffix_rfl, read.suffix, charged, rfl⟩
  | stray _ charged =>
    exact List.forall_mem_singleton.2
      ⟨_, _, _, _, _, List.suffix_rfl, List.suffix_rfl, charged, rfl⟩
  | block _ _ _ _ ih =>
    intro p hp
    obtain ⟨begin, t, ts, fault, span, hbegin, hcharged⟩ := ih p hp
    exact ⟨begin, t, ts, fault, span, hbegin.trans (List.suffix_cons _ _), hcharged⟩

/-- Inside of a block, reading does not go over a closing brace that closes nothing. -/
theorem Course.of_brace (h : Course false here passages blocks there) (hhere : here = t :: ts)
    (hbrace : t.kind = .mark .rightBrace) : passages = [] ∧ blocks = [] ∧ there = here := by
  generalize hinside : false = inside at h
  induction h with
  | rest here => exact ⟨rfl, rfl, rfl⟩
  | plain token =>
    cases hhere
    exact absurd hbrace token.notRight
  | negative sign =>
    cases hhere
    rw [hbrace] at sign
    cases sign
  | append _ _ before behind =>
    obtain ⟨rfl, rfl, rfl⟩ := before hhere hinside
    exact behind hhere hinside
  | error begins =>
    cases hhere
    exact absurd hbrace begins
  | stray => cases hinside
  | block left =>
    cases hhere
    rw [hbrace] at left
    cases left

end

/-! ## Recovery -/

/-- Recovery passes over the token where reading stopped, unless it is a closing brace. -/
theorem resume_of_brace (ts : List Token) (h : t.kind = .mark .rightBrace) :
    resume (t :: ts) = t :: ts := by
  rw [resume, if_neg (by simp [h]), if_pos h]

theorem resume_cons_suffix (ts : List Token) (h : t.kind ≠ .mark .rightBrace) :
    resume (t :: ts) <:+ ts := by
  unfold resume
  rw [if_neg h]
  split
  · exact List.suffix_rfl
  · exact resume_suffix ts

/-- Recovery from a statement moves on, unless the statement begins with a closing brace. -/
theorem resume_length_lt {first : Token} {others : List Token} (h : t :: ts <:+ first :: others)
    (hfirst : first.kind ≠ .mark .rightBrace) :
    (resume (t :: ts)).length < (first :: others).length := by
  obtain heq | htail := List.suffix_cons_iff.1 h
  · cases heq
    exact Nat.lt_succ_of_le (resume_cons_suffix _ hfirst).length_le
  · exact Nat.lt_succ_of_le ((resume_suffix _).length_le.trans htail.length_le)

/-- Where reading goes on, if it has come to the token `t`: behind a closing brace that begins the
statement, or else where recovery ends. -/
theorem Course.recovered_rest {first : Token} {others : List Token} {passages : List Passage}
    {blocks : List Block} (h : Course false (first :: others) passages blocks (t :: ts))
    (hrest : s.rest = first :: others) (hleft : s₁.rest = t :: ts) :
    (first.kind ≠ .mark .rightBrace ∧ (s.recovered s₁).rest = resume (t :: ts)) ∨
      (first.kind = .mark .rightBrace ∧ t :: ts = first :: others ∧
        (s.recovered s₁).rest = others) := by
  unfold State.recovered
  dsimp only
  rw [hrest, hleft]
  by_cases hfirst : first.kind = .mark .rightBrace
  · -- nothing was read, so that recovery, too, ends at the brace
    obtain ⟨-, -, hsame⟩ := h.of_brace rfl hfirst
    rw [hsame, resume_of_brace others hfirst, if_pos rfl]
    exact .inr ⟨hfirst, rfl, rfl⟩
  · rw [if_neg (resume_length_lt h.suffix hfirst).ne]
    exact .inl ⟨hfirst, rfl⟩

end Parser

end Slate
