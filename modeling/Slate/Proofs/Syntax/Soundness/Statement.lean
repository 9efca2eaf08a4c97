-- SUMMARY: What the readers of statements read derives from the grammar with recovery.
import Slate.Proofs.Syntax.Walk.Statement
import Slate.Proofs.Syntax.Recovery
import Slate.Proofs.Syntax.Soundness.Expression

/-!
# Soundness of reading statements

Recovery makes a success of every failure but the last one, so the promise is made
with the grammar that has recovery in it. The number of open blocks tells whether a
function may be defined.
-/

namespace Slate.Parser

open Grammar

variable {budget depth : Nat} {t last : Token} {ts : List Token} {s s' : State}

/-! ## Parts of statements -/

theorem sound_initializer (hs : Sane ts last) :
    Sound (initializer budget) ts last (Initializer ts) := by
  intro depth e s' h
  rw [initializer, bind_ok] at h
  obtain ⟨_, s₁, h₁, h⟩ := h
  obtain ⟨equal, ts, rfl, hequal, -, rfl⟩ := expect_ok.1 h₁
  obtain ⟨value, s₂, h₂, h⟩ := bind_ok.1 h
  obtain ⟨mid, rfl, hvalue, hmid⟩ := (soundExpressions budget).expression hs.tail
    (hs.due hequal rfl) h₂
  obtain ⟨_, s₃, h₃, h⟩ := bind_ok.1 h
  obtain ⟨stop, rest, rfl, hstop, rfl⟩ := semicolon_ok.1 h₃
  obtain ⟨rfl, rfl⟩ := pure_ok.1 h
  exact ⟨rest, rfl, .mk hequal hvalue hstop, hmid.tail⟩

theorem sound_params (hs : Sane ts last) : Sound (params budget) ts last (Params ts) := by
  induction budget generalizing ts with
  | zero => exact .throw
  | succ budget ih =>
    intro depth list s' h
    rw [params, bind_ok] at h
    obtain ⟨_, s₁, h₁, h⟩ := h
    obtain ⟨name, ts, rfl, hname, rfl, rfl⟩ := expectIdentifier_ok.1 h₁
    obtain ⟨_, s₂, h₂, h⟩ := bind_ok.1 h
    obtain ⟨colon, ts, rfl, hcolon, -, rfl⟩ := expect_ok.1 h₂
    obtain ⟨ty, s₃, h₃, h⟩ := bind_ok.1 h
    have hd : Due ts last := hs.tail.due hcolon rfl
    obtain ⟨type, ts, rfl, htype, rfl⟩ := (expectType_ok hd).1 h₃
    obtain ⟨_, s₄, h₄, h⟩ := bind_ok.1 h
    obtain ⟨comma, ts, rfl, hcomma, rfl, rfl⟩ | ⟨-, rfl, rfl⟩ := accept?_ok.1 h₄
    · obtain ⟨more, s₅, h₅, h⟩ := bind_ok.1 h
      obtain ⟨rest, rfl, hmore, hrest⟩ := ih hs.tail.tail.tail.tail h₅
      obtain ⟨rfl, rfl⟩ := pure_ok.1 h
      exact ⟨rest, rfl, .more hname hcolon htype hcomma hmore, hrest⟩
    · obtain ⟨rfl, rfl⟩ := pure_ok.1 h
      exact ⟨ts, rfl, .last hname hcolon htype, hs.tail.tail.tail⟩

/-! ## Simple statements -/

theorem sound_declaration {top : Bool} (hs : Sane ts last) :
    Sound (declaration budget) ts last (Statement top ts) := by
  intro depth stmt s' h
  rw [declaration, bind_ok] at h
  obtain ⟨_, s₁, h₁, h⟩ := h
  obtain ⟨word, ts, rfl, hword, -, rfl⟩ := expect_ok.1 h₁
  obtain ⟨_, s₂, h₂, h⟩ := bind_ok.1 h
  obtain ⟨name, ts, rfl, hname, rfl, rfl⟩ := expectIdentifier_ok.1 h₂
  obtain ⟨_, s₃, h₃, h⟩ := bind_ok.1 h
  obtain ⟨colon, ts, rfl, hcolon, rfl, rfl⟩ | ⟨-, rfl, rfl⟩ := accept?_ok.1 h₃
  · obtain ⟨ty, s₄, h₄, h⟩ := bind_ok.1 h
    have hd : Due ts last := hs.tail.tail.due hcolon rfl
    obtain ⟨type, ts, rfl, htype, rfl⟩ := (expectType_ok hd).1 h₄
    have hs := hs.tail.tail.tail.tail
    obtain ⟨_, s₅, h₅, h⟩ := bind_ok.1 h
    obtain ⟨stop, ts, rfl, hstop, rfl, rfl⟩ | ⟨-, rfl, rfl⟩ := accept?_ok.1 h₅
    · obtain ⟨rfl, rfl⟩ := pure_ok.1 h
      exact ⟨ts, rfl, .declare hword hname hcolon htype hstop, hs.tail⟩
    · obtain ⟨value, s₆, h₆, h⟩ := bind_ok.1 h
      obtain ⟨rest, rfl, hvalue, hrest⟩ := sound_initializer hs h₆
      obtain ⟨rfl, rfl⟩ := pure_ok.1 h
      exact ⟨rest, rfl, .define hword hname hcolon htype hvalue, hrest⟩
  · obtain ⟨value, s₄, h₄, h⟩ := bind_ok.1 h
    obtain ⟨rest, rfl, hvalue, hrest⟩ := sound_initializer hs.tail.tail h₄
    obtain ⟨rfl, rfl⟩ := pure_ok.1 h
    exact ⟨rest, rfl, .infer hword hname hvalue, hrest⟩

theorem sound_needs {top : Bool} (hs : Sane ts last) :
    Sound needs ts last (Statement top ts) := by
  intro depth stmt s' h
  rw [needs, bind_ok] at h
  obtain ⟨_, s₁, h₁, h⟩ := h
  obtain ⟨word, ts, rfl, hword, rfl, rfl⟩ := expect_ok.1 h₁
  obtain ⟨_, s₂, h₂, h⟩ := bind_ok.1 h
  obtain ⟨name, ts, rfl, hname, rfl, rfl⟩ := expectIdentifier_ok.1 h₂
  obtain ⟨_, s₃, h₃, h⟩ := bind_ok.1 h
  obtain ⟨stop, rest, rfl, hstop, rfl⟩ := semicolon_ok.1 h₃
  obtain ⟨rfl, rfl⟩ := pure_ok.1 h
  exact ⟨rest, rfl, .needs hword hname hstop, hs.tail.tail.tail⟩

theorem sound_ret {top : Bool} (hs : Sane ts last) :
    Sound (ret budget) ts last (Statement top ts) := by
  intro depth stmt s' h
  rw [ret, bind_ok] at h
  obtain ⟨_, s₁, h₁, h⟩ := h
  obtain ⟨word, ts, rfl, hword, rfl, rfl⟩ := expect_ok.1 h₁
  rw [get_bind_ok, ite_bind_ok] at h
  obtain ⟨value, s₂, h₂, h⟩ := h
  obtain ⟨_, s₃, h₃, h⟩ := bind_ok.1 h
  obtain ⟨rfl, rfl⟩ := pure_ok.1 h
  split at h₂
  · obtain ⟨rfl, rfl⟩ := pure_ok.1 h₂
    obtain ⟨stop, rest, rfl, hstop, rfl⟩ := semicolon_ok.1 h₃
    exact ⟨rest, rfl, .ret hword hstop, hs.tail.tail⟩
  · obtain ⟨value, hread, rfl⟩ := map_ok.1 h₂
    obtain ⟨mid, rfl, hvalue, hmid⟩ := (soundExpressions budget).expression hs.tail
      (hs.due hword rfl) hread
    obtain ⟨stop, rest, rfl, hstop, rfl⟩ := semicolon_ok.1 h₃
    exact ⟨rest, rfl, .retValue hword hvalue hstop, hmid.tail⟩

theorem sound_assignmentOrExpression {top : Bool} (hs : Sane ts last) (hd : Due ts last) :
    Sound (assignmentOrExpression budget) ts last (Statement top ts) := by
  intro depth stmt s' h
  rw [assignmentOrExpression, get_bind_ok] at h
  split at h
  · obtain ⟨_, s₁, h₁, h⟩ := bind_ok.1 h
    obtain ⟨name, ts, rfl, hname, rfl, rfl⟩ := expectIdentifier_ok.1 h₁
    obtain ⟨value, s₂, h₂, h⟩ := bind_ok.1 h
    obtain ⟨rest, rfl, hvalue, hrest⟩ := sound_initializer hs.tail h₂
    obtain ⟨rfl, rfl⟩ := pure_ok.1 h
    exact ⟨rest, rfl, .assign hname hvalue, hrest⟩
  · obtain ⟨value, s₁, h₁, h⟩ := bind_ok.1 h
    obtain ⟨mid, rfl, hvalue, hmid⟩ := (soundExpressions budget).expression hs hd h₁
    obtain ⟨_, s₂, h₂, h⟩ := bind_ok.1 h
    obtain ⟨stop, rest, rfl, hstop, rfl⟩ := semicolon_ok.1 h₂
    obtain ⟨rfl, rfl⟩ := pure_ok.1 h
    exact ⟨rest, rfl, .expression hvalue hstop, hmid.tail⟩

/-! ## Recovery -/

/-- What the program yields from this place is in the relation with what it leaves behind, and
the rest of the state is as before. -/
def SoundAt {α : Type} (m : ParseM α) (s : State) (R : α → List Token → Prop) : Prop :=
  ∀ ⦃a s'⦄, m s = .ok a s' → ∃ rest, s' = { s with rest } ∧ R a rest ∧ Sane rest s.last

theorem SoundAt.throw {α : Type} {failure : Failure} {R : α → List Token → Prop} :
    SoundAt (throw failure) s R := nofun

theorem Sane.suffix {rest : List Token} (h : Sane ts last) (hsuffix : rest <:+ ts) :
    Sane rest last := by
  obtain ⟨before, rfl⟩ := hsuffix
  induction before with
  | nil => exact h
  | cons t before ih => exact ih h.tail

/-- A statement that cannot be read is an error node, a closing brace at its front one of its
own. -/
theorem SoundAt.statement {top : Bool} (hne : ts ≠ []) (hs : Sane ts last)
    (hbrace : top = false → NotNext (.mark .rightBrace) ts)
    (hm : SoundAt (strictStatement budget) ⟨ts, last, depth⟩ (Recovered.Statement top ts)) :
    SoundAt (statement (budget + 1)) ⟨ts, last, depth⟩ (Recovered.Statement top ts) := by
  intro stmt s' h
  obtain ⟨first, others, rfl⟩ := List.exists_cons_of_ne_nil hne
  rw [Parser.statement] at h
  cases hrun : strictStatement budget ⟨first :: others, last, depth⟩ with
  | ok read after =>
    rw [recovering_ok hrun] at h
    cases h
    exact hm hrun
  | error failure after =>
    cases Reader.halts .strictStatement hrun with
    | exhausted =>
      rw [recovering_exhausted hrun] at h
      cases h
    | missing nothingLeft =>
      rw [recovering_atEnd hrun (List.isEmpty_iff.2 nothingLeft)] at h
      cases h
    | charged left gone charged =>
      rw [recovering_fault hrun (by rw [State.atEnd, left]; rfl)] at h
      cases h
      obtain ⟨passages, hread, -⟩ := gone.course
      have hlast : after.last = last := gone.last
      have hstate : State.recovered ⟨first :: others, last, depth⟩ after =
          ⟨(State.recovered ⟨first :: others, last, depth⟩ after).rest, last, depth⟩ := by
        rw [← hlast]
        rfl
      rw [hstate, view_of_cons left]
      rw [left] at hread
      refine ⟨_, rfl, ?_⟩
      have hbegin : State.rest ⟨first :: others, last, depth⟩ = first :: others := rfl
      obtain ⟨hfirst, hrest⟩ | ⟨hfirst, hsame, hrest⟩ := hread.recovered_rest hbegin left
      · rw [hrest]
        exact ⟨.error hfirst hread.suffix charged,
          hs.suffix ((resume_suffix _).trans hread.suffix)⟩
      · rw [hrest]
        cases hsame
        cases top with
        | false => exact absurd hfirst (hbrace rfl first others rfl)
        | true => exact ⟨.stray hfirst charged, hs.tail⟩

/-! ## One step of the descent -/

/-- The readers of statements are sound with this budget. -/
structure SoundStatements (budget : Nat) : Prop where
  statement : ∀ {ts last depth}, ts ≠ [] → Sane ts last →
    ((depth == 0) = false → NotNext (.mark .rightBrace) ts) →
    SoundAt (statement budget) ⟨ts, last, depth⟩ (Recovered.Statement (depth == 0) ts)
  strictStatement : ∀ {ts last depth}, ts ≠ [] → Sane ts last →
    SoundAt (strictStatement budget) ⟨ts, last, depth⟩ (Recovered.Statement (depth == 0) ts)
  function : ∀ {ts last depth}, Sane ts last →
    SoundAt (function budget) ⟨ts, last, depth⟩ (Recovered.Statement true ts)
  ifChain : ∀ {ts last depth} top, Sane ts last →
    SoundAt (ifChain budget) ⟨ts, last, depth⟩ (Recovered.Statement top ts)
  elseBranches : ∀ {ts last depth}, Sane ts last →
    SoundAt (elseBranches budget) ⟨ts, last, depth⟩ fun r rest =>
      Recovered.Alternatives ts r.1 r.2 rest
  guarded : ∀ {ts last depth}, Sane ts last →
    SoundAt (guarded budget) ⟨ts, last, depth⟩ fun r rest => Recovered.Guarded ts r.1 r.2 rest
  block : ∀ {ts last depth}, Sane ts last →
    SoundAt (block budget) ⟨ts, last, depth⟩ (Recovered.Braces ts)
  blockStatements : ∀ {ts last depth}, Sane ts last →
    SoundAt (blockStatements budget) ⟨ts, last, depth⟩ (Recovered.Statements (depth == 0) ts)

namespace SoundStatements

theorem zero : SoundStatements 0 where
  statement _ _ _ := .throw
  strictStatement _ _ := .throw
  function _ := .throw
  ifChain _ _ := .throw
  elseBranches _ := .throw
  guarded _ := .throw
  block _ := .throw
  blockStatements _ := .throw

variable (ih : SoundStatements budget)
include ih

theorem guarded_succ (hs : Sane ts last) :
    SoundAt (Parser.guarded (budget + 1)) ⟨ts, last, depth⟩
      fun r rest => Recovered.Guarded ts r.1 r.2 rest := by
  intro r s' h
  rw [Parser.guarded, bind_ok] at h
  obtain ⟨_, s₁, h₁, h⟩ := h
  obtain ⟨left, ts, rfl, hleft, -, rfl⟩ := expect_ok.1 h₁
  obtain ⟨test, s₂, h₂, h⟩ := bind_ok.1 h
  obtain ⟨mid, rfl, htest, hmid⟩ := (soundExpressions budget).expression hs.tail
    (hs.due hleft rfl) h₂
  obtain ⟨_, s₃, h₃, h⟩ := bind_ok.1 h
  obtain ⟨right, mid, rfl, hright, -, rfl⟩ := expect_ok.1 h₃
  obtain ⟨body, s₄, h₄, h⟩ := bind_ok.1 h
  obtain ⟨rfl, rfl⟩ := pure_ok.1 h
  obtain ⟨rest, rfl, hbody, hrest⟩ := ih.block hmid.tail h₄
  exact ⟨rest, rfl, .mk hleft htest hright hbody, hrest⟩

theorem elseBranches_succ (hs : Sane ts last) :
    SoundAt (Parser.elseBranches (budget + 1)) ⟨ts, last, depth⟩
      fun r rest => Recovered.Alternatives ts r.1 r.2 rest := by
  intro r s' h
  rw [Parser.elseBranches, bind_ok] at h
  obtain ⟨_, s₁, h₁, h⟩ := h
  obtain ⟨word, ts, rfl, hword, rfl, rfl⟩ | ⟨-, rfl, rfl⟩ := accept?_ok.1 h₁
  · obtain ⟨_, s₂, h₂, h⟩ := bind_ok.1 h
    obtain ⟨word', ts, rfl, hword', rfl, rfl⟩ | ⟨-, rfl, rfl⟩ := accept?_ok.1 h₂
    · obtain ⟨⟨test, body⟩, s₃, h₃, h⟩ := bind_ok.1 h
      obtain ⟨⟨branches, otherwise⟩, s₄, h₄, h⟩ := bind_ok.1 h
      obtain ⟨rfl, rfl⟩ := pure_ok.1 h
      obtain ⟨mid, rfl, hguarded, hmid⟩ := ih.guarded hs.tail.tail h₃
      obtain ⟨rest, rfl, halternatives, hrest⟩ := ih.elseBranches hmid h₄
      exact ⟨rest, rfl, .more hword hword' hguarded halternatives, hrest⟩
    · obtain ⟨body, s₃, h₃, h⟩ := bind_ok.1 h
      obtain ⟨rfl, rfl⟩ := pure_ok.1 h
      obtain ⟨rest, rfl, hbody, hrest⟩ := ih.block hs.tail h₃
      exact ⟨rest, rfl, .last hword hbody, hrest⟩
  · obtain ⟨rfl, rfl⟩ := pure_ok.1 h
    exact ⟨ts, rfl, .none, hs⟩

theorem ifChain_succ (top : Bool) (hs : Sane ts last) :
    SoundAt (Parser.ifChain (budget + 1)) ⟨ts, last, depth⟩ (Recovered.Statement top ts) := by
  intro stmt s' h
  rw [Parser.ifChain, bind_ok] at h
  obtain ⟨_, s₁, h₁, h⟩ := h
  obtain ⟨word, ts, rfl, hword, rfl, rfl⟩ := expect_ok.1 h₁
  obtain ⟨⟨test, body⟩, s₂, h₂, h⟩ := bind_ok.1 h
  obtain ⟨⟨branches, otherwise⟩, s₃, h₃, h⟩ := bind_ok.1 h
  obtain ⟨rfl, rfl⟩ := pure_ok.1 h
  obtain ⟨mid, rfl, hguarded, hmid⟩ := ih.guarded hs.tail h₂
  obtain ⟨rest, rfl, halternatives, hrest⟩ := ih.elseBranches hmid h₃
  exact ⟨rest, rfl, .ifChain hword hguarded halternatives, hrest⟩

theorem function_succ (hs : Sane ts last) :
    SoundAt (Parser.function (budget + 1)) ⟨ts, last, depth⟩ (Recovered.Statement true ts) := by
  intro stmt s' h
  rw [Parser.function, bind_ok] at h
  obtain ⟨_, s₁, h₁, h⟩ := h
  obtain ⟨word, ts, rfl, hword, -, rfl⟩ := expect_ok.1 h₁
  obtain ⟨_, s₂, h₂, h⟩ := bind_ok.1 h
  obtain ⟨name, ts, rfl, hname, rfl, rfl⟩ := expectIdentifier_ok.1 h₂
  obtain ⟨_, s₃, h₃, h⟩ := bind_ok.1 h
  obtain ⟨left, ts, rfl, hleft, -, rfl⟩ := expect_ok.1 h₃
  rw [get_bind_ok, ite_bind_ok] at h
  obtain ⟨list, s₄, h₄, h⟩ := h
  obtain ⟨_, s₅, h₅, h⟩ := bind_ok.1 h
  obtain ⟨ts', hparams, hs', rfl⟩ : ∃ rest, ParamList (left :: ts) list rest ∧ Sane rest last ∧
      s₅ = ⟨rest, last, depth⟩ := by
    split at h₄
    · obtain ⟨rfl, rfl⟩ := pure_ok.1 h₄
      obtain ⟨right, rest, rfl, hright, -, rfl⟩ := expect_ok.1 h₅
      exact ⟨rest, .none hleft hright, hs.tail.tail.tail.tail, rfl⟩
    · obtain ⟨mid, rfl, hlist, hmid⟩ := sound_params hs.tail.tail.tail h₄
      obtain ⟨right, rest, rfl, hright, -, rfl⟩ := expect_ok.1 h₅
      exact ⟨rest, .some hleft hlist hright, hmid.tail, rfl⟩
  obtain ⟨_, s₆, h₆, h⟩ := bind_ok.1 h
  -- with an arrow or without, the body is read from what is left
  obtain ⟨returns, ts'', hreturns, hs'', body, s₇, h₇, h⟩ : ∃ returns rest,
      ReturnType ts' returns rest ∧ Sane rest last ∧
      ∃ body s₇, Parser.block budget ⟨rest, last, depth⟩ = .ok body s₇ ∧
        (pure (.function name.text list returns body name.span) : ParseM Stmt) s₇ =
          .ok stmt s' := by
    obtain ⟨arrow, ts', rfl, harrow, rfl, rfl⟩ | ⟨-, rfl, rfl⟩ := accept?_ok.1 h₆
    · obtain ⟨_, s₇, h₇, h⟩ := bind_ok.1 h
      obtain ⟨ty, hread, rfl⟩ := map_ok.1 h₇
      have hd : Due ts' last := hs'.due harrow rfl
      obtain ⟨type, rest, rfl, htype, rfl⟩ := (expectType_ok hd).1 hread
      exact ⟨some ty, rest, .some harrow htype, hs'.tail.tail, bind_ok.1 h⟩
    · exact ⟨none, ts', .none, hs', bind_ok.1 h⟩
  obtain ⟨rfl, rfl⟩ := pure_ok.1 h
  obtain ⟨rest, rfl, hbody, hrest⟩ := ih.block hs'' h₇
  exact ⟨rest, rfl, .function hword hname hparams hreturns hbody, hrest⟩

theorem block_succ (hs : Sane ts last) :
    SoundAt (Parser.block (budget + 1)) ⟨ts, last, depth⟩ (Recovered.Braces ts) := by
  intro body s' h
  rw [Parser.block, bind_ok] at h
  obtain ⟨_, s₁, h₁, h⟩ := h
  obtain ⟨left, ts, rfl, hleft, rfl, rfl⟩ := expect_ok.1 h₁
  obtain ⟨_, s₂, ⟨⟩, h⟩ := bind_ok.1 h
  obtain ⟨list, s₃, h₃, h⟩ := bind_ok.1 h
  obtain ⟨_, s₄, ⟨⟩, h⟩ := bind_ok.1 h
  obtain ⟨stop, s₅, h₅, h⟩ := bind_ok.1 h
  obtain ⟨rfl, rfl⟩ := pure_ok.1 h
  obtain ⟨mid, rfl, hlist, hmid⟩ := ih.blockStatements hs.tail h₃
  obtain ⟨right, rest, rfl, hright, rfl, rfl⟩ := expect_ok.1 h₅
  exact ⟨rest, rfl, .mk hleft hlist hright, hmid.tail⟩

theorem blockStatements_succ (hs : Sane ts last) :
    SoundAt (Parser.blockStatements (budget + 1)) ⟨ts, last, depth⟩
      (Recovered.Statements (depth == 0) ts) := by
  intro list s' h
  rw [Parser.blockStatements, get_bind_ok] at h
  split at h
  · obtain ⟨rfl, rfl⟩ := pure_ok.1 h
    exact ⟨ts, rfl, .none, hs⟩
  · next hmore =>
    have hne : ts ≠ [] := by
      rintro rfl
      simp [State.atEnd] at hmore
    have hbrace : State.sees ⟨ts, last, depth⟩ (.mark .rightBrace) = false :=
      Bool.eq_false_of_not_eq_true fun h => hmore (by rw [h]; rfl)
    obtain ⟨first, s₁, h₁, h⟩ := bind_ok.1 h
    obtain ⟨more, s₂, h₂, h⟩ := bind_ok.1 h
    obtain ⟨rfl, rfl⟩ := pure_ok.1 h
    obtain ⟨mid, rfl, hstmt, hmid⟩ := ih.statement hne hs (fun _ => not_sees_iff.1 hbrace) h₁
    obtain ⟨rest, rfl, hmore, hrest⟩ := ih.blockStatements hmid h₂
    exact ⟨rest, rfl, .more hstmt hmore, hrest⟩

theorem strictStatement_succ (hne : ts ≠ []) (hs : Sane ts last) :
    SoundAt (Parser.strictStatement (budget + 1)) ⟨ts, last, depth⟩
      (Recovered.Statement (depth == 0) ts) := by
  intro stmt s' h
  obtain ⟨t, ts, rfl⟩ := List.exists_cons_of_ne_nil hne
  rw [Parser.strictStatement, get_bind_ok] at h
  simp only [State.view, List.headD_cons] at h
  -- what no word or brace before a block begins is a statement of the grammar without blocks
  have hsimple (hopens : Recovered.opensBlocks t.kind = false)
      (h : ∃ rest, s' = ⟨rest, last, depth⟩ ∧ Statement (depth == 0) (t :: ts) stmt rest ∧
        Sane rest last) :
      ∃ rest, s' = ⟨rest, last, depth⟩ ∧ Recovered.Statement (depth == 0) (t :: ts) stmt rest ∧
        Sane rest last := by
    obtain ⟨rest, hs', hstmt, hrest⟩ := h
    exact ⟨rest, hs', .simple hstmt (Recovered.blocks_eq_nil hstmt hopens), hrest⟩
  -- all that no keyword or brace begins is an assignment or an expression
  have hother (h : assignmentOrExpression budget ⟨t :: ts, last, depth⟩ = .ok stmt s') :
      ∃ rest, s' = ⟨rest, last, depth⟩ ∧ Statement (depth == 0) (t :: ts) stmt rest ∧
        Sane rest last := sound_assignmentOrExpression hs Due.cons h
  cases hk : t.kind with
  | keyword k =>
    cases k with
    | letKw =>
      rw [hk] at h
      exact hsimple (by rw [hk]; rfl) (sound_declaration hs h)
    | needsKw =>
      rw [hk] at h
      exact hsimple (by rw [hk]; rfl) (sound_needs hs h)
    | fnKw =>
      rw [hk] at h
      by_cases hdepth : depth > 0
      · rw [if_pos hdepth] at h
        cases h
      · rw [if_neg hdepth] at h
        -- past the test for open blocks this is the top
        obtain rfl : depth = 0 := by omega
        exact ih.function hs h
    | ifKw => rw [hk] at h; exact ih.ifChain (depth == 0) hs h
    | whileKw =>
      rw [hk] at h
      obtain ⟨_, s₁, h₁, h⟩ := bind_ok.1 h
      obtain ⟨word, _, ⟨⟩, hword, rfl, rfl⟩ := expect_ok.1 h₁
      obtain ⟨⟨test, body⟩, s₂, h₂, h⟩ := bind_ok.1 h
      obtain ⟨rfl, rfl⟩ := pure_ok.1 h
      obtain ⟨rest, rfl, hguarded, hrest⟩ := ih.guarded hs.tail h₂
      exact ⟨rest, rfl, .whileLoop hword hguarded, hrest⟩
    | returnKw =>
      rw [hk] at h
      exact hsimple (by rw [hk]; rfl) (sound_ret hs h)
    | breakKw =>
      rw [hk] at h
      obtain ⟨_, s₁, h₁, h⟩ := bind_ok.1 h
      obtain ⟨word, _, ⟨⟩, hword, rfl, rfl⟩ := expect_ok.1 h₁
      obtain ⟨_, s₂, h₂, h⟩ := bind_ok.1 h
      obtain ⟨stop, rest, rfl, hstop, rfl⟩ := semicolon_ok.1 h₂
      obtain ⟨rfl, rfl⟩ := pure_ok.1 h
      exact ⟨rest, rfl, .simple (.breakLoop hword hstop) rfl, hs.tail.tail⟩
    | continueKw =>
      rw [hk] at h
      obtain ⟨_, s₁, h₁, h⟩ := bind_ok.1 h
      obtain ⟨word, _, ⟨⟩, hword, rfl, rfl⟩ := expect_ok.1 h₁
      obtain ⟨_, s₂, h₂, h⟩ := bind_ok.1 h
      obtain ⟨stop, rest, rfl, hstop, rfl⟩ := semicolon_ok.1 h₂
      obtain ⟨rfl, rfl⟩ := pure_ok.1 h
      exact ⟨rest, rfl, .simple (.continueLoop hword hstop) rfl, hs.tail.tail⟩
    | elseKw | trueKw | falseKw =>
      rw [hk] at h
      exact hsimple (by rw [hk]; rfl) (hother h)
  | mark m =>
    cases m with
    | leftBrace =>
      rw [hk] at h
      obtain ⟨body, s₁, h₁, h⟩ := bind_ok.1 h
      obtain ⟨rfl, rfl⟩ := pure_ok.1 h
      obtain ⟨rest, rfl, hbody, hrest⟩ := ih.block hs h₁
      exact ⟨rest, rfl, .block hbody, hrest⟩
    | _ =>
      rw [hk] at h
      exact hsimple (by rw [hk]; rfl) (hother h)
  | _ =>
    rw [hk] at h
    exact hsimple (by rw [hk]; rfl) (hother h)

theorem succ : SoundStatements (budget + 1) where
  statement hne hs hbrace := .statement hne hs hbrace (ih.strictStatement hne hs)
  strictStatement := ih.strictStatement_succ
  function := ih.function_succ
  ifChain := ih.ifChain_succ
  elseBranches := ih.elseBranches_succ
  guarded := ih.guarded_succ
  block := ih.block_succ
  blockStatements := ih.blockStatements_succ

end SoundStatements

/-! ## The whole descent -/

theorem soundStatements (budget : Nat) : SoundStatements budget := by
  induction budget with
  | zero => exact .zero
  | succ budget ih => exact ih.succ

/-- At the top, statements are read until nothing is left. -/
theorem recovered_of_programStatements {list : List Stmt} (hs : Sane ts last)
    (h : programStatements budget ⟨ts, last, 0⟩ = .ok list s') :
    Recovered.Statements true ts list [] := by
  induction budget generalizing ts list with
  | zero => cases h
  | succ budget ih =>
    rw [programStatements, get_bind_ok] at h
    split at h
    · next hend =>
      obtain ⟨rfl, -⟩ := pure_ok.1 h
      obtain rfl : ts = [] := List.isEmpty_iff.1 hend
      exact .none
    · next hmore =>
      have hne : ts ≠ [] := by
        rintro rfl
        exact hmore rfl
      obtain ⟨first, s₁, h₁, h⟩ := bind_ok.1 h
      obtain ⟨more, s₂, h₂, h⟩ := bind_ok.1 h
      obtain ⟨rfl, rfl⟩ := pure_ok.1 h
      have htop : ((0 : Nat) == 0) = false → NotNext (.mark .rightBrace) ts :=
        fun hinside => absurd hinside (by decide)
      obtain ⟨mid, rfl, hstmt, hmid⟩ := (soundStatements budget).statement hne hs htop h₁
      exact .more hstmt (ih hmid h₂)

end Slate.Parser
