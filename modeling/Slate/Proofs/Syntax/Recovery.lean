-- SUMMARY: The grammar with one rule more: what cannot be read is an error node, from its first token to where recovery ends.
import Slate.Proofs.Syntax.Course
import Slate.Proofs.Syntax.Derivation

/-!
# The grammar with recovery

What the parser yields for a stream that it cannot read in full is a tree of the grammar all the
same, if error nodes are let in. An error node stands for the tokens from the front of a
statement, over the token that a fault was found at, up to where recovery ends. A tree without
error nodes is one of the grammar itself.
-/

namespace Slate

open Grammar (NotNext ParamList ReturnType Expression Opens opensStatement)
open Slate.Parser (Charged resume)

namespace Recovered

mutual

/-- Statements, be they read or given up. Functions are read outside of blocks only, and only
there can a statement begin with a closing brace. -/
inductive Statement : Bool → List Token → Stmt → List Token → Prop where
  | simple {top : Bool} {ts rest : List Token} {stmt : Stmt} :
      Grammar.Statement top ts stmt rest → stmt.blocks = [] → Statement top ts stmt rest
  | function {word name : Token} {ts ts' ts'' rest : List Token} {list : List Param}
      {returns : Option Ty} {body : Block} :
      word.kind = .keyword .fnKw → name.kind = .identifier → ParamList ts list ts' →
      ReturnType ts' returns ts'' → Braces ts'' body rest →
      Statement true (word :: name :: ts) (.function name.text list returns body name.span) rest
  | ifChain {top : Bool} {word : Token} {ts mid rest : List Token} {test : Expr} {body : Block}
      {branches : List Branch} {otherwise : Option Block} :
      word.kind = .keyword .ifKw → Guarded ts test body mid →
      Alternatives mid branches otherwise rest →
      Statement top (word :: ts)
        (.ifChain (.mk test body word.span :: branches) otherwise word.span) rest
  | whileLoop {top : Bool} {word : Token} {ts rest : List Token} {test : Expr} {body : Block} :
      word.kind = .keyword .whileKw → Guarded ts test body rest →
      Statement top (word :: ts) (.whileLoop test body word.span) rest
  | block {top : Bool} {ts rest : List Token} {body : Block} :
      Braces ts body rest → Statement top ts (.block body) rest
  | error {top : Bool} {first t : Token} {others ts : List Token} {fault : Fault} {span : Span} :
      first.kind ≠ .mark .rightBrace → t :: ts <:+ first :: others →
      Charged (first :: others) t ts fault span →
      Statement top (first :: others) (.error t.text fault.reason span) (resume (t :: ts))
  | stray {t : Token} {ts : List Token} {fault : Fault} {span : Span} :
      t.kind = .mark .rightBrace → Charged (t :: ts) t ts fault span →
      Statement true (t :: ts) (.error t.text fault.reason span) ts

/-- `block := '{' statement* '}'` -/
inductive Braces : List Token → Block → List Token → Prop where
  | mk {left right : Token} {ts rest : List Token} {list : List Stmt} :
      left.kind = .mark .leftBrace → Statements false ts list (right :: rest) →
      right.kind = .mark .rightBrace →
      Braces (left :: ts) (.mk list (left.span.merge right.span)) rest

/-- `'(' expr ')' block` -/
inductive Guarded : List Token → Expr → Block → List Token → Prop where
  | mk {left right : Token} {ts mid rest : List Token} {test : Expr} {body : Block} :
      left.kind = .mark .leftParen → Expression ts test (right :: mid) →
      right.kind = .mark .rightParen → Braces mid body rest →
      Guarded (left :: ts) test body rest

/-- `('else' 'if' '(' expr ')' block)* ('else' block)?` -/
inductive Alternatives : List Token → List Branch → Option Block → List Token → Prop where
  | none {rest : List Token} : Alternatives rest [] none rest
  | last {word : Token} {ts rest : List Token} {body : Block} :
      word.kind = .keyword .elseKw → Braces ts body rest →
      Alternatives (word :: ts) [] (some body) rest
  | more {word word' : Token} {ts mid rest : List Token} {test : Expr} {body : Block}
      {branches : List Branch} {otherwise : Option Block} :
      word.kind = .keyword .elseKw → word'.kind = .keyword .ifKw → Guarded ts test body mid →
      Alternatives mid branches otherwise rest →
      Alternatives (word :: word' :: ts)
        (.mk test body (word.span.merge word'.span) :: branches) otherwise rest

/-- `statement*` -/
inductive Statements : Bool → List Token → List Stmt → List Token → Prop where
  | none {top : Bool} {rest : List Token} : Statements top rest [] rest
  | more {top : Bool} {ts mid rest : List Token} {stmt : Stmt} {list : List Stmt} :
      Statement top ts stmt mid → Statements top mid list rest →
      Statements top ts (stmt :: list) rest

end

variable {top : Bool} {ts mid rest : List Token} {stmt : Stmt} {list : List Stmt} {test : Expr}
variable {body : Block} {branches : List Branch} {otherwise : Option Block}

/-! ## Statements without blocks -/

/-- The tokens that statements with blocks begin with. -/
def opensBlocks : Kind → Bool
  | .keyword .fnKw | .keyword .ifKw | .keyword .whileKw | .mark .leftBrace => true
  | _ => false

theorem blocks_eq_nil {t : Token} (h : Grammar.Statement top (t :: ts) stmt rest)
    (hk : opensBlocks t.kind = false) : stmt.blocks = [] := by
  cases h with
  | function hword | ifChain hword | whileLoop hword =>
    rw [hword] at hk
    cases hk
  | block hbraces =>
    obtain ⟨_, _, ⟨⟩, hbrace⟩ := hbraces.opens
    rw [beq_iff_eq.1 hbrace] at hk
    cases hk
  | _ => rfl

/-! ## Trees without error nodes -/

mutual

theorem Statement.grammar : ∀ {top : Bool} {ts rest : List Token} {stmt : Stmt},
    Statement top ts stmt rest → stmt.errorFree = true → Grammar.Statement top ts stmt rest
  | _, _, _, _, .simple h _, _ => h
  | _, _, _, _, .function hword hname hparams hreturns hbody, hfree =>
    .function hword hname hparams hreturns (hbody.grammar hfree)
  | _, _, _, _, .ifChain hword hguarded halternatives, hfree => by
    simp only [Stmt.errorFree, branchesErrorFree, Bool.and_eq_true] at hfree
    exact .ifChain hword (hguarded.grammar hfree.1.1)
      (halternatives.grammar hfree.1.2 hfree.2)
  | _, _, _, _, .whileLoop hword hguarded, hfree => .whileLoop hword (hguarded.grammar hfree)
  | _, _, _, _, .block hbody, hfree => .block (hbody.grammar hfree)
  | _, _, _, _, .error _ _ _, hfree => nomatch hfree
  | _, _, _, _, .stray _ _, hfree => nomatch hfree

theorem Braces.grammar : ∀ {ts rest : List Token} {body : Block},
    Braces ts body rest → body.errorFree = true → Grammar.Braces ts body rest
  | _, _, _, .mk hleft hlist hright, hfree => .mk hleft (hlist.grammar hfree) hright

theorem Guarded.grammar : ∀ {ts rest : List Token} {test : Expr} {body : Block},
    Guarded ts test body rest → body.errorFree = true → Grammar.Guarded ts test body rest
  | _, _, _, _, .mk hleft htest hright hbody, hfree =>
    .mk hleft htest hright (hbody.grammar hfree)

theorem Alternatives.grammar : ∀ {ts rest : List Token} {branches : List Branch}
    {otherwise : Option Block}, Alternatives ts branches otherwise rest →
    branchesErrorFree branches = true → otherwiseErrorFree otherwise = true →
    Grammar.Alternatives ts branches otherwise rest
  | _, _, _, _, .none, _, _ => .none
  | _, _, _, _, .last hword hbody, _, hfree => .last hword (hbody.grammar hfree)
  | _, _, _, _, .more hword hword' hguarded halternatives, hfree, hotherwise => by
    simp only [branchesErrorFree, Bool.and_eq_true] at hfree
    exact .more hword hword' (hguarded.grammar hfree.1)
      (halternatives.grammar hfree.2 hotherwise)

theorem Statements.grammar : ∀ {top : Bool} {ts rest : List Token} {list : List Stmt},
    Statements top ts list rest → allErrorFree list = true → Grammar.Statements top ts list rest
  | _, _, _, _, .none, _ => .none
  | _, _, _, _, .more hstmt hlist, hfree => by
    simp only [allErrorFree, Bool.and_eq_true] at hfree
    exact .more (hstmt.grammar hfree.1) (hlist.grammar hfree.2)

end

/-! ## Closing braces -/

/-- Inside of a block, no statement begins with the brace that closes it. -/
theorem Statement.notNext (h : Statement false ts stmt rest) :
    NotNext (.mark .rightBrace) ts := by
  generalize hinside : false = inside at h
  cases h with
  | simple h => exact h.opens.notNext rfl
  | function => cases hinside
  | ifChain hk | whileLoop hk => exact .cons (by simp [hk])
  | block hbody =>
    cases hbody with
    | mk hk => exact .cons (by simp [hk])
  | error hfirst => exact .cons hfirst
  | stray => cases hinside

/-- Inside of a block, no statements are read from a closing brace on. -/
theorem Statements.of_brace {brace : Token} {more : List Token}
    (h : Statements false (brace :: more) list rest) (hbrace : brace.kind = .mark .rightBrace) :
    list = [] ∧ rest = brace :: more := by
  cases h with
  | none => exact ⟨rfl, rfl⟩
  | more hstmt => exact absurd hbrace (hstmt.notNext brace more rfl)

end Recovered

end Slate
