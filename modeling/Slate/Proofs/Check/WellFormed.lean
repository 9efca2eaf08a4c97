-- SUMMARY: Well-formed statements and programs by rules, over an environment and the surroundings of a statement.
import Slate.Proofs.Paths.Recursion
import Slate.Proofs.Typing.Declarative

/-!
# Well-formed programs

A statement is well formed in its surroundings and an environment, and leaves an
environment to the statements behind it. The surroundings say whether a loop is
around it, and of what type the function around it is. The rules have no table, no state
and no order among their premises; blocks get a fresh frame, which is gone
behind them.
-/

namespace Slate

/-! ## Surroundings -/

/-- What is around a statement: whether there is a loop, and the return type of the
function if there is one. -/
@[ext]
structure Surroundings where
  inLoop : Bool
  returns : Option Ty
deriving DecidableEq, Repr

namespace Surroundings

/-- Outside of every loop and function. -/
def top : Surroundings := { inLoop := false, returns := none }

/-- Inside a loop. -/
def loop (p : Surroundings) : Surroundings := { p with inLoop := true }

/-- At the beginning of the body of a function. -/
def function (ty : Ty) : Surroundings := { inLoop := false, returns := some ty }

end Surroundings

/-! ## Functions -/

/-- The signature that the head of a function writes down; without a written return
type the function yields no value. -/
def Signature.written (params : List Param) (returns : Option Ty) : Signature :=
  { params := params.map Param.ty, returns := returns.getD .void }

/-- Binds parameters in the innermost frame. -/
def Env.bindParams (Γ : Env) (params : List Param) : Env :=
  params.foldl (fun Γ p => Γ.bind p.name (.variable p.ty)) Γ

/-- The environment around the body of a function, which may call the function
itself if the return type is written. -/
def Env.aroundBody (Γ : Env) (name : String) (params : List Param) (returns : Option Ty) : Env :=
  if returns.isSome then Γ.bind name (.function (.written params returns)) else Γ

/-! ## Rules -/

mutual

/-- The rules for statements. `Stmt.WellFormed p Γ stmt Γ'`: in the surroundings `p`
and the environment `Γ` the statement is well formed, and `Γ'` is the environment behind it. -/
inductive Stmt.WellFormed : Surroundings → Env → Stmt → Env → Prop where
  | needs {p : Surroundings} {Γ : Env} {module : String} {span : Span} :
      Stmt.WellFormed p Γ (.needs module span) Γ
  | declare {p : Surroundings} {Γ : Env} {name : String} {ty : Ty} {span : Span} :
      ty ≠ .void → Γ.lookup? name = none →
      Stmt.WellFormed p Γ (.declare name ty span) (Γ.bind name (.variable ty))
  | define {p : Surroundings} {Γ : Env} {name : String} {ty : Ty} {value : Expr} {span : Span} :
      ty ≠ .void → Γ.lookup? name = none → value.HasType Γ ty →
      Stmt.WellFormed p Γ (.define name (some ty) value span) (Γ.bind name (.variable ty))
  | infer {p : Surroundings} {Γ : Env} {name : String} {ty : Ty} {value : Expr} {span : Span} :
      ty ≠ .void → Γ.lookup? name = none → value.HasType Γ ty →
      Stmt.WellFormed p Γ (.define name none value span) (Γ.bind name (.variable ty))
  | assign {p : Surroundings} {Γ : Env} {name : String} {ty : Ty} {value : Expr} {span : Span} :
      Γ.lookup? name = some (.variable ty) → value.HasType Γ ty →
      Stmt.WellFormed p Γ (.assign name value span) Γ
  | expression {p : Surroundings} {Γ : Env} {ty : Ty} {value : Expr} {span : Span} :
      value.HasType Γ ty → Stmt.WellFormed p Γ (.expression value span) Γ
  | ret {p : Surroundings} {Γ : Env} {span : Span} :
      p.returns = some .void → Stmt.WellFormed p Γ (.ret none span) Γ
  | retValue {p : Surroundings} {Γ : Env} {ty : Ty} {value : Expr} {span : Span} :
      p.returns = some ty → ty ≠ .void → value.HasType Γ ty →
      Stmt.WellFormed p Γ (.ret (some value) span) Γ
  | breakLoop {p : Surroundings} {Γ : Env} {span : Span} :
      p.inLoop = true → Stmt.WellFormed p Γ (.breakLoop span) Γ
  | continueLoop {p : Surroundings} {Γ : Env} {span : Span} :
      p.inLoop = true → Stmt.WellFormed p Γ (.continueLoop span) Γ
  | block {p : Surroundings} {Γ : Env} {body : Block} :
      body.WellFormed p Γ → Stmt.WellFormed p Γ (.block body) Γ
  | whileLoop {p : Surroundings} {Γ : Env} {test : Expr} {body : Block} {span : Span} :
      test.HasType Γ .bool → body.WellFormed p.loop Γ →
      Stmt.WellFormed p Γ (.whileLoop test body span) Γ
  | ifChain {p : Surroundings} {Γ : Env} {branches : List Branch} {otherwise : Option Block}
      {span : Span} :
      (∀ branch ∈ branches, branch.condition.HasType Γ .bool) →
      (∀ branch ∈ branches, branch.body.WellFormed p Γ) →
      (∀ body, otherwise = some body → body.WellFormed p Γ) →
      Stmt.WellFormed p Γ (.ifChain branches otherwise span) Γ
  | function {p : Surroundings} {Γ Γ' : Env} {name : String} {params : List Param}
      {returns : Option Ty} {body : Block} {span : Span} :
      Builtin.isName name = false → Γ.lookup? name = none →
      (∀ param ∈ params, param.ty ≠ .void) → (params.map Param.name).Nodup →
      WellFormedAll (.function (returns.getD .void))
        ((Γ.aroundBody name params returns).enter.bindParams params) body.statements Γ' →
      (returns.getD .void ≠ .void → body.alwaysReturns = true) →
      Stmt.WellFormed p Γ (.function name params returns body span)
        (Γ.bind name (.function (.written params returns)))

/-- A block is well formed if its statements are, in a fresh frame. -/
inductive Block.WellFormed : Surroundings → Env → Block → Prop where
  | mk {p : Surroundings} {Γ Γ' : Env} {statements : List Stmt} {span : Span} :
      WellFormedAll p Γ.enter statements Γ' → Block.WellFormed p Γ (.mk statements span)

/-- Statements are well formed one behind the other. -/
inductive WellFormedAll : Surroundings → Env → List Stmt → Env → Prop where
  | nil {p : Surroundings} {Γ : Env} : WellFormedAll p Γ [] Γ
  | cons {p : Surroundings} {Γ Γ' Γ'' : Env} {stmt : Stmt} {statements : List Stmt} :
      stmt.WellFormed p Γ Γ' → WellFormedAll p Γ' statements Γ'' →
      WellFormedAll p Γ (stmt :: statements) Γ''

end

theorem wellFormedAll_nil {p : Surroundings} {Γ Γ' : Env} : WellFormedAll p Γ [] Γ' ↔ Γ' = Γ := by
  constructor
  · rintro ⟨⟩
    rfl
  · rintro rfl
    exact .nil

theorem wellFormedAll_cons {p : Surroundings} {Γ Γ'' : Env} {stmt : Stmt}
    {statements : List Stmt} :
    WellFormedAll p Γ (stmt :: statements) Γ'' ↔
      ∃ Γ', Stmt.WellFormed p Γ stmt Γ' ∧ WellFormedAll p Γ' statements Γ'' := by
  constructor
  · intro h
    cases h with
    | cons hstmt hrest => exact ⟨_, hstmt, hrest⟩
  · rintro ⟨Γ', hstmt, hrest⟩
    exact .cons hstmt hrest

/-! ## Programs -/

mutual

/-- Whether no function is defined in a statement. -/
def Stmt.functionFree : Stmt → Bool
  | .function .. => false
  | .block body => body.functionFree
  | .ifChain branches none _ => branchesFunctionFree branches
  | .ifChain branches (some otherwise) _ =>
    branchesFunctionFree branches && otherwise.functionFree
  | .whileLoop _ body _ => body.functionFree
  | _ => true

def Block.functionFree : Block → Bool
  | .mk statements _ => allFunctionFree statements

def allFunctionFree : List Stmt → Bool
  | [] => true
  | stmt :: statements => stmt.functionFree && allFunctionFree statements

def branchesFunctionFree : List Branch → Bool
  | [] => true
  | .mk _ body _ :: branches => body.functionFree && branchesFunctionFree branches

end

/-- Whether no function is defined in a statement, unless it is the statement itself. -/
def Stmt.functionsAtTop : Stmt → Bool
  | .function _ _ _ body _ => body.functionFree
  | stmt => stmt.functionFree

/-- Whether functions are defined only by the statements of the program themselves. -/
def Program.functionsAtTop (program : Program) : Bool :=
  program.statements.all Stmt.functionsAtTop

/-- A program is well formed if its statements are, over one empty frame. -/
def Program.WellFormed (program : Program) : Prop :=
  ∃ Γ, WellFormedAll .top [Frame.empty] program.statements Γ

end Slate
