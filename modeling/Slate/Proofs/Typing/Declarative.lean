-- SUMMARY: The typing rules of expressions over a stack of frames, and inference over a symbol table as their decision procedure.
import Slate.Proofs.Scope.Coherent
import Slate.Proofs.Typing.Agreement
import Slate.Typing.Resolution

/-!
# Typing rules

An environment is a stack of frames, each a map from names to what they stand
for. Over it the types of expressions are given by rules, without a table, values
or an order of evaluation. Every table shows such an environment, and over that
environment an expression has by the rules the types that `Expr.type?` infers. An
expression that has a type also resolves, so resolution refuses nothing that the
rules allow.
-/

namespace Slate

/-! ## Environments -/

/-- What a name stands for, as far as types go. -/
inductive Entity where
  | variable (ty : Ty)
  | function (signature : Signature)
deriving DecidableEq, Repr

/-- A map from names to what they stand for. -/
abbrev Frame := String → Option Entity

namespace Frame

def empty : Frame := fun _ => none

def bind (f : Frame) (name : String) (entity : Entity) : Frame :=
  fun other => if other = name then some entity else f other

theorem bind_eq_none {f : Frame} {name other : String} {entity : Entity} :
    f.bind name entity other = none ↔ other ≠ name ∧ f other = none := by
  by_cases h : other = name <;> simp [bind, h]

end Frame

/-- A stack of frames, innermost first. -/
abbrev Env := List Frame

namespace Env

/-- What a name stands for: the innermost frame that binds it decides. -/
def lookup? (Γ : Env) (name : String) : Option Entity := List.findSome? (fun f => f name) Γ

/-- Opens an empty frame. -/
def enter (Γ : Env) : Env := Frame.empty :: Γ

/-- Binds a name in the innermost frame. -/
def bind : Env → String → Entity → Env
  | [], _, _ => []
  | f :: fs, name, entity => f.bind name entity :: fs

/-- The signature of the function that a name stands for. Built-in functions come
first. -/
def callee? (Γ : Env) (name : String) : Option Signature :=
  match Builtin.signature? name, Γ.lookup? name with
  | some signature, _ => some signature
  | none, some (.function signature) => some signature
  | none, _ => none

end Env

/-! ## Rules -/

/-- `op.Takes a b`: between two operands of type `a` the operator yields a `b`. -/
inductive BinaryOp.Takes : BinaryOp → Ty → Ty → Prop where
  | arithmetic {op : BinaryOp} : op.isArithmetic = true → Takes op .int .int
  | append : Takes .add .string .string
  | ordering {op : BinaryOp} : op.isOrdering = true → Takes op .int .bool
  | equality {op : BinaryOp} {ty : Ty} : op.isEquality = true → ty ≠ .void → Takes op ty .bool
  | logical {op : BinaryOp} : op.isLogical = true → Takes op .bool .bool

/-- `op.Takes a b`: before an operand of type `a` the operator yields a `b`. -/
inductive UnaryOp.Takes : UnaryOp → Ty → Ty → Prop where
  | negate : Takes .negate .int .int
  | not : Takes .not .bool .bool

mutual

/-- The typing rules of expressions. -/
inductive Expr.HasType (Γ : Env) : Expr → Ty → Prop where
  | literal {value : Value} {span : Span} : Expr.HasType Γ (.literal value span) value.ty
  | ident {name : String} {span : Span} {ty : Ty} :
      Γ.lookup? name = some (.variable ty) → Expr.HasType Γ (.ident name span) ty
  | binary {left right : Expr} {op : BinaryOp} {span : Span} {a b : Ty} :
      left.HasType Γ a → right.HasType Γ a → op.Takes a b →
      Expr.HasType Γ (.binary left op right span) b
  | unary {operand : Expr} {op : UnaryOp} {span : Span} {a b : Ty} :
      operand.HasType Γ a → op.Takes a b → Expr.HasType Γ (.unary op operand span) b
  | call {callee : String} {arguments : List Expr} {span : Span} {signature : Signature} :
      Γ.callee? callee = some signature → HaveTypes Γ arguments signature.params →
      Expr.HasType Γ (.call callee arguments span) signature.returns

/-- Expressions have types one by one, as many of them as there are types. -/
inductive HaveTypes (Γ : Env) : List Expr → List Ty → Prop where
  | nil : HaveTypes Γ [] []
  | cons {e : Expr} {ty : Ty} {es : List Expr} {types : List Ty} :
      e.HasType Γ ty → HaveTypes Γ es types → HaveTypes Γ (e :: es) (ty :: types)

end

theorem BinaryOp.result?_eq_some {op : BinaryOp} {a b : Ty} :
    op.result? a = some b ↔ op.Takes a b := by
  constructor
  · intro h
    cases op <;> cases a <;> cases h <;>
      first
        | exact .arithmetic rfl
        | exact .append
        | exact .ordering rfl
        | exact .equality rfl (by decide)
        | exact .logical rfl
  · rintro (hop | _ | hop | ⟨hop, hty⟩ | hop)
    · simp [BinaryOp.result?, hop]
    · rfl
    · cases op <;> cases hop <;> rfl
    · cases op <;> cases hop <;> cases a <;> first | rfl | exact absurd rfl hty
    · simp [BinaryOp.result?, hop]

theorem UnaryOp.result?_eq_some {op : UnaryOp} {a b : Ty} :
    op.result? a = some b ↔ op.Takes a b := by
  constructor
  · intro h
    cases op <;> cases a <;> cases h
    · exact .negate
    · exact .not
  · rintro (_ | _) <;> rfl

/-! ## The environment that a table shows -/

/-- What a symbol says about its name. -/
def Symbol.entity : Symbol → Entity
  | .var v => .variable v.value.ty
  | .function _ _ params returns =>
    .function { params := params.filterMap Symbol.valueType?, returns }

/-- The frame that a scope stands for. -/
def Scope.frame (s : Scope) : Frame := fun name => (s.get? name).map Symbol.entity

/-- The environment that a table shows. -/
def Table.env (t : Table) : Env := t.visible.map Scope.frame

theorem Table.lookup?_env (t : Table) (name : String) :
    t.env.lookup? name = (t.lookup? name).map Symbol.entity := by
  rw [Table.lookup?_eq, Table.env, Env.lookup?]
  induction t.visible with
  | nil => rfl
  | cons scope outer ih =>
    rw [List.map_cons, List.findSome?_cons, List.findSome?_cons, ih, Scope.frame]
    cases scope.get? name <;> rfl

theorem Table.boundVariable?_env {t : Table} {name : String} {ty : Ty} :
    (∃ v, t.boundVariable? name = some v ∧ v.value.ty = ty) ↔
      t.env.lookup? name = some (.variable ty) := by
  rw [Table.lookup?_env, Table.boundVariable?]
  cases t.lookup? name with
  | none => simp
  | some symbol => cases symbol <;> simp [Symbol.entity]

theorem Table.callee?_env (t : Table) (name : String) :
    t.env.callee? name = t.signature? name := by
  rw [Env.callee?, Table.signature?, Table.lookup?_env]
  cases Builtin.signature? name with
  | some signature => rfl
  | none =>
    cases t.lookup? name with
    | none => rfl
    | some symbol => cases symbol <;> rfl

/-! ## Inference decides the rules -/

mutual

/-- Over a table, inference finds the type that the rules give. -/
theorem Expr.type?_iff_hasType (t : Table) : (e : Expr) → (ty : Ty) →
    (e.type? t = some ty ↔ e.HasType t.env ty)
  | .literal value _, ty => by
    rw [Expr.type?, Option.some.injEq]
    constructor
    · rintro rfl
      exact .literal
    · rintro ⟨⟩
      rfl
  | .ident name _, ty => by
    rw [Expr.type?_ident, Table.boundVariable?_env]
    constructor
    · exact .ident
    · intro h
      cases h with
      | ident hlookup => exact hlookup
  | .binary left op right _, ty => by
    rw [Expr.type?_binary]
    constructor
    · rintro ⟨a, hl, hr, hop⟩
      exact .binary ((left.type?_iff_hasType t a).1 hl) ((right.type?_iff_hasType t a).1 hr)
        (BinaryOp.result?_eq_some.1 hop)
    · intro h
      cases h with
      | binary hl hr hop =>
        exact ⟨_, (left.type?_iff_hasType t _).2 hl, (right.type?_iff_hasType t _).2 hr,
          BinaryOp.result?_eq_some.2 hop⟩
  | .unary op operand _, ty => by
    rw [Expr.type?_unary]
    constructor
    · rintro ⟨a, ha, hop⟩
      exact .unary ((operand.type?_iff_hasType t a).1 ha) (UnaryOp.result?_eq_some.1 hop)
    · intro h
      cases h with
      | unary ha hop =>
        exact ⟨_, (operand.type?_iff_hasType t _).2 ha, UnaryOp.result?_eq_some.2 hop⟩
  | .call callee arguments _, ty => by
    rw [Expr.type?, Table.callType?_eq_some]
    constructor
    · rintro ⟨signature, hcallee, hfit, rfl⟩
      -- fitting is having the type only because no parameter is void
      have hvoid := Table.params_ne_void hcallee
      have harguments := (argumentsFit_iff_haveTypes t _ arguments hvoid).1 hfit
      exact .call ((Table.callee?_env t callee).trans hcallee) harguments
    · intro h
      cases h with
      | call hcallee harguments =>
        rw [Table.callee?_env] at hcallee
        have hvoid := Table.params_ne_void hcallee
        have hfit := (argumentsFit_iff_haveTypes t _ arguments hvoid).2 harguments
        exact ⟨_, hcallee, hfit, rfl⟩

/-- Over a table, arguments fit types that are not `void` if they have them. -/
theorem argumentsFit_iff_haveTypes (t : Table) : (types : List Ty) → (arguments : List Expr) →
    (∀ ty ∈ types, ty ≠ .void) →
    (argumentsFit t types arguments = true ↔ HaveTypes t.env arguments types)
  | [], [], _ => ⟨fun _ => .nil, fun _ => rfl⟩
  | [], _ :: _, _ => by
    constructor
    · intro h
      cases h
    · rintro ⟨⟩
  | _ :: _, [], _ => by
    constructor
    · intro h
      cases h
    · rintro ⟨⟩
  | ty :: types, argument :: arguments, hvoid => by
    obtain ⟨hty, htypes⟩ := List.forall_mem_cons.1 hvoid
    rw [argumentsFit, Bool.and_eq_true, Expr.fits_iff_type?,
      argumentsFit_iff_haveTypes t types arguments htypes, argument.type?_iff_hasType t ty]
    constructor
    · rintro ⟨⟨-, hargument⟩, harguments⟩
      exact .cons hargument harguments
    · intro h
      cases h with
      | cons hargument harguments =>
        exact ⟨⟨hty, hargument⟩, harguments⟩

end

/-! ## The environment after each operation on a table -/

namespace Table

variable {t t' : Table} {symbol : Symbol}

theorem env_empty : Table.empty.env = [Frame.empty] := by
  rw [env, visible_empty]
  rfl

theorem Coherent.env_enter (h : t.Coherent) (block : Option Location) :
    (t.enter block).env = t.env.enter := by
  rw [env, h.visible_enter]
  rfl

theorem Coherent.env_exit (h : t.Coherent) (hexit : t.exit = .ok t') : t'.env = t.env.tail := by
  rw [env, env, h.visible_exit hexit, List.map_tail]

/-- The innermost frame can be left if there is another one around it. -/
theorem Coherent.exists_exit_env (h : t.Coherent) (houter : t.env.tail ≠ []) :
    ∃ outer, t.exit = .ok outer := by
  apply h.exists_exit
  intro htail
  rw [env, ← List.map_tail, htail] at houter
  exact houter rfl

theorem Coherent.env_define (h : t.Coherent) (hdefine : t.define symbol = .ok t') :
    t'.env = t.env.bind symbol.name symbol.entity := by
  obtain ⟨scope, outer, hvisible, hscope, hvisible'⟩ := h.visible_define hdefine
  rw [env, env, hvisible, hvisible', List.map_cons, List.map_cons, Env.bind]
  congr 1
  funext name
  rw [Scope.frame, hscope.get?_push, Frame.bind]
  split <;> rfl

theorem Coherent.exists_env (h : t.Coherent) : ∃ f Γ, t.env = f :: Γ := by
  obtain ⟨scope, -, -, hvisible⟩ := h.exists_visible
  rcases hvisible with ⟨-, hvisible⟩ | ⟨p, -, -, hvisible⟩ <;>
    exact ⟨_, _, congrArg (List.map Scope.frame) hvisible⟩

/-- A name can be bound if the innermost frame does not bind it. -/
theorem Coherent.exists_define_env {f : Frame} {Γ : Env} (h : t.Coherent) (henv : t.env = f :: Γ) :
    (∃ t', t.define symbol = .ok t') ↔ f symbol.name = none := by
  rw [h.exists_define_iff]
  unfold Table.env at henv
  cases hvisible : t.visible with
  | nil =>
    rw [hvisible] at henv
    cases henv
  | cons scope outer =>
    rw [hvisible] at henv
    cases henv
    simp [Scope.frame]

/-- A name that no frame binds can be bound. -/
theorem Coherent.exists_define_of_fresh (h : t.Coherent)
    (hfresh : t.env.lookup? symbol.name = none) : ∃ t', t.define symbol = .ok t' := by
  obtain ⟨f, Γ, henv⟩ := h.exists_env
  rw [h.exists_define_env henv]
  rw [henv, Env.lookup?, List.findSome?_cons] at hfresh
  cases hf : f symbol.name with
  | none => rfl
  | some entity => simp [hf] at hfresh

end Table

end Slate
