-- SUMMARY: Resolution refuses an expression for the first identifier or call that makes no sense, and for nothing else.
import Slate.Proofs.Syntax.Parts
import Slate.Proofs.Typing.Declarative

/-!
# Resolution of names and calls

Resolution walks the parts of an expression in the order of their evaluation and stops at
the first identifier or call that makes no sense. `Expr.Offends` says which those are and
what is said about them. Nothing else is refused: an expression that has a type resolves,
and one that resolves without having a type contains an operator between operands that
have types, but not types that it takes.
-/

namespace Slate

variable {t : Table}

/-! ## Walks that stop at the first error -/

theorem forM_eq_ok {α ε : Type} {f : α → Except ε Unit} {xs : List α} :
    forM xs f = .ok () ↔ ∀ x ∈ xs, f x = .ok () := by
  induction xs with
  | nil => simp [pure, Except.pure]
  | cons x xs ih =>
    rw [List.forM_cons, List.forall_mem_cons, ← ih]
    cases hx : f x with
    | error d => simp [bind, Except.bind]
    | ok _ => simp [bind, Except.bind]

theorem forM_eq_error {α ε : Type} {f : α → Except ε Unit} {xs : List α} {d : ε} :
    forM xs f = .error d ↔
      ∃ before x after, xs = before ++ x :: after ∧ (∀ y ∈ before, f y = .ok ()) ∧
        f x = .error d := by
  induction xs with
  | nil => simp [pure, Except.pure]
  | cons x xs ih =>
    rw [List.forM_cons]
    cases hx : f x with
    | error d' =>
      constructor
      · intro h
        cases h
        exact ⟨[], x, xs, rfl, by simp, hx⟩
      · rintro ⟨before, y, after, hxs, hbefore, hy⟩
        -- nothing stands before the one that fails, since it would have failed earlier
        cases before with
        | nil =>
          cases hxs
          rw [← hx, hy]
          rfl
        | cons z before =>
          cases hxs
          simp [hx] at hbefore
    | ok _ =>
      refine ih.trans ⟨?_, ?_⟩
      · rintro ⟨before, y, after, rfl, hbefore, hy⟩
        exact ⟨x :: before, y, after, rfl, List.forall_mem_cons.2 ⟨hx, hbefore⟩, hy⟩
      · rintro ⟨before, y, after, hxs, hbefore, hy⟩
        cases before with
        | nil =>
          cases hxs
          rw [hx] at hy
          cases hy
        | cons z before =>
          cases hxs
          exact ⟨before, y, after, rfl, (List.forall_mem_cons.1 hbefore).2, hy⟩

/-! ## Resolution as a walk -/

/-- Resolves an identifier, or a call whose arguments are resolved. Any other expression
has nothing to resolve but its operands. -/
def Expr.resolveSelf (t : Table) : Expr → Except Diagnostic Unit
  | .ident name span => (Expr.ident name span).resolve t
  | .call callee arguments span => t.resolveCall callee arguments span
  | _ => pure ()

mutual

theorem Expr.resolve_eq_forM (t : Table) : (e : Expr) →
    e.resolve t = forM e.parts (Expr.resolveSelf t)
  | .literal .. => rfl
  | .ident name span => by simp [Expr.parts, Expr.resolveSelf]
  | .binary left op right span => by
    simp [Expr.parts, Expr.resolve, left.resolve_eq_forM, right.resolve_eq_forM, Expr.resolveSelf]
  | .unary op operand span => by
    simp [Expr.parts, Expr.resolve, operand.resolve_eq_forM, Expr.resolveSelf]
  | .call callee arguments span => by
    simp [Expr.parts, Expr.resolve, resolveAll_eq_forM, Expr.resolveSelf]

theorem resolveAll_eq_forM (t : Table) : (es : List Expr) →
    resolveAll t es = forM (argumentParts es) (Expr.resolveSelf t)
  | [] => rfl
  | e :: es => by simp [argumentParts, resolveAll, e.resolve_eq_forM, resolveAll_eq_forM]

end

/-! ## What resolves, and what is said about the rest -/

/-- Whether an identifier or a call makes sense, taken by itself: it stands for a variable,
or it yields a type. There is nothing to resolve in other expressions. -/
def Expr.Resolves (t : Table) : Expr → Prop
  | .ident name _ => ∃ v, t.lookup? name = some (.var v)
  | .call callee arguments _ => ∃ ty, t.callType? callee arguments = some ty
  | _ => True

/-- `e.Offends t d`: the identifier or call `e` makes no sense, which `d` reports. -/
inductive Expr.Offends (t : Table) : Expr → Diagnostic → Prop where
  | unknownIdentifier {name : String} {span : Span} : t.lookup? name = none →
      Expr.Offends t (.ident name span) (.spanned (.unknownIdentifier name) span)
  | functionAsValue {name : String} {span : Span} {symbol : Symbol} :
      t.lookup? name = some symbol → symbol.isFunction = true →
      Expr.Offends t (.ident name span) (.spanned (.functionAsValue name) span)
  | unknownFunction {callee : String} {arguments : List Expr} {span : Span} :
      t.signature? callee = none → t.lookup? callee = none →
      Expr.Offends t (.call callee arguments span) (.spanned (.unknownFunction callee) span)
  | notAFunction {callee : String} {arguments : List Expr} {span : Span} {symbol : Symbol} :
      t.signature? callee = none → t.lookup? callee = some symbol →
      Expr.Offends t (.call callee arguments span) (.spanned (.notAFunction callee) span)
  | wrongArity {callee : String} {arguments : List Expr} {span : Span} {signature : Signature} :
      t.signature? callee = some signature → signature.params.length ≠ arguments.length →
      Expr.Offends t (.call callee arguments span)
        (.spanned (.wrongArity callee signature.params.length arguments.length) span)
  /-- The arguments before this one fit; it is counted from one. -/
  | wrongArgument {callee : String} {arguments before after : List Expr} {argument : Expr}
      {span : Span} {signature : Signature} {types types' : List Ty} {ty : Ty} :
      t.signature? callee = some signature → signature.params.length = arguments.length →
      signature.params = types ++ ty :: types' → arguments = before ++ argument :: after →
      argumentsFit t types before = true → argument.fits t ty = false →
      Expr.Offends t (.call callee arguments span)
        (.spanned (.wrongArgument (1 + before.length) callee ty (argument.type? t)) argument.span)

/-- An operator whose operands have types that it does not take. -/
inductive Expr.Misapplied (t : Table) : Expr → Prop where
  | binary {left right : Expr} {op : BinaryOp} {span : Span} {a b : Ty} :
      left.type? t = some a → right.type? t = some b → (∀ c, a = b → ¬ op.Takes a c) →
      Expr.Misapplied t (.binary left op right span)
  | unary {op : UnaryOp} {operand : Expr} {span : Span} {a : Ty} :
      operand.type? t = some a → (∀ c, ¬ op.Takes a c) →
      Expr.Misapplied t (.unary op operand span)

/-! ## Calls -/

theorem argumentsFit_length : {types : List Ty} → {arguments : List Expr} →
    argumentsFit t types arguments = true → types.length = arguments.length
  | [], [], _ => rfl
  | _ :: _, _ :: _, h => by
    rw [argumentsFit, Bool.and_eq_true] at h
    rw [List.length_cons, List.length_cons, argumentsFit_length h.2]

/-- As many arguments as parameters are accepted if they fit. -/
theorem Table.resolveArguments_eq_ok (callee : String) :
    {types : List Ty} → {arguments : List Expr} → (position : Nat) →
      types.length = arguments.length →
      (t.resolveArguments callee position types arguments = .ok () ↔
        argumentsFit t types arguments = true)
  | [], [], _, _ => by simp [Table.resolveArguments, argumentsFit]
  | ty :: types, argument :: arguments, position, hlength => by
    have ih := Table.resolveArguments_eq_ok callee (position + 1) (Nat.succ.inj hlength)
    simp only [Table.resolveArguments, argumentsFit, Bool.and_eq_true]
    split
    · next hfit => simp [hfit, ih]
    · next hfit => simp [hfit]

/-- The first argument that does not fit is to blame, and it is told by its position. -/
theorem Table.resolveArguments_eq_error {callee : String} {d : Diagnostic} :
    {types : List Ty} → {arguments : List Expr} → (position : Nat) →
      (t.resolveArguments callee position types arguments = .error d ↔
        ∃ fitting ty types' before argument after, types = fitting ++ ty :: types' ∧
          arguments = before ++ argument :: after ∧ argumentsFit t fitting before = true ∧
          argument.fits t ty = false ∧
          d = .spanned (.wrongArgument (position + before.length) callee ty (argument.type? t))
            argument.span)
  | [], _, _ => by simp [Table.resolveArguments]
  | _ :: _, [], _ => by simp [Table.resolveArguments]
  | ty :: types, argument :: arguments, position => by
    rw [Table.resolveArguments]
    split
    · next hfit =>
      refine (Table.resolveArguments_eq_error (position + 1)).trans ⟨?_, ?_⟩
      · rintro ⟨fitting, ty', types', before, other, after, rfl, rfl, hbefore, hother, rfl⟩
        refine ⟨ty :: fitting, ty', types', argument :: before, other, after, rfl, rfl, ?_,
          hother, ?_⟩
        · rw [argumentsFit, hfit, hbefore, Bool.and_self]
        · rw [List.length_cons, Nat.add_right_comm, Nat.add_assoc]
      · rintro ⟨fitting, ty', types', before, other, after, htypes, hargs, hbefore, hother, rfl⟩
        -- this argument fits, so it is one of those before the one to blame
        cases fitting <;> cases before <;> cases htypes <;> cases hargs
        · rw [hfit] at hother
          cases hother
        · cases hbefore
        · cases hbefore
        · next fitting before =>
          rw [argumentsFit, hfit, Bool.true_and] at hbefore
          refine ⟨fitting, ty', types', before, other, after, rfl, rfl, hbefore, hother, ?_⟩
          rw [List.length_cons, Nat.add_right_comm, Nat.add_assoc]
    · next hfit =>
      constructor
      · intro h
        cases h
        exact ⟨[], ty, types, [], argument, arguments, rfl, rfl, rfl, by simpa using hfit, rfl⟩
      · rintro ⟨fitting, ty', types', before, other, after, htypes, hargs, hbefore, hother, rfl⟩
        cases fitting <;> cases before <;> cases htypes <;> cases hargs
        · rfl
        · cases hbefore
        · cases hbefore
        · rw [argumentsFit, Bool.and_eq_true] at hbefore
          exact absurd hbefore.1 hfit

/-- A call whose arguments are resolved is accepted if it yields a type. -/
theorem Table.resolveCall_eq_ok {callee : String} {arguments : List Expr} {span : Span} :
    t.resolveCall callee arguments span = .ok () ↔
      ∃ ty, t.callType? callee arguments = some ty := by
  simp only [Table.callType?_eq_some]
  rw [Table.resolveCall]
  cases hsignature : t.signature? callee with
  | none => cases hcallee : t.lookup? callee <;> simp
  | some signature =>
    by_cases hlength : signature.params.length = arguments.length
    · simp [hlength, Table.resolveArguments_eq_ok callee 1 hlength]
    · have hfit : argumentsFit t signature.params arguments ≠ true :=
        fun hfit => hlength (argumentsFit_length hfit)
      simp [hlength, hfit]

theorem Table.resolveCall_eq_error {callee : String} {arguments : List Expr} {span : Span}
    {d : Diagnostic} :
    t.resolveCall callee arguments span = .error d ↔
      (Expr.call callee arguments span).Offends t d := by
  rw [Table.resolveCall]
  constructor
  · intro h
    split at h
    · next hsignature =>
      cases hcallee : t.lookup? callee with
      | none =>
        simp [hcallee] at h
        subst h
        exact .unknownFunction hsignature hcallee
      | some symbol =>
        simp [hcallee] at h
        subst h
        exact .notAFunction hsignature hcallee
    · next signature hsignature =>
      split at h
      · next hlength =>
        cases h
        exact .wrongArity hsignature hlength
      · next hlength =>
        obtain ⟨fitting, ty, types', before, argument, after, hparams, rfl, hbefore, hfit, rfl⟩ :=
          (Table.resolveArguments_eq_error 1).1 h
        exact .wrongArgument hsignature (Decidable.not_not.1 hlength) hparams rfl hbefore hfit
  · intro h
    cases h with
    | unknownFunction hsignature hcallee => simp [hsignature, hcallee]
    | notAFunction hsignature hcallee => simp [hsignature, hcallee]
    | wrongArity hsignature hlength => simp [hsignature, hlength]
    | wrongArgument hsignature hlength hparams harguments hbefore hfit =>
      simp only [hsignature, hlength, ne_eq, not_true_eq_false, if_false]
      exact (Table.resolveArguments_eq_error 1).2
        ⟨_, _, _, _, _, _, hparams, harguments, hbefore, hfit, rfl⟩

namespace Expr

theorem resolveSelf_eq_ok : {e : Expr} → (e.resolveSelf t = .ok () ↔ e.Resolves t)
  | literal .. | binary .. | unary .. => by simp [resolveSelf, Resolves, pure, Except.pure]
  | call .. => Table.resolveCall_eq_ok
  | ident name span => by
    rw [resolveSelf, resolve, Resolves]
    cases t.lookup? name with
    | none => simp
    | some symbol => cases symbol <;> simp

theorem resolveSelf_eq_error {d : Diagnostic} :
    {e : Expr} → (e.resolveSelf t = .error d ↔ e.Offends t d)
  | literal .. | binary .. | unary .. => by
    constructor <;> rintro ⟨⟩
  | call .. => Table.resolveCall_eq_error
  | ident name span => by
    rw [resolveSelf, resolve]
    constructor
    · intro h
      split at h
      · cases h
      · next hname => cases h; exact .functionAsValue hname rfl
      · next hname => cases h; exact .unknownIdentifier hname
    · intro h
      cases h with
      | unknownIdentifier hname => rw [hname]
      | @functionAsValue _ _ symbol hname hfunction =>
        cases symbol with
        | var v => cases hfunction
        | function => rw [hname]

theorem Offends.not_resolves {e : Expr} {d : Diagnostic} (h : e.Offends t d) :
    ¬ e.Resolves t := by
  rw [← resolveSelf_eq_ok, resolveSelf_eq_error.2 h]
  exact nofun

/-- An expression resolves if its identifiers and calls do, taken one by one. -/
theorem resolve_eq_ok {e : Expr} : e.resolve t = .ok () ↔ ∀ part ∈ e.parts, part.Resolves t := by
  rw [e.resolve_eq_forM, forM_eq_ok]
  simp only [resolveSelf_eq_ok]

/-- What is reported is the first identifier or call that makes no sense. -/
theorem resolve_eq_error {e : Expr} {d : Diagnostic} :
    e.resolve t = .error d ↔
      ∃ before part after, e.parts = before ++ part :: after ∧
        (∀ earlier ∈ before, earlier.Resolves t) ∧ part.Offends t d := by
  rw [e.resolve_eq_forM, forM_eq_error]
  simp only [resolveSelf_eq_ok, resolveSelf_eq_error]

end Expr

/-! ## Types of the parts -/

theorem exists_type?_of_argumentsFit : {types : List Ty} → {arguments : List Expr} →
    argumentsFit t types arguments = true → ∀ e ∈ arguments, ∃ ty, e.type? t = some ty
  | [], [], _ => by simp
  | ty :: types, argument :: arguments, h => by
    rw [argumentsFit, Bool.and_eq_true, Expr.fits_iff_type?] at h
    exact List.forall_mem_cons.2 ⟨⟨ty, h.1.2⟩, exists_type?_of_argumentsFit h.2⟩

/-- In an expression that has a type, every part has one. -/
theorem Expr.type?_of_mem_parts (e : Expr) {ty : Ty} (h : e.type? t = some ty) :
    ∀ part ∈ e.parts, ∃ a, part.type? t = some a := by
  have inherited : Expr.Inherited fun part => ∃ a, part.type? t = some a := {
    left := by
      rintro left op right span ⟨a, ha⟩
      obtain ⟨b, hleft, -, -⟩ := Expr.type?_binary.1 ha
      exact ⟨b, hleft⟩
    right := by
      rintro left op right span ⟨a, ha⟩
      obtain ⟨b, -, hright, -⟩ := Expr.type?_binary.1 ha
      exact ⟨b, hright⟩
    operand := by
      rintro op operand span ⟨a, ha⟩
      obtain ⟨b, hoperand, -⟩ := Expr.type?_unary.1 ha
      exact ⟨b, hoperand⟩
    argument := by
      rintro callee arguments span ⟨a, ha⟩
      obtain ⟨signature, -, hfit, -⟩ := Table.callType?_eq_some.1 ha
      exact exists_type?_of_argumentsFit hfit }
  exact inherited.parts e ⟨ty, h⟩

namespace Expr

theorem resolves_of_type? {e : Expr} {ty : Ty} (h : e.type? t = some ty) : e.Resolves t := by
  cases e with
  | literal | binary | unary => trivial
  | call => exact ⟨ty, h⟩
  | ident name span =>
    obtain ⟨v, hv, -⟩ := type?_ident.1 h
    unfold Table.boundVariable? at hv
    split at hv
    · next hlookup => exact ⟨_, hlookup⟩
    · cases hv

/-- What has a type resolves. -/
theorem resolve_of_type? (e : Expr) {ty : Ty} (h : e.type? t = some ty) :
    e.resolve t = .ok () := by
  refine resolve_eq_ok.2 fun part hpart => ?_
  obtain ⟨a, ha⟩ := e.type?_of_mem_parts h part hpart
  exact resolves_of_type? ha

/-- What fits a type resolves. -/
theorem resolve_of_fits {e : Expr} {ty : Ty} (h : e.fits t ty = true) : e.resolve t = .ok () :=
  e.resolve_of_type? ((fits_iff_type? t e ty).1 h).2

theorem Misapplied.type?_eq_none {e : Expr} (h : e.Misapplied t) : e.type? t = none := by
  rw [Option.eq_none_iff_forall_ne_some]
  intro ty hty
  cases h with
  | binary hleft hright hop =>
    obtain ⟨c, hl, hr, hresult⟩ := type?_binary.1 hty
    cases hleft.symm.trans hl
    cases hright.symm.trans hr
    exact hop ty rfl (BinaryOp.result?_eq_some.1 hresult)
  | unary hoperand hop =>
    obtain ⟨c, ho, hresult⟩ := type?_unary.1 hty
    cases hoperand.symm.trans ho
    exact hop ty (UnaryOp.result?_eq_some.1 hresult)

/-- If all identifiers and calls make sense, only an operator can be the reason that there
is no type. -/
theorem exists_misapplied : (e : Expr) → (∀ part ∈ e.parts, part.Resolves t) →
    e.type? t = none → ∃ part ∈ e.parts, part.Misapplied t
  | literal .., _, h => by simp [type?] at h
  | ident name span, hresolves, h => by
    obtain ⟨v, hv⟩ := hresolves _ (self_mem_parts _)
    simp [type?, Table.boundVariable?, hv] at h
  | call callee arguments span, hresolves, h => by
    obtain ⟨ty, hty⟩ := hresolves _ (self_mem_parts _)
    cases h.symm.trans hty
  | unary op operand span, hresolves, h => by
    cases hoperand : operand.type? t with
    | none =>
      obtain ⟨part, hpart, hmisapplied⟩ := operand.exists_misapplied
        (fun part hpart => hresolves part (by simp [parts, hpart])) hoperand
      exact ⟨part, by simp [parts, hpart], hmisapplied⟩
    | some a =>
      refine ⟨_, self_mem_parts _, .unary hoperand fun c hop => ?_⟩
      cases h.symm.trans (type?_unary.2 ⟨a, hoperand, UnaryOp.result?_eq_some.2 hop⟩)
  | binary left op right span, hresolves, h => by
    cases hleft : left.type? t with
    | none =>
      obtain ⟨part, hpart, hmisapplied⟩ := left.exists_misapplied
        (fun part hpart => hresolves part (by simp [parts, hpart])) hleft
      exact ⟨part, by simp [parts, hpart], hmisapplied⟩
    | some a =>
      cases hright : right.type? t with
      | none =>
        obtain ⟨part, hpart, hmisapplied⟩ := right.exists_misapplied
          (fun part hpart => hresolves part (by simp [parts, hpart])) hright
        exact ⟨part, by simp [parts, hpart], hmisapplied⟩
      | some b =>
        refine ⟨_, self_mem_parts _, .binary hleft hright ?_⟩
        rintro c rfl hop
        cases h.symm.trans (type?_binary.2 ⟨a, hleft, hright, BinaryOp.result?_eq_some.2 hop⟩)

end Expr

/-- Resolution separates faults of names and calls from faults of operators. It accepts an
expression exactly if all identifiers and calls in it make sense, and all that have a type
are among these; one that it accepts lacks a type only where an operator is misapplied; and
one that it refuses is refused for the first identifier or call that makes no sense. -/
theorem resolution_separates_faults (t : Table) (e : Expr) :
    (e.resolve t = .ok () ↔ ∀ part ∈ e.parts, part.Resolves t) ∧
    (∀ ty, e.type? t = some ty → e.resolve t = .ok ()) ∧
    (e.resolve t = .ok () →
      (e.type? t = none ↔ ∃ part ∈ e.parts, part.Misapplied t)) ∧
    (∀ d, e.resolve t = .error d ↔
      ∃ before part after, e.parts = before ++ part :: after ∧
        (∀ earlier ∈ before, earlier.Resolves t) ∧ ¬ part.Resolves t ∧ part.Offends t d) := by
  refine ⟨Expr.resolve_eq_ok, fun ty => e.resolve_of_type?, fun hresolve => ⟨?_, ?_⟩, fun d => ?_⟩
  · exact e.exists_misapplied (Expr.resolve_eq_ok.1 hresolve)
  · rintro ⟨part, hpart, hmisapplied⟩
    -- if the whole had a type, the misapplied operator would have one too
    rw [Option.eq_none_iff_forall_ne_some]
    intro ty hty
    obtain ⟨a, ha⟩ := e.type?_of_mem_parts hty part hpart
    cases hmisapplied.type?_eq_none.symm.trans ha
  · rw [Expr.resolve_eq_error]
    have hoffends : ∀ part : Expr, part.Offends t d ↔ ¬ part.Resolves t ∧ part.Offends t d :=
      fun part => ⟨fun h => ⟨h.not_resolves, h⟩, And.right⟩
    simp only [← hoffends]

/-- A call to a function that does not exist, with an argument that does not exist either, and
behind it another name that means nothing. -/
def unknownAll (span : Span) : Expr :=
  .binary (.call "gone" [.ident "absent" span] span) .add (.ident "later" span) span

/-- A sum of a known call and of a sum of a number and a truth value. -/
def mixedSum (span : Span) : Expr :=
  .binary (.call "getInt" [] span) .add
    (.binary (.literal (.int 1) span) .add (.literal (.bool true) span) span) span

theorem resolution_separates_faults_mixed :
    (Expr.call "getInt" [] default).type? .empty = some .int ∧
      (Expr.call "getInt" [] default).resolve .empty = .ok () ∧
      (mixedSum default).resolve .empty = .ok () ∧ (mixedSum default).type? .empty = none ∧
      (∃ part ∈ (mixedSum default).parts, part.Misapplied .empty) ∧
      (unknownAll default).resolve .empty =
        .error (.spanned (.unknownIdentifier "absent") default) ∧
      ∃ before part after, (unknownAll default).parts = before ++ part :: after ∧
        (∀ earlier ∈ before, earlier.Resolves .empty) ∧ ¬ part.Resolves .empty ∧
        part.Offends .empty (.spanned (.unknownIdentifier "absent") default) := by
  have hcall : (Expr.call "getInt" [] default).type? .empty = some .int := by decide +kernel
  have hresolve : (mixedSum default).resolve .empty = .ok () := by rfl
  have htype : (mixedSum default).type? .empty = none := by decide +kernel
  have hname : Table.empty.lookup? "absent" = none := by
    rw [Table.lookup?_eq, Table.visible_empty]
    rfl
  have herror : (unknownAll default).resolve .empty =
      .error (.spanned (.unknownIdentifier "absent") default) := by
    simp only [unknownAll, Expr.resolve, resolveAll, hname]
    rfl
  exact ⟨hcall, (resolution_separates_faults _ _).2.1 _ hcall, hresolve, htype,
    ((resolution_separates_faults _ _).2.2.1 hresolve).1 htype, herror,
    ((resolution_separates_faults _ _).2.2.2 _).1 herror⟩

end Slate
