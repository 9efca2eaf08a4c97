-- SUMMARY: The printed form of a symbol table tells what the table holds, whatever strings its variables store.
import Slate.Proofs.Scope.Handles
import Slate.Proofs.Text.Delimited
import Slate.Proofs.Token.Pattern

/-!
# Printed tables

A table is printed a line for each scope and each symbol. If the names in it are names of
the language, no line goes on to the next, whatever strings are stored: a heading begins with
a letter and the line of a symbol with a blank, so the lines of a scope are told from
those of the next. In a line, each part shows where it ends. So two tables that are
printed alike hold the same, up to what is not printed: the columns and offsets of symbols,
where a declaration ends, and what a parameter is beyond its name and type.
-/

namespace Slate

open Lexer (isWordPart)

/-! ## What is printed -/

/-- A name that the language can spell. -/
def IsName (name : String) : Prop := name.toList ∈ Kind.identifier.pattern

/-- A symbol and its parameters have names of the language. -/
def Symbol.Named : Symbol → Prop
  | var v => IsName v.name
  | function name _ params _ => IsName name ∧ ∀ p ∈ params, IsName p.name

/-- Name and type of a parameter. -/
def Symbol.param (s : Symbol) : String × Option Ty := (s.name, s.valueType?)

/-- Two symbols are of one kind, with the same name and all that is printed of this kind. -/
inductive Symbol.Alike : Symbol → Symbol → Prop where
  | var {name : String} {span span' : Span} {value : Value} {known initialized : Bool} :
      Alike (.var ⟨name, span, value, known, initialized⟩)
        (.var ⟨name, span', value, known, initialized⟩)
  | function {name : String} {span span' : Span} {params params' : List Symbol} {returns : Ty} :
      params.map param = params'.map param →
      Alike (.function name span params returns) (.function name span' params' returns)

/-- Line and column of a location. -/
def Location.place (l : Location) : Nat × Nat := (l.line, l.column)

/-- Two scopes have the same number, stand in the same scope, begin at the same place, and
have symbols that are alike and declared on the same lines. -/
structure Scope.Alike (s s' : Scope) : Prop where
  id : s.id = s'.id
  parent : s.parent = s'.parent
  block : s.block.map Location.place = s'.block.map Location.place
  symbols : List.Forall₂ (fun a b => a.line = b.line ∧ a.Alike b) s.symbols s'.symbols

variable {rest rest' : List Char}

/-! ## Words -/

/-- A text of letters, digits and underscores. -/
def IsWord (text : String) : Prop := ∀ c ∈ text.toList, isWordPart c = true

theorem IsName.isWord {name : String} (h : IsName name) : IsWord name := by
  obtain ⟨c, v, hc, hv, hname⟩ := Lexer.mem_run.1 h
  intro d hd
  rw [hname] at hd
  refine Lexer.isWordPart_iff.2 ?_
  obtain rfl | hd := List.mem_cons.1 hd
  · exact hc.imp_right .inr
  · exact hv d hd

theorem isWord_of_all {text : String} (h : text.toList.all isWordPart = true) : IsWord text :=
  List.all_eq_true.1 h

theorem Ty.isWord_text (ty : Ty) : IsWord ty.text := isWord_of_all (by cases ty <;> decide)

theorem isWord_boolText (b : Bool) : IsWord (boolText b) := isWord_of_all (by cases b <;> decide)

theorem IsWord.append_inj {text text' : String} (h : IsWord text) (h' : IsWord text')
    (hrest : ∀ c ∈ rest.head?, ¬ isWordPart c = true)
    (hrest' : ∀ c ∈ rest'.head?, ¬ isWordPart c = true)
    (heq : text.toList ++ rest = text'.toList ++ rest') : text = text' ∧ rest = rest' := by
  obtain ⟨htext, hr⟩ := run_append_inj h h' hrest hrest' heq
  exact ⟨String.toList_inj.1 htext, hr⟩

/-- A word that a sign of no word ends. -/
theorem IsWord.cons_inj {text text' : String} {c c' : Char} (h : IsWord text) (h' : IsWord text')
    (hc : isWordPart c = false) (hc' : isWordPart c' = false)
    (heq : text.toList ++ c :: rest = text'.toList ++ c' :: rest') :
    text = text' ∧ c = c' ∧ rest = rest' := by
  obtain ⟨htext, hr⟩ := h.append_inj h' (by simp [hc]) (by simp [hc']) heq
  exact ⟨htext, List.cons.inj hr⟩

theorem Ty.text_injective {ty ty' : Ty} (h : ty.text = ty'.text) : ty = ty' := by
  cases ty <;> cases ty' <;> first | rfl | exact absurd h (by decide)

theorem boolText_injective {b b' : Bool} (h : boolText b = boolText b') : b = b' := by
  cases b <;> cases b' <;> first | rfl | exact absurd h (by decide)

/-! ## Variables -/

/-- Of two values of one type, printed before a blank. -/
theorem Value.text_append_inj {v v' : Value} (hty : v.ty = v'.ty)
    (h : v.text.toList ++ ' ' :: rest = v'.text.toList ++ ' ' :: rest') :
    v = v' ∧ rest = rest' := by
  cases v <;> cases v' <;> simp only [ty, reduceCtorEq] at hty
  case int.int n n' =>
    obtain ⟨rfl, hrest⟩ := wordText_append_inj (by simp [Signed]) (by simp [Signed]) h
    exact ⟨rfl, (List.cons.inj hrest).2⟩
  case string.string s s' =>
    obtain ⟨rfl, hrest⟩ := Text.quote_append_inj h
    exact ⟨rfl, (List.cons.inj hrest).2⟩
  case bool.bool b b' =>
    obtain ⟨hb, -, hrest⟩ :=
      (isWord_boolText b).cons_inj (isWord_boolText b') (by decide) (by decide) h
    exact ⟨congrArg bool (boolText_injective hb), hrest⟩

/-- The words for what is known of a variable, by the two flags. -/
def flagWords (known initialized : Bool) : String :=
  (Variable.mk "" default default known initialized).flags

theorem bracket_not_mem_flagWords :
    ∀ known initialized, ']' ∉ (flagWords known initialized).toList := by decide

theorem flagWords_inj : ∀ known initialized known' initialized',
    flagWords known initialized = flagWords known' initialized' →
      known = known' ∧ initialized = initialized' := by decide

theorem Variable.flags_append_inj {v v' : Variable}
    (h : v.flags.toList ++ ']' :: rest = v'.flags.toList ++ ']' :: rest') :
    (v.known = v'.known ∧ v.initialized = v'.initialized) ∧ rest = rest' := by
  have hbracket (v : Variable) : ∀ c ∈ v.flags.toList, c ≠ ']' := fun c hc heq =>
    bracket_not_mem_flagWords v.known v.initialized (heq ▸ hc)
  obtain ⟨hflags, hrest⟩ := run_append_inj (hbracket v) (hbracket v') (by simp) (by simp) h
  exact ⟨flagWords_inj _ _ _ _ (String.toList_inj.1 hflags), (List.cons.inj hrest).2⟩

theorem Symbol.toList_text_var (v : Variable) :
    (var v).text.toList = v.value.ty.text.toList ++ ' ' :: (v.name.toList ++ ' ' :: ('=' :: ' ' ::
      (v.value.text.toList ++ ' ' :: ('[' :: (v.flags.toList ++ [']']))))) := by
  change v.text.toList = _
  unfold Variable.text
  simp only [toString, String.toList_append, List.append_assoc]
  rfl

/-! ## Functions -/

theorem toList_intercalate_cons (separator text : String) (texts : List String) :
    (separator.intercalate (text :: texts)).toList =
      text.toList ++ texts.flatMap (fun t => separator.toList ++ t.toList) := by
  induction texts generalizing text with
  | nil => simp
  | cons next texts ih =>
    have hnext := ih next
    rw [String.toList_intercalate, List.map_cons] at hnext ⊢
    rw [List.map_cons, List.intercalate_cons_cons, hnext, List.flatMap_cons, List.append_assoc,
      List.append_assoc]

theorem Symbol.toList_paramText (s : Symbol) :
    s.paramText.toList =
      s.name.toList ++ ':' :: (' ' :: ((s.valueType?.map Ty.text).getD "?").toList) := by
  unfold paramText
  simp only [String.toList_append, List.append_assoc]
  rfl

/-- The characters of the type of a parameter. -/
def IsTypeChar (c : Char) : Prop := isWordPart c = true ∨ c = '?'

theorem isTypeChar_of_mem {ty? : Option Ty} {c : Char}
    (h : c ∈ ((ty?.map Ty.text).getD "?").toList) : IsTypeChar c := by
  cases ty? with
  | none => exact .inr (List.mem_singleton.1 h)
  | some ty => exact .inl (ty.isWord_text c h)

theorem typeText_injective {ty? ty?' : Option Ty}
    (h : (ty?.map Ty.text).getD "?" = (ty?'.map Ty.text).getD "?") : ty? = ty?' := by
  have hmark : ∀ ty : Ty, ty.text ≠ "?" := by rintro (_ | _ | _ | _) <;> decide
  cases ty? <;> cases ty?'
  case none.none => rfl
  case none.some ty => exact absurd h.symm (hmark ty)
  case some.none ty => exact absurd h (hmark ty)
  case some.some ty ty' => exact congrArg some (Ty.text_injective h)

theorem Symbol.paramText_append_inj {p p' : Symbol} (hname : IsName p.name)
    (hname' : IsName p'.name) (hrest : ∀ c ∈ rest.head?, ¬ IsTypeChar c)
    (hrest' : ∀ c ∈ rest'.head?, ¬ IsTypeChar c)
    (h : p.paramText.toList ++ rest = p'.paramText.toList ++ rest') :
    p.param = p'.param ∧ rest = rest' := by
  simp only [toList_paramText, List.append_assoc, List.cons_append] at h
  obtain ⟨hnames, -, h⟩ := hname.isWord.cons_inj hname'.isWord (by decide) (by decide) h
  obtain ⟨htypes, hr⟩ := run_append_inj (fun _ => isTypeChar_of_mem) (fun _ => isTypeChar_of_mem)
    hrest hrest' (List.cons.inj h).2
  exact ⟨Prod.ext hnames (typeText_injective (String.toList_inj.1 htypes)), hr⟩

/-- The parameters behind the first one. -/
def moreParams (ps : List Symbol) : List Char :=
  (ps.map Symbol.paramText).flatMap fun text => ", ".toList ++ text.toList

theorem moreParams_cons (p : Symbol) (ps : List Symbol) :
    moreParams (p :: ps) = ',' :: (' ' :: (p.paramText.toList ++ moreParams ps)) := rfl

theorem not_isTypeChar_behind (ps : List Symbol) :
    ∀ c ∈ (moreParams ps ++ ')' :: rest).head?, ¬ IsTypeChar c := by
  have hcomma : ¬ IsTypeChar ',' := by unfold IsTypeChar; decide
  have hparen : ¬ IsTypeChar ')' := by unfold IsTypeChar; decide
  rintro c hc
  cases ps with
  | nil => exact Option.some.inj hc ▸ hparen
  | cons p ps => exact Option.some.inj hc ▸ hcomma

theorem moreParams_append_inj {ps ps' : List Symbol} (hnames : ∀ p ∈ ps, IsName p.name)
    (hnames' : ∀ p ∈ ps', IsName p.name)
    (h : moreParams ps ++ ')' :: rest = moreParams ps' ++ ')' :: rest') :
    ps.map Symbol.param = ps'.map Symbol.param ∧ rest = rest' := by
  induction ps generalizing ps' with
  | nil =>
    cases ps' with
    | nil => exact ⟨rfl, (List.cons.inj h).2⟩
    | cons p' ps' => exact absurd (List.cons.inj h).1 (by decide)
  | cons p ps ih =>
    cases ps' with
    | nil => exact absurd (List.cons.inj h).1 (by decide)
    | cons p' ps' =>
      rw [List.forall_mem_cons] at hnames hnames'
      simp only [moreParams_cons, List.cons_append, List.append_assoc, List.cons.injEq,
        true_and] at h
      obtain ⟨hparam, htail⟩ := Symbol.paramText_append_inj hnames.1 hnames'.1
        (not_isTypeChar_behind ps) (not_isTypeChar_behind ps') h
      obtain ⟨hparams, hrest⟩ := ih hnames.2 hnames'.2 htail
      exact ⟨by rw [List.map_cons, List.map_cons, hparam, hparams], hrest⟩

/-- The parameters of a function, in brackets. -/
theorem params_append_inj {ps ps' : List Symbol} (hnames : ∀ p ∈ ps, IsName p.name)
    (hnames' : ∀ p ∈ ps', IsName p.name)
    (h : (", ".intercalate (ps.map Symbol.paramText)).toList ++ ')' :: rest =
      (", ".intercalate (ps'.map Symbol.paramText)).toList ++ ')' :: rest') :
    ps.map Symbol.param = ps'.map Symbol.param ∧ rest = rest' := by
  -- a parameter begins with its name, and no name begins with a bracket
  have hbegins : ∀ {p : Symbol} {more r : List Char}, IsName p.name →
      p.paramText.toList ++ more ≠ ')' :: r := by
    intro p more r hname heq
    obtain ⟨c, v, hc, -, hchars⟩ := Lexer.mem_run.1 hname
    rw [Symbol.toList_paramText, hchars] at heq
    rw [(List.cons.inj heq).1] at hc
    revert hc
    unfold Lexer.Letter
    decide
  cases ps with
  | nil =>
    cases ps' with
    | nil => exact ⟨rfl, (List.cons.inj h).2⟩
    | cons p' ps' =>
      rw [List.forall_mem_cons] at hnames'
      rw [List.map_cons, toList_intercalate_cons, List.append_assoc] at h
      exact absurd h.symm (hbegins hnames'.1)
  | cons p ps =>
    rw [List.forall_mem_cons] at hnames
    rw [List.map_cons, toList_intercalate_cons, List.append_assoc] at h
    cases ps' with
    | nil => exact absurd h (hbegins hnames.1)
    | cons p' ps' =>
      rw [List.forall_mem_cons] at hnames'
      rw [List.map_cons, toList_intercalate_cons, List.append_assoc] at h
      obtain ⟨hparam, htail⟩ := Symbol.paramText_append_inj hnames.1 hnames'.1
        (not_isTypeChar_behind ps) (not_isTypeChar_behind ps') h
      obtain ⟨hparams, hrest⟩ := moreParams_append_inj hnames.2 hnames'.2 htail
      exact ⟨by rw [List.map_cons, List.map_cons, hparam, hparams], hrest⟩

theorem Symbol.toList_text_function {name : String} {span : Span} {params : List Symbol}
    {returns : Ty} :
    (function name span params returns).text.toList =
      "fn".toList ++ ' ' :: (name.toList ++ '(' ::
        ((", ".intercalate (params.map paramText)).toList ++ ')' :: (' ' :: '-' :: '>' :: ' ' ::
          returns.text.toList))) := by
  unfold text
  simp only [String.toList_append, List.append_assoc]
  rfl

/-! ## Symbols -/

theorem isWord_fn : IsWord "fn" := isWord_of_all (by decide)

theorem Ty.text_ne_fn (ty : Ty) : ty.text ≠ "fn" := by cases ty <;> decide

/-- A symbol, printed before a blank. -/
theorem Symbol.text_append_inj {a b : Symbol} (ha : a.Named) (hb : b.Named)
    (h : a.text.toList ++ ' ' :: rest = b.text.toList ++ ' ' :: rest') :
    a.Alike b ∧ rest = rest' := by
  cases a with
  | var v =>
    simp only [toList_text_var, List.append_assoc, List.cons_append] at h
    cases b with
    | var v' =>
      simp only [toList_text_var, List.append_assoc, List.cons_append] at h
      obtain ⟨htype, -, h⟩ := v.value.ty.isWord_text.cons_inj v'.value.ty.isWord_text
        (by decide) (by decide) h
      obtain ⟨hname, -, h⟩ := ha.isWord.cons_inj hb.isWord (by decide) (by decide) h
      obtain ⟨hvalue, h⟩ := Value.text_append_inj (Ty.text_injective htype)
        (List.cons.inj (List.cons.inj h).2).2
      obtain ⟨⟨hknown, hinitialized⟩, h⟩ := Variable.flags_append_inj (List.cons.inj h).2
      refine ⟨?_, (List.cons.inj h).2⟩
      obtain ⟨name, span, value, known, initialized⟩ := v
      cases v'
      cases hname
      cases hvalue
      cases hknown
      cases hinitialized
      exact .var
    | function =>
      rw [toList_text_function, List.append_assoc] at h
      exact absurd (v.value.ty.isWord_text.cons_inj isWord_fn (by decide) (by decide) h).1
        (Ty.text_ne_fn _)
  | function name span params returns =>
    rw [toList_text_function, List.append_assoc] at h
    cases b with
    | var v' =>
      rw [toList_text_var, List.append_assoc] at h
      exact absurd (isWord_fn.cons_inj v'.value.ty.isWord_text (by decide) (by decide) h).1.symm
        (Ty.text_ne_fn _)
    | function name' span' params' returns' =>
      simp only [toList_text_function, List.append_assoc, List.cons_append,
        List.append_cancel_left_eq, List.cons.injEq, true_and] at h
      obtain ⟨hname, -, h⟩ := ha.1.isWord.cons_inj hb.1.isWord (by decide) (by decide) h
      obtain ⟨hparams, h⟩ := params_append_inj ha.2 hb.2 h
      simp only [List.cons.injEq, true_and] at h
      obtain ⟨hreturns, -, hrest⟩ := returns.isWord_text.cons_inj returns'.isWord_text
        (by decide) (by decide) h
      cases hname
      cases Ty.text_injective hreturns
      exact ⟨.function hparams, hrest⟩

theorem Scope.toList_symbolLine (symbol : Symbol) :
    (symbolLine symbol).toList =
      ' ' :: ' ' :: (symbol.text.toList ++ ' ' :: ("(line ".toList ++
        (symbol.line.repr.toList ++ [')']))) := by
  unfold symbolLine
  simp only [toString, String.toList_append, List.append_assoc]
  rfl

/-- The line of a symbol tells where the symbol is declared and all that is printed of it. -/
theorem Scope.symbolLine_inj {a b : Symbol} (ha : a.Named) (hb : b.Named)
    (h : symbolLine a = symbolLine b) : a.line = b.line ∧ a.Alike b := by
  have hchars := congrArg String.toList h
  simp only [toList_symbolLine, List.cons.injEq, true_and] at hchars
  obtain ⟨halike, hchars⟩ := Symbol.text_append_inj ha hb hchars
  obtain ⟨hline, -⟩ := repr_append_inj (by simp) (by simp) (List.append_cancel_left hchars)
  exact ⟨hline, halike⟩

/-! ## Headings -/

/-- A heading behind the number of the scope. -/
def headingEnd : Option Nat → Option Location → List Char
  | none, _ => " (global)".toList
  | some parent, some start => " (parent ".toList ++ (parent.repr.toList ++ ',' ::
      (" block at ".toList ++ (start.line.repr.toList ++ ':' ::
        (start.column.repr.toList ++ [')']))))
  | some parent, none => " (parent ".toList ++ (parent.repr.toList ++ [')'])

theorem Scope.toList_heading (s : Scope) :
    s.heading.toList = "scope ".toList ++ (s.id.repr.toList ++ headingEnd s.parent s.block) := by
  unfold heading
  split
  · next hparent =>
    simp only [toString, String.toList_append, List.append_assoc, hparent]
    rfl
  · next hparent hblock =>
    simp only [toString, Location.text, String.toList_append, List.append_assoc, hparent, hblock]
    rfl
  · next hparent hblock =>
    simp only [toString, String.toList_append, List.append_assoc, hparent, hblock]
    rfl

theorem not_isDigit_headingEnd (parent : Option Nat) (block : Option Location) :
    ∀ c ∈ (headingEnd parent block).head?, ¬ c.isDigit = true := by
  intro c hc
  have hblank : c = ' ' := by
    cases parent <;> cases block <;> exact (Option.some.inj hc).symm
  exact hblank ▸ by decide

theorem headingEnd_inj {parent parent' : Option Nat} {block block' : Option Location}
    (hblock : parent = none → block = none) (hblock' : parent' = none → block' = none)
    (h : headingEnd parent block = headingEnd parent' block') :
    parent = parent' ∧ block.map Location.place = block'.map Location.place := by
  have hglobal : ∀ cs, " (global)".toList ≠ " (parent ".toList ++ cs := by
    intro cs heq
    exact absurd (congrArg (·[2]?) heq) (by simp)
  cases parent with
  | none =>
    cases hblock rfl
    cases parent' with
    | none =>
      cases hblock' rfl
      exact ⟨rfl, rfl⟩
    | some parent' => cases block' <;> exact absurd h (hglobal _)
  | some parent =>
    cases parent' with
    | none => cases block <;> exact absurd h.symm (hglobal _)
    | some parent' =>
      -- the number of the scope around ends with a comma just if a place follows
      cases block with
      | none =>
        cases block' with
        | none =>
          obtain ⟨rfl, -⟩ := repr_append_inj (by simp) (by simp) (List.append_cancel_left h)
          exact ⟨rfl, rfl⟩
        | some start' =>
          obtain ⟨-, hsign⟩ := repr_append_inj (by simp) (by simp) (List.append_cancel_left h)
          exact absurd (List.cons.inj hsign).1 (by decide)
      | some start =>
        cases block' with
        | none =>
          obtain ⟨-, hsign⟩ := repr_append_inj (by simp) (by simp) (List.append_cancel_left h)
          exact absurd (List.cons.inj hsign).1 (by decide)
        | some start' =>
          obtain ⟨rfl, hplace⟩ := repr_append_inj (by simp) (by simp) (List.append_cancel_left h)
          obtain ⟨hline, hcolumn⟩ := repr_append_inj (by simp) (by simp)
            (List.append_cancel_left (List.cons.inj hplace).2)
          obtain ⟨hcolumn, -⟩ := repr_append_inj (by simp) (by simp) (List.cons.inj hcolumn).2
          exact ⟨rfl, congrArg some (Prod.ext hline hcolumn)⟩

/-- A heading tells the number of the scope, the scope around it, and where its block begins if
there is a scope around it. -/
theorem Scope.heading_inj {s s' : Scope} (hblock : s.parent = none → s.block = none)
    (hblock' : s'.parent = none → s'.block = none) (h : s.heading = s'.heading) :
    s.id = s'.id ∧ s.parent = s'.parent ∧
      s.block.map Location.place = s'.block.map Location.place := by
  have hchars := congrArg String.toList h
  simp only [toList_heading, List.append_cancel_left_eq] at hchars
  obtain ⟨hid, hchars⟩ := repr_append_inj (not_isDigit_headingEnd _ _)
    (not_isDigit_headingEnd _ _) hchars
  exact ⟨hid, headingEnd_inj hblock hblock' hchars⟩

/-! ## Lines -/

theorem IsWord.lineFeed_not_mem {text : String} (h : IsWord text) : '\n' ∉ text.toList :=
  fun hmem => absurd (h _ hmem) (by decide)

theorem lineFeed_not_mem_digits (n : Nat) : '\n' ∉ Nat.toDigits 10 n := by
  intro hmem
  rw [← Nat.toList_repr] at hmem
  exact absurd (isDigit_of_mem_repr hmem) (by decide)

theorem Value.lineFeed_not_mem_text (v : Value) : '\n' ∉ v.text.toList := by
  cases v with
  | int n =>
    intro hmem
    have := signed_of_mem_wordText hmem
    simp [Signed] at this
  | string s => exact Text.lineFeed_not_mem_quote s
  | bool b => exact (isWord_boolText b).lineFeed_not_mem

theorem lineFeed_not_mem_flagWords :
    ∀ known initialized, '\n' ∉ (flagWords known initialized).toList := by decide

theorem Symbol.lineFeed_not_mem_paramText {p : Symbol} (h : IsName p.name) :
    '\n' ∉ p.paramText.toList := by
  have htype : '\n' ∉ ((p.valueType?.map Ty.text).getD "?").toList := by
    intro hmem
    have := isTypeChar_of_mem hmem
    revert this
    unfold IsTypeChar
    decide
  simp [toList_paramText, h.isWord.lineFeed_not_mem, htype]

theorem lineFeed_not_mem_params {ps : List Symbol} (h : ∀ p ∈ ps, IsName p.name) :
    '\n' ∉ (", ".intercalate (ps.map Symbol.paramText)).toList := by
  cases ps with
  | nil => simp
  | cons p ps =>
    rw [List.map_cons, toList_intercalate_cons, List.mem_append, List.mem_flatMap]
    rintro (hmem | ⟨text, htext, hmem⟩)
    · exact Symbol.lineFeed_not_mem_paramText (h p List.mem_cons_self) hmem
    · obtain ⟨q, hq, rfl⟩ := List.mem_map.1 htext
      obtain hmem | hmem := List.mem_append.1 hmem
      · exact absurd hmem (by decide)
      · exact Symbol.lineFeed_not_mem_paramText (h q (List.mem_cons_of_mem p hq)) hmem

/-- The line of a symbol is one line. -/
theorem Scope.lineFeed_not_mem_symbolLine {symbol : Symbol} (h : symbol.Named) :
    '\n' ∉ (symbolLine symbol).toList := by
  have htext : '\n' ∉ symbol.text.toList := by
    cases symbol with
    | var v =>
      have hflags : '\n' ∉ v.flags.toList := lineFeed_not_mem_flagWords v.known v.initialized
      simp [Symbol.toList_text_var, v.value.ty.isWord_text.lineFeed_not_mem,
        IsWord.lineFeed_not_mem (IsName.isWord h), v.value.lineFeed_not_mem_text, hflags]
    | function name span params returns =>
      simp [Symbol.toList_text_function, returns.isWord_text.lineFeed_not_mem,
        h.1.isWord.lineFeed_not_mem, lineFeed_not_mem_params h.2, -String.toList_intercalate]
  simp [toList_symbolLine, htext, lineFeed_not_mem_digits]

/-- A heading is one line. -/
theorem Scope.lineFeed_not_mem_heading (s : Scope) : '\n' ∉ s.heading.toList := by
  have hend : '\n' ∉ headingEnd s.parent s.block := by
    unfold headingEnd
    split <;> simp [lineFeed_not_mem_digits]
  simp [toList_heading, lineFeed_not_mem_digits, hend]

/-- A text is made up of its lines in one way only. -/
theorem lines_inj {ls ls' : List String} (hls : ∀ l ∈ ls, '\n' ∉ l.toList)
    (hls' : ∀ l ∈ ls', '\n' ∉ l.toList)
    (h : ls.flatMap (fun l => l.toList ++ ['\n']) = ls'.flatMap (fun l => l.toList ++ ['\n'])) :
    ls = ls' := by
  induction ls generalizing ls' with
  | nil =>
    cases ls' with
    | nil => rfl
    | cons l' ls' => simp at h
  | cons l ls ih =>
    cases ls' with
    | nil => simp at h
    | cons l' ls' =>
      rw [List.forall_mem_cons] at hls hls'
      rw [List.flatMap_cons, List.flatMap_cons, List.append_assoc, List.append_assoc] at h
      obtain ⟨hl, hrest⟩ := run_append_inj (p := (· ≠ '\n'))
        (fun c hc heq => hls.1 (heq ▸ hc)) (fun c hc heq => hls'.1 (heq ▸ hc)) (by simp) (by simp) h
      rw [String.toList_inj.1 hl, ih hls.2 hls'.2 (List.append_cancel_left hrest)]

/-! ## Tables -/

/-- Where texts are the same one by one, so is what they tell. -/
theorem forall₂_of_map_eq {α β : Type} {R : α → α → Prop} {text : α → β} {as bs : List α}
    (hR : ∀ a ∈ as, ∀ b ∈ bs, text a = text b → R a b) (h : as.map text = bs.map text) :
    List.Forall₂ R as bs := by
  induction as generalizing bs with
  | nil =>
    cases bs with
    | nil => exact .nil
    | cons b bs => cases h
  | cons a as ih =>
    cases bs with
    | nil => cases h
    | cons b bs =>
      obtain ⟨hhead, htail⟩ := List.cons.inj h
      refine .cons (hR a List.mem_cons_self b List.mem_cons_self hhead) (ih ?_ htail)
      intro a ha b hb
      exact hR a (List.mem_cons_of_mem _ ha) b (List.mem_cons_of_mem _ hb)

namespace Table

/-- All symbols of a table have names of the language. -/
def Named (t : Table) : Prop := ∀ scope ∈ t.scopes, ∀ symbol ∈ scope.symbols, symbol.Named

theorem toList_dump (t : Table) :
    t.dump.toList = (t.scopes.flatMap Scope.lines).flatMap fun l => l.toList ++ ['\n'] := by
  rw [dump, String.toList_join, List.flatMap_assoc, List.flatMap_assoc]
  refine List.flatMap_congr fun scope _ => ?_
  rw [List.flatMap_map]
  refine List.flatMap_congr fun l _ => ?_
  rw [String.toList_append]
  rfl

theorem lineFeed_not_mem_lines {t : Table} (h : t.Named) :
    ∀ l ∈ t.scopes.flatMap Scope.lines, '\n' ∉ l.toList := by
  intro l hl
  obtain ⟨scope, hscope, hl⟩ := List.mem_flatMap.1 hl
  obtain rfl | hl := List.mem_cons.1 hl
  · exact scope.lineFeed_not_mem_heading
  · obtain ⟨symbol, hsymbol, rfl⟩ := List.mem_map.1 hl
    exact Scope.lineFeed_not_mem_symbolLine (h scope hscope symbol hsymbol)

/-- A line that begins with a blank. -/
def Indented (l : String) : Prop := l.toList.head? = some ' '

theorem indented_of_mem (symbols : List Symbol) :
    ∀ l ∈ symbols.map Scope.symbolLine, Indented l := by
  intro l hl
  obtain ⟨symbol, -, rfl⟩ := List.mem_map.1 hl
  rw [Indented, Scope.toList_symbolLine, List.head?_cons]

/-- Behind the symbols of a scope comes the heading of the next one. -/
theorem not_indented_behind (ss : List Scope) :
    ∀ l ∈ (ss.flatMap Scope.lines).head?, ¬ Indented l := by
  intro l hl
  cases ss with
  | nil => cases hl
  | cons s ss =>
    cases Option.some.inj hl
    rw [Indented, Scope.toList_heading]
    simp

/-- Scopes whose lines are the same one behind the other have the same lines one by one. -/
theorem lines_eq_of_flatMap_eq {ss ss' : List Scope}
    (h : ss.flatMap Scope.lines = ss'.flatMap Scope.lines) :
    ss.map Scope.lines = ss'.map Scope.lines := by
  induction ss generalizing ss' with
  | nil =>
    cases ss' with
    | nil => rfl
    | cons s' ss' => simp [Scope.lines] at h
  | cons s ss ih =>
    cases ss' with
    | nil => simp [Scope.lines] at h
    | cons s' ss' =>
      obtain ⟨hheading, htail⟩ := List.cons.inj h
      obtain ⟨hsymbols, hrest⟩ := run_append_inj (indented_of_mem s.symbols)
        (indented_of_mem s'.symbols) (not_indented_behind ss) (not_indented_behind ss') htail
      rw [List.map_cons, List.map_cons, ih hrest, Scope.lines, Scope.lines, hheading, hsymbols]

end Table

/-- What the lines of a scope tell. -/
theorem Scope.alike_of_lines_eq {s s' : Scope} (hnamed : ∀ symbol ∈ s.symbols, symbol.Named)
    (hnamed' : ∀ symbol ∈ s'.symbols, symbol.Named) (hblock : s.parent = none → s.block = none)
    (hblock' : s'.parent = none → s'.block = none) (h : s.lines = s'.lines) : s.Alike s' := by
  obtain ⟨hheading, hlines⟩ := List.cons.inj h
  obtain ⟨hid, hparent, hplace⟩ := heading_inj hblock hblock' hheading
  refine { id := hid, parent := hparent, block := hplace, symbols := ?_ }
  exact forall₂_of_map_eq (fun a ha b hb => symbolLine_inj (hnamed a ha) (hnamed' b hb)) hlines

namespace Table

/-- Tables with names of the language that are printed alike are the same as far as they are
printed. -/
theorem alike_of_dump_eq {t t' : Table} (hnamed : t.Named) (hnamed' : t'.Named)
    (hrooted : ∀ s ∈ t.scopes, s.parent = none → s.block = none)
    (hrooted' : ∀ s ∈ t'.scopes, s.parent = none → s.block = none) (h : t.dump = t'.dump) :
    List.Forall₂ Scope.Alike t.scopes t'.scopes := by
  have hchars := congrArg String.toList h
  rw [toList_dump, toList_dump] at hchars
  have hlines := lines_inj (lineFeed_not_mem_lines hnamed) (lineFeed_not_mem_lines hnamed') hchars
  exact forall₂_of_map_eq (fun s hs s' hs' => Scope.alike_of_lines_eq (hnamed s hs)
    (hnamed' s' hs') (hrooted s hs) (hrooted' s' hs')) (lines_eq_of_flatMap_eq hlines)

/-- The global scope is of no block, whatever operations have been tried. -/
theorem block_of_global (ops : List Op) :
    ∀ s ∈ (after ops).scopes, s.parent = none → s.block = none := by
  rw [after, ← behind_eq_attempt]
  intro s hs hparent
  obtain ⟨i, hi⟩ := List.getElem?_of_mem hs
  obtain ⟨-, rfl⟩ | ⟨p, hp, -⟩ := ((coherent_behind ops).scopes i s hi).parent
  · obtain ⟨s', hs', -, -, hblock, -⟩ := (keeps_behind .empty ops).scope 0 _ rfl
    cases hs'.symm.trans hi
    exact hblock
  · rw [hparent] at hp
    cases hp

/-- Whatever operations two tables come from: if their symbols and parameters have names of the
language, every heading and every symbol is printed on one line, and tables that are printed
alike have as many scopes, one by one of the same number and in the same scope, with the same
line and column where the block begins; and in these as many symbols, one by one declared on
the same line, of one kind, and with the same name; variables with the same value, and so
of the same type, and the same flags, and functions with the same return type and with
parameters of the same names and types. -/
theorem dump_unambiguous {ops ops' : List Op} (hnamed : (after ops).Named)
    (hnamed' : (after ops').Named) :
    (∀ s ∈ (after ops).scopes, ∀ l ∈ s.lines, '\n' ∉ l.toList) ∧
    ((after ops).dump = (after ops').dump →
      List.Forall₂ Scope.Alike (after ops).scopes (after ops').scopes) := by
  refine ⟨?_, alike_of_dump_eq hnamed hnamed' (block_of_global ops) (block_of_global ops')⟩
  intro s hs l hl
  exact lineFeed_not_mem_lines hnamed l (List.mem_flatMap.2 ⟨s, hs, hl⟩)

/-- A string that reads like the end of its own line and another scope, stored by variables
that differ in where on the line they are declared. -/
theorem dump_unambiguous_forgery :
    let forged : Value := .string "\" [static, initialized] (line 1)\nscope 1 (parent 0)"
    let ops (column : Nat) : List Op :=
      [.define (.initialized "x" ⟨⟨1, column, 0⟩, ⟨1, column, 0⟩⟩ forged true)]
    (after (ops 1)).Named ∧ (after (ops 2)).Named ∧ (after (ops 1)).dump = (after (ops 2)).dump ∧
      (∀ s ∈ (after (ops 1)).scopes, ∀ l ∈ s.lines, '\n' ∉ l.toList) ∧
      List.Forall₂ Scope.Alike (after (ops 1)).scopes (after (ops 2)).scopes := by
  intro forged ops
  have hname : IsName "x" := Lexer.mem_run.2 ⟨'x', [], .inl (.inl (by decide)), nofun, by rfl⟩
  have hnamed (column : Nat) : (after (ops column)).Named := by
    intro scope hscope symbol hsymbol
    cases List.mem_singleton.1 hscope
    cases List.mem_singleton.1 hsymbol
    exact hname
  have hdump : (after (ops 1)).dump = (after (ops 2)).dump := rfl
  obtain ⟨hlines, halike⟩ := dump_unambiguous (hnamed 1) (hnamed 2)
  exact ⟨hnamed 1, hnamed 2, hdump, hlines, halike hdump⟩

end Table

end Slate
