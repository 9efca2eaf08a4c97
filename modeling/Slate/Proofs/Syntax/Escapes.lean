-- SUMMARY: A string that is written as a literal is read back as it was, and a literal with an unknown escape is refused for the first one.
import Slate.Proofs.Syntax.Acceptance
import Slate.Proofs.Syntax.Walk.Statement
import Slate.Proofs.Syntax.Nesting
import Slate.Proofs.Token.Printing
import Slate.Proofs.Token.Spelling

/-!
# Escapes in string literals

Two scanners read a string literal: the lexer finds where it ends, the parser finds what it
means. They agree on which backslashes escape the character behind them. So every string can
be written as a literal and is read back, and since the lexer lets no literal end within an
escape, the parser refuses one for a single reason: a character is escaped that has no
meaning. The first such character is the one that the error node names.
-/

namespace Slate

open scoped Computability

namespace Literal

open Grammar Lexer

/-! ## Writing strings -/

/-- The ways to write characters between quotes. A backslash or a quote needs a backslash in
front; a line feed and a tab can be written as letters behind one, or as they are. -/
inductive Writes : List Char → List Char → Prop where
  | nil : Writes [] []
  | plain {c : Char} {vs cs : List Char} :
      c ≠ '\\' → c ≠ '"' → Writes vs cs → Writes (c :: vs) (c :: cs)
  | backslash {vs cs : List Char} : Writes vs cs → Writes ('\\' :: vs) ('\\' :: '\\' :: cs)
  | quote {vs cs : List Char} : Writes vs cs → Writes ('"' :: vs) ('\\' :: '"' :: cs)
  | newline {vs cs : List Char} : Writes vs cs → Writes ('\n' :: vs) ('\\' :: 'n' :: cs)
  | tab {vs cs : List Char} : Writes vs cs → Writes ('\t' :: vs) ('\\' :: 't' :: cs)

variable {vs cs : List Char}

/-- Every string can be written. -/
theorem exists_writes (vs : List Char) : ∃ cs, Writes vs cs := by
  induction vs with
  | nil => exact ⟨[], .nil⟩
  | cons c vs ih =>
    obtain ⟨cs, h⟩ := ih
    by_cases hbackslash : c = '\\'
    · subst hbackslash
      exact ⟨_, .backslash h⟩
    · by_cases hquote : c = '"'
      · subst hquote
        exact ⟨_, .quote h⟩
      · exact ⟨_, .plain hbackslash hquote h⟩

/-- What is written denotes what was to be written. -/
theorem Writes.unescapes (h : Writes vs cs) : Unescapes cs vs := by
  induction h with
  | nil => exact .nil
  | plain hbackslash _ _ ih => exact .plain hbackslash ih
  | backslash _ ih => exact .backslash ih
  | quote _ ih => exact .quote ih
  | newline _ ih => exact .newline ih
  | tab _ ih => exact .tab ih

/-- What is written goes on as a string up to its end. -/
theorem Writes.pieces (h : Writes vs cs) : cs ∈ stringPiece∗ := by
  induction h with
  | nil => exact Language.nil_mem_kstar _
  | plain hbackslash hquote _ ih =>
    exact append_mem_star (singleton_mem_stringPiece hquote hbackslash) ih
  | backslash _ ih | quote _ ih | newline _ ih | tab _ ih =>
    exact append_mem_star (escape_mem_stringPiece (by decide)) ih

/-- The text of the literal with these characters between its quotes. -/
def quoted (cs : List Char) : String := String.ofList ('"' :: (cs ++ ['"']))

/-- Pieces of a string between quotes are one token. -/
theorem tokenize_quoted (h : cs ∈ stringPiece∗) :
    ∃ span, tokenize (quoted cs) = .ok [⟨.string, quoted cs, span⟩] := by
  have htakes : (Rule.token .string).Takes (quoted cs).toList ((quoted cs).toList ++ []) :=
    takes_string_append (mem_string.2 ⟨cs, h, String.toList_ofList⟩) []
  have hstart : Reached (quoted cs).toList 0 ((quoted cs).toList ++ []) [] := by
    rw [List.append_nil]
    exact .start
  have htokens := tokenize_of_reached (hstart.token htakes)
  rw [List.nil_append, String.ofList_toList] at htokens
  exact ⟨_, htokens⟩

/-! ## Escapes -/

/-- The characters that are escaped: those behind a backslash that is not escaped itself. -/
def escapes : List Char → List Char
  | [] => []
  | '\\' :: c :: cs => c :: escapes cs
  | _ :: cs => escapes cs

/-- The characters that have a meaning behind a backslash. -/
def isEscape (c : Char) : Bool := c == 'n' || c == 't' || c == '"' || c == '\\'

/-- The first character that is escaped without a meaning. -/
def firstUnknown? (cs : List Char) : Option Char := (escapes cs).find? fun c => !isEscape c

theorem firstUnknown?_eq_none_iff :
    firstUnknown? cs = none ↔ ∀ c ∈ escapes cs, isEscape c = true := by
  simp [firstUnknown?]

theorem isSome_escapeValue? (c : Char) : (escapeValue? c).isSome = isEscape c := by
  unfold escapeValue? isEscape
  split
  · next h => rw [h]; rfl
  split
  · next h => rw [h]; rfl
  split
  · next h => rw [h]; rfl
  split
  · next h => rw [h]; rfl
  · next hn ht hq hb => simp [hn, ht, hq, hb]

/-- What the parser makes of the inside of a literal: characters, or a fault for the first
escape that is not known. -/
inductive Unescaped (cs : List Char) : Prop where
  | known (vs : List Char) : firstUnknown? cs = none → unescape cs = .ok vs → Unescaped cs
  | unknown (c : Char) : firstUnknown? cs = some c → unescape cs = .error (.unknownEscape c) →
      Unescaped cs

/-- A piece in front that means one character makes no difference. -/
theorem Unescaped.append {piece : List Char} {v : Char}
    (hescapes : firstUnknown? (piece ++ cs) = firstUnknown? cs)
    (hunescape : unescape (piece ++ cs) = (unescape cs).map (v :: ·)) (h : Unescaped cs) :
    Unescaped (piece ++ cs) := by
  cases h with
  | known vs hnone hvs =>
    exact .known (v :: vs) (hescapes.trans hnone) (by rw [hunescape, hvs]; rfl)
  | unknown c hsome hfault =>
    exact .unknown c (hescapes.trans hsome) (by rw [hunescape, hfault]; rfl)

/-- Of what the lexer lets pass as the inside of a string, no escape is unterminated. -/
theorem unescaped_of_pieces (h : cs ∈ stringPiece∗) : Unescaped cs := by
  obtain ⟨pieces, rfl, hpieces⟩ := Language.mem_kstar.1 h
  clear h
  induction pieces with
  | nil => exact .known [] rfl rfl
  | cons piece pieces ih =>
    obtain ⟨hpiece, hpieces⟩ := List.forall_mem_cons.1 hpieces
    have hrest := ih hpieces
    rw [List.flatten_cons]
    obtain ⟨c, ⟨hquote, hbackslash⟩, rfl⟩ | hescape := hpiece
    · refine hrest.append (v := c) ?_ ?_
      · rw [List.singleton_append, firstUnknown?, escapes.eq_3 _ _ fun _ _ hc _ => hbackslash hc]
        rfl
      · rw [List.singleton_append]
        exact unescape.eq_4 _ _ (fun _ _ hc _ => hbackslash hc) fun hc _ => hbackslash hc
    · obtain ⟨_, _, rfl, ⟨c, hfeed, rfl⟩, rfl⟩ := mem_one_mul.1 hescape
      have hknown := isSome_escapeValue? c
      cases hvalue : escapeValue? c with
      | some v =>
        rw [hvalue, Option.isSome_some] at hknown
        refine hrest.append (v := v) ?_ ?_
        · simp [firstUnknown?, escapes, ← hknown]
        · simp [unescape, hvalue]
      | none =>
        rw [hvalue, Option.isSome_none] at hknown
        refine .unknown c ?_ ?_
        · simp [firstUnknown?, escapes, ← hknown]
        · simp [unescape, hvalue]

end Literal

/-! ## String tokens -/

/-- The characters that are escaped in the text of a string literal. -/
def Token.escapes (t : Token) : List Char := Literal.escapes (t.text.toList.drop 1).dropLast

/-- The first of them that has no meaning. -/
def Token.firstUnknown? (t : Token) : Option Char :=
  Literal.firstUnknown? (t.text.toList.drop 1).dropLast

/-- A string literal either denotes something or escapes a character without a meaning. -/
inductive Token.StringRead (t : Token) : Prop where
  | value (v : String) : t.firstUnknown? = none → Literal.string t.text = .ok v → StringRead t
  | unknown (c : Char) : t.firstUnknown? = some c →
      Literal.string t.text = .error (.unknownEscape c) → StringRead t

variable {source : String} {tokens ts : List Token} {t : Token} {c : Char}

theorem Token.stringRead_of_mem_pattern (h : t.text.toList ∈ Kind.string.pattern) :
    t.StringRead := by
  obtain ⟨inside, hpieces, htext⟩ := Lexer.mem_string.1 h
  have hinside : (t.text.toList.drop 1).dropLast = inside := by
    rw [htext, List.drop_one, List.tail_cons, List.dropLast_concat]
  cases Literal.unescaped_of_pieces hpieces with
  | known vs hnone hvs =>
    refine .value (String.ofList vs) ?_ ?_
    · rw [Token.firstUnknown?, hinside, hnone]
    · rw [Literal.string, hinside, hvs]
      rfl
  | unknown c hsome hfault =>
    refine .unknown c ?_ ?_
    · rw [Token.firstUnknown?, hinside, hsome]
    · rw [Literal.string, hinside, hfault]
      rfl

theorem stringRead_of_tokenize (h : tokenize source = .ok tokens) (ht : t ∈ tokens)
    (hk : t.kind = .string) : t.StringRead := by
  obtain ⟨offset, hreached⟩ := tokenize_eq_ok_iff.1 h
  refine Token.stringRead_of_mem_pattern ?_
  rw [← hk]
  exact hreached.mem_pattern t ht

theorem Token.StringRead.fault (h : t.StringRead) {fault : Fault}
    (hfault : Literal.string t.text = .error fault) :
    ∃ c, t.firstUnknown? = some c ∧ fault = .unknownEscape c := by
  cases h with
  | value v _ hv => rw [hv] at hfault; cases hfault
  | unknown c hc hc' =>
    rw [hc'] at hfault
    cases hfault
    exact ⟨c, hc, rfl⟩

namespace Parser

variable {last : Token} {depth budget : Nat} {fault : Fault} {span : Span} {v : String}

/-! ## Reading a string literal -/

/-- The token is read as a literal of this value where nothing goes on with the expression. -/
def ReadsAs (t : Token) (v : String) : Prop :=
  ∀ (ts : List Token) (last : Token) (depth budget : Nat), Grammar.Stops Grammar.levels ts →
    26 ≤ budget → expression budget ⟨t :: ts, last, depth⟩ =
      .ok (.literal (.string v) t.span) ⟨ts, last, depth⟩

/-- The token is refused for this fault wherever an expression is due. -/
def Refuses (t : Token) (fault : Fault) : Prop :=
  ∀ (ts : List Token) (last : Token) (depth budget : Nat), 10 ≤ budget →
    expression budget ⟨t :: ts, last, depth⟩ = .error (.fault fault t.span) ⟨t :: ts, last, depth⟩

theorem readsAs_of_quoted (hk : t.kind = .string) (h : Grammar.Quoted t.text v) :
    ReadsAs t v := by
  intro ts last depth budget hstops hbudget
  have hprimary : Grammar.Unary (t :: ts) (.literal (.string v) t.span) ts :=
    .primary (.string hk h)
  have hexpression : Grammar.Expression (t :: ts) (.literal (.string v) t.span) ts :=
    .joined (.joined (.joined (.joined (.joined (.joined (.unary hprimary) .none) .none) .none)
      .none) .none) .none
  exact (completeExpressions budget).expression hexpression hstops
    (by rw [List.length_cons]; omega)

theorem primary_refuses (hk : t.kind = .string) (h : Literal.string t.text = .error fault) :
    primary (budget + 1) ⟨t :: ts, last, depth⟩ =
      .error (.fault fault t.span) ⟨t :: ts, last, depth⟩ := by
  rw [primary, get_bind_apply]
  simp only [State.view, List.headD_cons, hk]
  rw [stringLiteral, get_bind_apply]
  simp only [State.view, List.headD_cons, h]
  rfl

theorem unary_refuses (hk : t.kind = .string) (h : Literal.string t.text = .error fault) :
    unary (budget + 2) ⟨t :: ts, last, depth⟩ =
      .error (.fault fault t.span) ⟨t :: ts, last, depth⟩ := by
  have hnot : ∀ mark, Grammar.NotNext (.mark mark) (t :: ts) := fun mark => .cons (by simp [hk])
  rw [unary, get_bind_apply, not_sees_iff.2 (hnot .minus), Bool.false_and,
    if_neg Bool.false_ne_true,
    bind_of_ok (acceptOperator?_none.2 ⟨fun entry _ => hnot entry.1, rfl⟩)]
  exact primary_refuses hk h

theorem binary_refuses (hk : t.kind = .string) (h : Literal.string t.text = .error fault)
    (tables : List (List (Mark × BinaryOp))) (hbudget : tables.length + 3 ≤ budget) :
    binary budget tables ⟨t :: ts, last, depth⟩ =
      .error (.fault fault t.span) ⟨t :: ts, last, depth⟩ := by
  induction tables generalizing budget with
  | nil =>
    obtain ⟨budget, rfl⟩ : ∃ b, budget = b + 3 := ⟨budget - 3, by simp at hbudget; omega⟩
    exact unary_refuses hk h
  | cons table tighter ih =>
    obtain ⟨budget, rfl⟩ : ∃ b, budget = b + 1 := ⟨budget - 1, by omega⟩
    rw [binary, bind_of_error (ih (by rw [List.length_cons] at hbudget; omega))]

theorem refuses_of_fault (hk : t.kind = .string) (h : Literal.string t.text = .error fault) :
    Refuses t fault := by
  intro ts last depth budget hbudget
  obtain ⟨budget, rfl⟩ : ∃ b, budget = b + 1 := ⟨budget - 1, by omega⟩
  rw [expression]
  exact binary_refuses hk h precedence (by rw [show precedence.length = 6 from rfl]; omega)

/-- A value is read exactly if every escape has a meaning. -/
theorem readsAs_iff (hk : t.kind = .string) (h : t.StringRead) (hspelled : t.WellSpelled) :
    (∃ v, ReadsAs t v) ↔ ∀ c ∈ t.escapes, Literal.isEscape c = true := by
  rw [Token.escapes, ← Literal.firstUnknown?_eq_none_iff]
  change _ ↔ t.firstUnknown? = none
  cases h with
  | value v hnone hv =>
    exact iff_of_true
      ⟨v, readsAs_of_quoted hk ((Literal.string_eq_ok (hspelled.of_string hk)).1 hv)⟩ hnone
  | unknown c hsome hfault =>
    refine iff_of_false ?_ (by rw [hsome]; nofun)
    rintro ⟨v, hv⟩
    have hstops : Grammar.Stops Grammar.levels [] := ⟨fun _ _ => .nil, .nil⟩
    have hread := hv [] t 0 26 hstops le_rfl
    rw [refuses_of_fault hk hfault [] t 0 26 (by omega)] at hread
    cases hread

/-! ## Statements -/

/-- A statement that begins with a literal that is refused becomes an error node. -/
theorem statement_of_refuses (hk : t.kind = .string) (h : Refuses t fault) (hbudget : 12 ≤ budget) :
    statement budget ⟨t :: ts, last, depth⟩ = .ok (.error t.text fault.reason t.span)
      (State.recovered ⟨t :: ts, last, depth⟩ ⟨t :: ts, last, depth⟩) := by
  obtain ⟨budget, rfl⟩ : ∃ b, budget = b + 2 := ⟨budget - 2, by omega⟩
  have hname : Grammar.NotNext .identifier (t :: ts) := .cons (by simp [hk])
  have hstopped : strictStatement (budget + 1) ⟨t :: ts, last, depth⟩ =
      .error (.fault fault t.span) ⟨t :: ts, last, depth⟩ := by
    rw [strictStatement, get_bind_apply]
    simp only [State.view, List.headD_cons, hk]
    rw [assignmentOrExpression, get_bind_apply, not_sees_iff.2 hname, Bool.false_and,
      if_neg Bool.false_ne_true, bind_of_error (h ts last depth budget (by omega))]
  exact recovering_fault hstopped rfl

/-- A statement that is stopped at a string literal is stopped because something else than an
expression was due there, or because of the first escape that has no meaning. -/
theorem statement_stopped_at_string {s s₁ : State} (hread : t.StringRead) (hk : t.kind = .string)
    (hstopped : strictStatement budget s = .error (.fault fault span) s₁)
    (hrest : s₁.rest = t :: ts) :
    (∃ what, what ≠ .expression ∧ fault = .expected what (some t.text)) ∨
      ∃ c, t.firstUnknown? = some c ∧ fault = .unknownEscape c ∧ span = t.span ∧
        statement (budget + 1) s =
          .ok (.error t.text (Fault.unknownEscape c).reason t.span) (s.recovered s₁) := by
  obtain ⟨-, hcharged⟩ := strictStatement_charged hstopped hrest
  have hleft : s₁.atEnd = false := by rw [State.atEnd, hrest]; rfl
  have hstatement : statement (budget + 1) s =
      .ok (.error t.text fault.reason span) (s.recovered s₁) := by
    rw [← view_of_cons hrest]
    exact recovering_fault hstopped hleft
  cases hcharged with
  | unexpected what operand =>
    exact .inl ⟨what, fun hwhat => (operand hwhat).2 hk, rfl⟩
  | nestedFunction fn => rw [hk] at fn; cases fn
  | integer literal | negative literal => rw [hk] at literal; cases literal
  | string _ wrong =>
    obtain ⟨c, hc, rfl⟩ := hread.fault wrong
    exact .inr ⟨c, hc, rfl, rfl, hstatement⟩

/-! ## Programs -/

variable {outside : Bool} {here there : List Token} {passages : List Passage} {blocks : List Block}

/-- A string literal that denotes nothing is passed over for an error node. -/
theorem Course.denotes (h : Course outside here passages blocks there) :
    ∃ inner, here = inner ++ there ∧ ∀ t ∈ inner, t.kind = .string →
      (∃ v, Literal.string t.text = .ok v) ∨ ∃ p ∈ passages, t ∈ p.tokens := by
  induction h with
  | rest here => exact ⟨[], rfl, List.forall_mem_nil _⟩
  | @plain _ t ts token =>
    exact ⟨[t], rfl, List.forall_mem_singleton.2 fun hk => .inl (token.denotes hk)⟩
  | @negative _ minus t ts _ sign literal _ =>
    exact ⟨[minus, t], rfl, by simp [sign, literal]⟩
  | append _ _ before behind =>
    obtain ⟨inner, rfl, hinner⟩ := before
    obtain ⟨inner', rfl, hinner'⟩ := behind
    refine ⟨inner ++ inner', (List.append_assoc ..).symm, List.forall_mem_append.2 ⟨?_, ?_⟩⟩
    · exact fun t ht hk => (hinner t ht hk).imp_right fun ⟨p, hp, hmem⟩ =>
        ⟨p, List.mem_append_left _ hp, hmem⟩
    · exact fun t ht hk => (hinner' t ht hk).imp_right fun ⟨p, hp, hmem⟩ =>
        ⟨p, List.mem_append_right _ hp, hmem⟩
  | @error _ _ _ _ _ tokens _ _ _ _ _ _ _ passed _ =>
    exact ⟨tokens, passed, fun t ht _ => .inr ⟨_, List.mem_singleton_self _, ht⟩⟩
  | @stray t _ _ _ _ _ =>
    exact ⟨[t], rfl, fun u hu _ => .inr ⟨_, List.mem_singleton_self _, hu⟩⟩
  | @block _ opening closing inner after _ _ left right _ _ ih =>
    obtain ⟨inner', rfl, hinner⟩ := ih
    refine ⟨opening :: (inner' ++ [closing]), by simp, ?_⟩
    simp only [List.forall_mem_cons, List.forall_mem_append]
    refine ⟨fun hk => ?_, hinner, fun hk => ?_, List.forall_mem_nil _⟩
    · cases hk.symm.trans left
    · cases hk.symm.trans right

/-- No other fault has the wording of an escape that is not terminated. -/
theorem reason_unknownEscape_ne (c : Char) :
    (Fault.unknownEscape c).reason ≠ Fault.unterminatedEscape.reason := by
  intro h
  have hthird := congrArg (fun reason : String => reason.toList[2]?) h
  have hlength : 2 < "Unknown escape sequence '\\".toList.length := by decide +kernel
  have hfront : "Unknown escape sequence '\\".toList[2]? = some 'k' := by decide +kernel
  have hreason : (Fault.unknownEscape c).reason =
      "Unknown escape sequence '\\" ++ String.singleton c ++ "'" := rfl
  have hk : (Fault.unknownEscape c).reason.toList[2]? = some 'k' := by
    rw [hreason, String.toList_append, String.toList_append, List.append_assoc,
      List.getElem?_append_left hlength, hfront]
  have ht : Fault.unterminatedEscape.reason.toList[2]? = some 't' := by decide +kernel
  rw [hk, ht] at hthird
  cases hthird

theorem reason_expected_ne_unterminatedEscape (what : Expectation) (found : Option String) :
    (Fault.expected what found).reason ≠ Fault.unterminatedEscape.reason := by
  intro h
  obtain ⟨rest, hrest⟩ := reason_expected what found
  have hhead := congrArg (fun reason : String => reason.toList.head?) (hrest.symm.trans h)
  have hE : ("Expected " ++ rest).toList.head? = some 'E' := by
    rw [String.toList_append]
    rfl
  have hU : Fault.unterminatedEscape.reason.toList.head? = some 'U' := by decide +kernel
  rw [hE, hU] at hhead
  cases hhead

/-- No token of a text is refused for an escape that is not terminated. -/
theorem Charged.reason_ne (hread : t.kind = .string → t.StringRead)
    (h : Charged here t ts fault span) : fault.reason ≠ Fault.unterminatedEscape.reason := by
  cases h with
  | unexpected what => exact reason_expected_ne_unterminatedEscape what _
  | nestedFunction | integer | negative => decide +kernel
  | string literal wrong =>
    obtain ⟨c, -, rfl⟩ := (hread literal).fault wrong
    exact reason_unknownEscape_ne c

/-- A program that cannot be read lacks a token at its end, if the budget is not spent. -/
theorem programStatements_failure {s s₁ : State} {failure : Failure} (hends : s.Ends)
    (hrun : programStatements budget s = .error failure s₁) :
    failure = .exhausted ∨ ∃ what span, failure = .fault (.expected what none) span := by
  obtain ⟨hexhausted, -⟩ | ⟨-, what, hfault⟩ := programStatements_stopped hends hrun
  · exact .inl hexhausted
  · exact .inr ⟨what, _, hfault⟩

/-- What the parser does with a string literal, wherever it stands. -/
structure HandlesString (t : Token) : Prop where
  value : (∃ v, ReadsAs t v) ↔ ∀ c ∈ t.escapes, Literal.isEscape c = true
  fault : ∀ c, t.firstUnknown? = some c → Refuses t (.unknownEscape c)
  /-- A statement that begins with the literal. -/
  beginning : ∀ c, t.firstUnknown? = some c →
    ∀ (ts : List Token) (last : Token) (depth budget : Nat), 12 ≤ budget →
      ∃ s₁, statement budget ⟨t :: ts, last, depth⟩ =
        .ok (.error t.text (Fault.unknownEscape c).reason t.span) s₁
  /-- A statement that is stopped at the literal, wherever it begins. -/
  stopped : ∀ (budget : Nat) (s s₁ : State) (fault : Fault) (span : Span) (ts : List Token),
    strictStatement budget s = .error (.fault fault span) s₁ → s₁.rest = t :: ts →
      (∃ what, what ≠ .expression ∧ fault = .expected what (some t.text)) ∨
        ∃ c, t.firstUnknown? = some c ∧ fault = .unknownEscape c ∧ span = t.span ∧
          statement (budget + 1) s =
            .ok (.error t.text (Fault.unknownEscape c).reason t.span) (s.recovered s₁)

theorem refuses_of_unknown (hk : t.kind = .string) (hread : t.StringRead)
    (hc : t.firstUnknown? = some c) : Refuses t (.unknownEscape c) := by
  cases hread with
  | value v hnone _ => rw [hnone] at hc; cases hc
  | unknown c' hsome hfault =>
    obtain rfl : c' = c := Option.some.inj (hsome.symm.trans hc)
    exact refuses_of_fault hk hfault

theorem handlesString (hk : t.kind = .string) (hread : t.StringRead) (hspelled : t.WellSpelled) :
    HandlesString t where
  value := readsAs_iff hk hread hspelled
  fault _ hc := refuses_of_unknown hk hread hc
  beginning _ hc _ _ _ _ hbudget :=
    ⟨_, statement_of_refuses hk (refuses_of_unknown hk hread hc) hbudget⟩
  stopped _ _ _ _ _ _ hstopped hrest := statement_stopped_at_string hread hk hstopped hrest

end Parser

/-! ## Round trips -/

theorem readsAs_of_writes {v : String} {cs : List Char} (h : Literal.Writes v.toList cs) :
    ∃ t, tokenize (Literal.quoted cs) = .ok [t] ∧ t.kind = .string ∧
      t.text = Literal.quoted cs ∧ Parser.ReadsAs t v ∧
      ∀ semicolon : Token, semicolon.kind = .mark .semicolon →
        parse [t, semicolon] = .ok ⟨[.expression (.literal (.string v) t.span) t.span]⟩ := by
  obtain ⟨span, htokens⟩ := Literal.tokenize_quoted h.pieces
  have hquoted : Grammar.Quoted (Literal.quoted cs) v := ⟨cs, String.toList_ofList, h.unescapes⟩
  refine ⟨_, htokens, rfl, rfl, Parser.readsAs_of_quoted rfl hquoted, fun semicolon hk => ?_⟩
  have hliteral : Grammar.Unary [⟨.string, Literal.quoted cs, span⟩, semicolon]
      (.literal (.string v) span) [semicolon] := .primary (.string rfl hquoted)
  exact parse_of_derives (.more (.expression (.joined (.joined (.joined (.joined (.joined (.joined
    (.unary hliteral) .none) .none) .none) .none) .none) .none) hk) .none)

/-- A program that is read from a text has passed over every string literal that denotes nothing
for an error node, and none of its error nodes is about an escape that is not terminated. -/
theorem errors_of_tokenize {source : String} {tokens : List Token} {program : Program}
    (htokens : tokenize source = .ok tokens) (h : parse tokens = .ok program) :
    (∃ passages, Parser.Course true tokens passages program.blocks [] ∧
      passages.map Parser.Passage.node = program.errors ∧
      ∀ t ∈ tokens, t.kind = .string → t.firstUnknown? ≠ none → ∃ p ∈ passages, t ∈ p.tokens) ∧
    ∀ node ∈ program.errors, node.reason ≠ Fault.unterminatedEscape.reason := by
  obtain ⟨passages, hcourse, hnodes⟩ := parse_course h
  refine ⟨⟨passages, hcourse, hnodes, fun t ht hk hunknown => ?_⟩, fun node hnode => ?_⟩
  · obtain ⟨inner, hinner, hdenotes⟩ := hcourse.denotes
    rw [List.append_nil] at hinner
    obtain ⟨v, hv⟩ | hpassage := hdenotes t (hinner ▸ ht) hk
    · cases stringRead_of_tokenize htokens ht hk with
      | value _ hnone _ => exact absurd hnone hunknown
      | unknown c _ hfault => rw [hv] at hfault; cases hfault
    · exact hpassage
  · rw [← hnodes] at hnode
    obtain ⟨p, hp, rfl⟩ := List.mem_map.1 hnode
    obtain ⟨_, t, _, fault, _, hbegin, hts, hcharged, hnode⟩ := hcourse.charged p hp
    have ht : t ∈ tokens := (hts.trans hbegin).mem List.mem_cons_self
    rw [hnode]
    exact hcharged.reason_ne (stringRead_of_tokenize htokens ht)

theorem parse_error_ne_unterminatedEscape {tokens : List Token} {d : Diagnostic}
    (h : parse tokens = .error d) : d.cause ≠ .syntaxFault .unterminatedEscape := by
  unfold parse at h
  split at h
  · cases h
  · next last hlast =>
    dsimp only at h
    split at h
    · cases h
    · next failure s hrun =>
      cases h
      have hends : Parser.State.Ends ⟨tokens, last, 0⟩ :=
        Parser.State.ends_of_suffix hlast List.suffix_rfl
      obtain rfl | ⟨what, span, rfl⟩ := Parser.programStatements_failure hends hrun
      · nofun
      · nofun

/-- Every string can be written between quotes, and each way to write it makes one token that is
read as that string. The other way round, of every string literal that the lexer makes, the
parser reads a value exactly if all characters that are escaped have a meaning. If not, it is
refused for the first that has none wherever an expression is due, and the statement around it
becomes an error node which says so. No escape is ever found to be unterminated. -/
theorem string_literals_read_back :
    (∀ v : String, ∃ cs, Literal.Writes v.toList cs) ∧
    (∀ (v : String) (cs : List Char), Literal.Writes v.toList cs →
      ∃ t, tokenize (Literal.quoted cs) = .ok [t] ∧ t.kind = .string ∧
        t.text = Literal.quoted cs ∧ Parser.ReadsAs t v ∧
        ∀ semicolon : Token, semicolon.kind = .mark .semicolon →
          parse [t, semicolon] = .ok ⟨[.expression (.literal (.string v) t.span) t.span]⟩) ∧
    ∀ (source : String) (tokens : List Token), tokenize source = .ok tokens →
      (∀ t ∈ tokens, t.kind = .string → Parser.HandlesString t ∧
        Literal.string t.text ≠ .error .unterminatedEscape) ∧
      (∀ program, parse tokens = .ok program →
        (∃ passages, Parser.Course true tokens passages program.blocks [] ∧
          passages.map Parser.Passage.node = program.errors ∧
          ∀ t ∈ tokens, t.kind = .string → t.firstUnknown? ≠ none →
            ∃ p ∈ passages, t ∈ p.tokens) ∧
        ∀ node ∈ program.errors, node.reason ≠ Fault.unterminatedEscape.reason) ∧
      ∀ d, parse tokens = .error d → d.cause ≠ .syntaxFault .unterminatedEscape := by
  refine ⟨fun v => Literal.exists_writes v.toList, fun v cs h => readsAs_of_writes h,
    fun source tokens htokens => ⟨fun t ht hk => ?_, fun program h => errors_of_tokenize htokens h,
      fun d h => parse_error_ne_unterminatedEscape h⟩⟩
  have hread := stringRead_of_tokenize htokens ht hk
  refine ⟨Parser.handlesString hk hread (wellSpelled_of_tokenize htokens t ht), fun hfault => ?_⟩
  obtain ⟨c, -, hc⟩ := hread.fault hfault
  cases hc

end Slate
