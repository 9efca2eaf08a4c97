-- SUMMARY: A string that is written in a quoted form is read back as it was, whichever form is chosen for it.
import Slate.Proofs.Toml.Reader
import Slate.Toml.Quoted.Writer

/-!
# Strings that are read back

A basic form can hold every string, a literal form those it can hold without escapes. Inside a
long form quotes may stand as they are, and up to two more stand directly before the three that
close it; so a quote alone does not say what it is. What tells is how many quotes stand before
it: neither writer lets three of a string stand in a row, so where two more follow a quote,
either the string has ended or it ends with them.
-/

namespace Slate.Toml

open Reader

variable {c d : Char} {n : Nat} {cs rest u w : List Char}

/-! ## Characters and digits -/

theorem isPlain_of_not_isControl (hcontrol : isControl c = false) (hline : c ≠ '\n') :
    isPlain c = true := by
  by_cases htab : c = '\t'
  · simp [isPlain, htab]
  · have hspace : ¬ c < ' ' := fun hlt => by simp [isControl, hlt, htab, hline] at hcontrol
    have hdelete : c ≠ '\x7f' := fun heq => by simp [isControl, heq] at hcontrol
    simpa [isPlain, htab, hdelete] using hspace

theorem not_lineEnd_of_isPlain (h : isPlain c = true) : c ≠ '\n' ∧ c ≠ '\r' := by
  constructor <;> rintro rfl <;> exact absurd h (by decide)

theorem toNat_lt_of_isControl (h : isControl c = true) : c.toNat < 65536 := by
  have hle : c.toNat < 32 ∨ c.toNat = 127 := by
    simp only [isControl, Bool.or_eq_true, Bool.and_eq_true, decide_eq_true_eq, beq_iff_eq] at h
    exact h.imp (fun hlt => hlt.1.1) (congrArg Char.toNat)
  omega

theorem hexDigit_digit (h : n < 16) :
    isDigitOf 16 (hexDigit n) = true ∧ digitValue (hexDigit n) = n := by
  have hall : ∀ k : Fin 16,
      isDigitOf 16 (hexDigit k) = true ∧ digitValue (hexDigit k) = k := by decide
  exact hall ⟨n, h⟩

theorem number_hex4 (h : n < 65536) : number 16 (hex4 n) = n := by
  have hvalue (k : Nat) : digitValue (hexDigit (k % 16)) = k % 16 :=
    (hexDigit_digit (Nat.mod_lt k (by decide))).2
  simp only [number, hex4, List.foldl_cons, List.foldl_nil, hvalue]
  omega

namespace Quoted

theorem scalar_hex4 (h : c.toNat < 65536) : scalar 4 (hex4 c.toNat ++ rest) = some (c, rest) := by
  have hdigits : ∀ d ∈ hex4 c.toNat, isDigitOf 16 d = true := by
    have hdigit (k : Nat) : isDigitOf 16 (hexDigit (k % 16)) = true :=
      (hexDigit_digit (Nat.mod_lt k (by decide))).1
    simp [hex4, hdigit]
  have hread : exactly (isDigitOf 16) 4 (hex4 c.toNat ++ rest) = some (hex4 c.toNat, rest) :=
    exactly_append hdigits
  rw [scalar, bind_of_eq hread]
  simp only [number_hex4 h, Char.ofNat_toNat]
  exact congrFun (if_pos c.valid) rest

/-! ## Escapes -/

/-- A character is written as a letter behind a backslash, by its number, or as it is. -/
theorem escapeChar_cases (c : Char) :
    (∃ e, escapeChar c = ['\\', e] ∧ escapeValue? e = some c ∧
      e ∉ [' ', '\t', '\n', '\r', 'u', 'U']) ∨
    (escapeChar c = '\\' :: 'u' :: hex4 c.toNat ∧ c.toNat < 65536) ∨
    (escapeChar c = [c] ∧ isPlain c = true ∧ c ≠ '"' ∧ c ≠ '\\') := by
  by_cases hbackspace : c = '\x08'
  · exact .inl ⟨'b', by subst hbackspace; decide⟩
  by_cases htab : c = '\t'
  · exact .inl ⟨'t', by subst htab; decide⟩
  by_cases hline : c = '\n'
  · exact .inl ⟨'n', by subst hline; decide⟩
  by_cases hfeed : c = '\x0c'
  · exact .inl ⟨'f', by subst hfeed; decide⟩
  by_cases hreturn : c = '\r'
  · exact .inl ⟨'r', by subst hreturn; decide⟩
  by_cases hquote : c = '"'
  · exact .inl ⟨'"', by subst hquote; decide⟩
  by_cases hbackslash : c = '\\'
  · exact .inl ⟨'\\', by subst hbackslash; decide⟩
  rw [escapeChar, if_neg hbackspace, if_neg htab, if_neg hline, if_neg hfeed, if_neg hreturn,
    if_neg hquote, if_neg hbackslash]
  cases hcontrol : isControl c with
  | true => exact .inr (.inl ⟨rfl, toNat_lt_of_isControl hcontrol⟩)
  | false =>
    exact .inr (.inr ⟨rfl, isPlain_of_not_isControl hcontrol hline, hquote, hbackslash⟩)

/-- What is written begins with no quote and with no line end. -/
theorem escapeChar_head (c : Char) :
    ∃ d u, escapeChar c = d :: u ∧ d ∉ ['"', '\n', '\r'] := by
  obtain ⟨e, he, -, -⟩ | ⟨hhex, -⟩ | ⟨hself, hplain, hquote, -⟩ := escapeChar_cases c
  · exact ⟨_, _, he, by decide⟩
  · exact ⟨_, _, hhex, by decide⟩
  · exact ⟨c, [], hself, by simp [hquote, not_lineEnd_of_isPlain hplain]⟩

theorem basicChar_escapeChar (c : Char) (rest : List Char) :
    basicChar (escapeChar c ++ rest) = some (c, rest) := by
  obtain ⟨e, he, hvalue, hnot⟩ | ⟨hhex, hlt⟩ | ⟨hself, hplain, hquote, hbackslash⟩ :=
    escapeChar_cases c
  · have hescape : escape ('\\' :: e :: rest) = some (c, rest) := by
      simp only [List.mem_cons, List.not_mem_nil, or_false, not_or] at hnot
      rw [escape, bind_of_eq char_self, bind_of_eq (satisfy_of_pos rfl)]
      simp [hnot, hvalue, liftM, monadLift, MonadLift.monadLift, StateT.lift]
    rw [he, basicChar, List.cons_append, orElse_of_none (satisfy_of_neg (by decide))]
    exact hescape
  · have hescape : escape ('\\' :: 'u' :: (hex4 c.toNat ++ rest)) = some (c, rest) := by
      rw [escape, bind_of_eq char_self, bind_of_eq (satisfy_of_pos rfl)]
      exact scalar_hex4 hlt
    rw [hhex, basicChar, List.cons_append, orElse_of_none (satisfy_of_neg (by decide))]
    exact hescape
  · rw [hself, basicChar, List.singleton_append,
      orElse_of_eq (satisfy_of_pos (by simp [hplain, hquote, hbackslash]))]

theorem basicChar_quote (rest : List Char) : basicChar ('"' :: rest) = none := by
  rw [basicChar, orElse_of_none (satisfy_of_neg (by decide))]
  exact bind_of_none (char_of_ne (by decide))

/-! ## Line ends -/

theorem newline_lineFeed (rest : List Char) : newline ('\n' :: rest) = some ((), rest) :=
  orElse_of_eq (chars_append ['\n'] rest)

theorem newline_of_head (h : ∀ d ∈ cs.head?, d ∉ ['\n', '\r']) : newline cs = none := by
  cases cs with
  | nil => rfl
  | cons d cs =>
    have hd := h d rfl
    simp only [List.mem_cons, List.not_mem_nil, or_false, not_or] at hd
    have hline : text "\n" (d :: cs) = none := bind_of_none (char_of_ne hd.1)
    rw [newline, orElse_of_none hline]
    exact bind_of_none (char_of_ne hd.2)

/-- What is written joins no lines. -/
theorem joint_escapeChar (c : Char) (rest : List Char) : joint (escapeChar c ++ rest) = none := by
  have hletter {e : Char} (hnot : e ∉ [' ', '\t', '\n', '\r']) (cs : List Char) :
      joint ('\\' :: e :: cs) = none := by
    simp only [List.mem_cons, List.not_mem_nil, or_false, not_or] at hnot
    have hblank : run isBlank (e :: cs) = some ([], e :: cs) :=
      run_of_head (by simp [isBlank, hnot])
    rw [joint, bind_of_eq char_self, bind_of_eq hblank]
    exact bind_of_none (newline_of_head (by simp [hnot]))
  obtain ⟨e, he, -, hnot⟩ | ⟨hhex, -⟩ | ⟨hself, -, -, hbackslash⟩ := escapeChar_cases c
  · rw [he]
    exact hletter (fun hmem => hnot (List.mem_append_left ['u', 'U'] hmem)) rest
  · rw [hhex]
    exact hletter (by decide) _
  · rw [hself]
    exact bind_of_none (char_of_ne hbackslash)

/-! ## Short forms -/

theorem basic_flatMap (cs rest : List Char) :
    basic ('"' :: (cs.flatMap escapeChar ++ '"' :: rest)) = some (cs, rest) := by
  have hinside : many basicChar (cs.flatMap escapeChar ++ '"' :: rest) =
      some (cs, '"' :: rest) := by
    have hne (c : Char) : escapeChar c ≠ [] := by
      obtain ⟨d, u, heq, -⟩ := escapeChar_head c
      simp [heq]
    rw [many_flatMap (fun c _ => basicChar_escapeChar c) (fun c _ => hne c)
      (many_of_none (basicChar_quote rest)), List.map_id']
  rw [basic, bind_of_eq char_self, bind_of_eq hinside, bind_of_eq char_self]
  rfl

theorem literal_eq (hcs : ∀ c ∈ cs, isPlain c = true ∧ c ≠ '\'') (rest : List Char) :
    literal ('\'' :: (cs ++ '\'' :: rest)) = some (cs, rest) := by
  have hinside : run (fun c => isPlain c && c != '\'') (cs ++ '\'' :: rest) =
      some (cs, '\'' :: rest) :=
    run_append (fun c hc => by simp [hcs c hc]) (by simp)
  rw [literal, bind_of_eq char_self, bind_of_eq hinside, bind_of_eq char_self]
  rfl

/-! ## Inside a long form -/

/-- The ways to write a text inside a long form, behind so many quotes that stand as they are:
as pieces, line ends, and at most two quotes in a row. -/
inductive Body (quote : Char) (piece : Reader (List Char)) :
    Nat → List Char → List Char → Prop where
  | nil {n : Nat} : Body quote piece n [] []
  | quote {n : Nat} {w cs : List Char} :
      n < 2 → Body quote piece (n + 1) w cs → Body quote piece n (quote :: w) (quote :: cs)
  | lineEnd {n : Nat} {w cs : List Char} :
      Body quote piece 0 w cs → Body quote piece n ('\n' :: w) ('\n' :: cs)
  | piece {n : Nat} {c d : Char} {u w cs : List Char} :
      d ∉ [quote, '\n', '\r'] → (∀ rest, piece (d :: u ++ rest) = some ([c], rest)) →
      Body quote piece 0 w cs → Body quote piece n (d :: u ++ w) (c :: cs)

section

variable {quote : Char} {piece : Reader (List Char)} {last : List Char}

/-- Where two more quotes follow a quote, the text has ended or ends with them. -/
theorem Body.eq_of_two (hquote : quote ∉ ['\n', '\r']) (h : Body quote piece (n + 1) w cs)
    (hstart : [quote, quote] <+: w ++ ([quote, quote, quote] ++ rest)) :
    w = cs ∧ (cs = [] ∨ cs = [quote]) := by
  cases h with
  | nil => exact ⟨rfl, .inl rfl⟩
  | quote hlt hbody =>
    have htail := (List.cons_prefix_cons.mp hstart).2
    cases hbody with
    | nil => exact ⟨rfl, .inr rfl⟩
    | quote hlt' => omega
    | lineEnd => simp_all
    | piece hd => simp_all
  | lineEnd => simp_all
  | piece hd => simp_all

theorem innerQuote_self (h : ¬ [quote, quote] <+: cs) :
    innerQuote quote (quote :: cs) = some ([quote], cs) := by
  simp [innerQuote, h]

theorem innerQuote_of_two (h : [quote, quote] <+: cs) : innerQuote quote (quote :: cs) = none := by
  simp [innerQuote, h]

theorem innerQuote_of_ne (h : d ≠ quote) : innerQuote quote (d :: cs) = none := by
  simp [innerQuote, h]

/-- What is written is read piece by piece, up to the quotes at its end. -/
theorem Body.many_eq (hquote : quote ∉ ['\n', '\r'])
    (hpiece : ∀ rest, piece (quote :: rest) = none) (h : Body quote piece n w cs)
    (rest : List Char) :
    ∃ pieces last, pieces.flatten ++ last = cs ∧ last ∈ [[], [quote], [quote, quote]] ∧
      many (innerQuote quote <|> Quoted.lineEnd <|> piece) (w ++ ([quote, quote, quote] ++ rest)) =
        some (pieces, last ++ ([quote, quote, quote] ++ rest)) := by
  have hclose (cs : List Char) (h : [quote, quote] <+: cs) :
      many (innerQuote quote <|> Quoted.lineEnd <|> piece) (quote :: cs) =
        some ([], quote :: cs) := by
    have hline : Quoted.lineEnd (quote :: cs) = none :=
      bind_of_none (newline_of_head (by simpa using hquote))
    refine many_of_none ?_
    rw [orElse_of_none (innerQuote_of_two h), orElse_of_none hline, hpiece]
  -- Pieces are read off the front of what is written; only a quote needs a look at what follows.
  induction h with
  | nil => exact ⟨[], [], rfl, by simp, hclose _ (by simp)⟩
  | @quote n w cs hlt hbody ih =>
    by_cases hstart : [quote, quote] <+: w ++ ([quote, quote, quote] ++ rest)
    · obtain ⟨rfl, hend⟩ := hbody.eq_of_two hquote hstart
      refine ⟨[], quote :: w, rfl, ?_, hclose _ hstart⟩
      rcases hend with rfl | rfl <;> simp
    · obtain ⟨pieces, last, heq, hlast, hread⟩ := ih
      refine ⟨[quote] :: pieces, last, by simp [← heq], hlast, ?_⟩
      exact many_of_eq (orElse_of_eq (innerQuote_self hstart)) (by simp) hread
  | lineEnd hbody ih =>
    obtain ⟨pieces, last, heq, hlast, hread⟩ := ih
    refine ⟨['\n'] :: pieces, last, by simp [← heq], hlast, ?_⟩
    have hne : '\n' ≠ quote := by simp_all [eq_comm]
    refine many_of_eq ?_ (by simp) hread
    rw [List.cons_append, orElse_of_none (innerQuote_of_ne hne)]
    exact orElse_of_eq (bind_of_eq (newline_lineFeed _))
  | @piece n c d u w cs hd hread' hbody ih =>
    obtain ⟨pieces, last, heq, hlast, hread⟩ := ih
    refine ⟨[c] :: pieces, last, by simp [← heq], hlast, ?_⟩
    simp only [List.mem_cons, List.not_mem_nil, or_false, not_or] at hd
    have hline (cs : List Char) : Quoted.lineEnd (d :: cs) = none :=
      bind_of_none (newline_of_head (by simp [hd]))
    have hlt : (w ++ ([quote, quote, quote] ++ rest)).length <
        (d :: u ++ w ++ ([quote, quote, quote] ++ rest)).length := by
      simp only [List.length_append, List.length_cons]
      omega
    refine many_of_eq ?_ hlt hread
    rw [List.append_assoc, List.cons_append, orElse_of_none (innerQuote_of_ne hd.1),
      orElse_of_none (hline _)]
    exact hread' _

theorem closing_eq (h : last ∈ [[], [quote], [quote, quote]])
    (hrest : ∀ d ∈ rest.head?, d ≠ quote) :
    closing quote (last ++ ([quote, quote, quote] ++ rest)) = some (last, rest) := by
  have hnone {ws : List Char} : chars (quote :: ws) rest = none := by
    refine chars_eq_none fun hstart => ?_
    obtain ⟨cs, rfl⟩ := hstart
    exact hrest quote rfl rfl
  have hchar : char quote rest = none := by
    cases rest with
    | nil => rfl
    | cons d rest => exact char_of_ne (hrest d rfl)
  simp only [List.mem_cons, List.not_mem_nil, or_false] at h
  obtain rfl | rfl | rfl := h
  · rw [List.nil_append, closing, bind_of_eq (chars_append _ rest),
      orElse_of_none (bind_of_none hnone), orElse_of_none (bind_of_none hchar)]
    rfl
  · have htwo : chars [quote, quote] (quote :: rest) = none :=
      (bind_of_eq char_self).trans hnone
    have hopen : chars [quote, quote, quote] ([quote] ++ ([quote, quote, quote] ++ rest)) =
        some ((), quote :: rest) := chars_append [quote, quote, quote] (quote :: rest)
    rw [closing, bind_of_eq hopen, orElse_of_none (bind_of_none htwo),
      orElse_of_eq (bind_of_eq char_self)]
  · have hopen : chars [quote, quote, quote] ([quote, quote] ++ ([quote, quote, quote] ++ rest)) =
        some ((), quote :: quote :: rest) :=
      chars_append [quote, quote, quote] (quote :: quote :: rest)
    rw [closing, bind_of_eq hopen,
      orElse_of_eq (bind_of_eq (chars_append [quote, quote] rest))]

/-- What stands for a text without line ends does not begin with one. -/
theorem Body.head (hquote : quote ∉ ['\n', '\r']) (h : Body quote piece n w cs)
    (hline : '\n' ∉ cs) :
    ∀ d ∈ (w ++ ([quote, quote, quote] ++ rest)).head?, d ∉ ['\n', '\r'] := by
  cases h with
  | nil | quote => simpa using hquote
  | lineEnd => exact absurd List.mem_cons_self hline
  | piece hd => simp_all

/-! ## Long forms -/

/-- The line end that begins a long form whose text has one. -/
abbrev lead (cs : List Char) : List Char := if '\n' ∈ cs then ['\n'] else []

theorem longForm_eq (hquote : quote ∉ ['\n', '\r'])
    (hpiece : ∀ rest, piece (quote :: rest) = none) (h : Body quote piece 0 w cs)
    (hrest : ∀ d ∈ rest.head?, d ≠ quote) :
    longForm quote piece
        ([quote, quote, quote] ++ (lead cs ++ (w ++ ([quote, quote, quote] ++ rest)))) =
      some (cs, rest) := by
  obtain ⟨pieces, last, heq, hlast, hread⟩ := h.many_eq hquote hpiece rest
  have hlead : (newline <|> pure ()) (lead cs ++ (w ++ ([quote, quote, quote] ++ rest))) =
      some ((), w ++ ([quote, quote, quote] ++ rest)) := by
    by_cases hline : '\n' ∈ cs
    · rw [lead, if_pos hline]
      exact orElse_of_eq (newline_lineFeed _)
    · rw [lead, if_neg hline, List.nil_append,
        orElse_of_none (newline_of_head (h.head hquote hline))]
      rfl
  rw [longForm, bind_of_eq (chars_append _ _), bind_of_eq hlead, bind_of_eq hread,
    bind_of_eq (closing_eq hlast hrest), heq]
  rfl

theorem longForm_eq_none (h : ¬ [quote, quote, quote] <+: cs) :
    longForm quote piece cs = none :=
  bind_of_none (chars_eq_none h)

end

/-! ## What the writer writes -/

/-- What is written in the long basic form, where every third quote of a run is escaped. -/
theorem body_escapeLong (n : Nat) (cs : List Char) :
    Body '"' (joint <|> (do let c ← basicChar; return [c])) n (escapeLong n cs) cs := by
  fun_induction escapeLong n cs with
  | case1 => exact .nil
  | case2 n c cs h ih =>
    obtain ⟨rfl, hlt⟩ := h
    exact .quote hlt ih
  | case3 n cs _ ih => exact .lineEnd ih
  | case4 n c cs _ _ ih =>
    obtain ⟨d, u, heq, hd⟩ := escapeChar_head c
    rw [heq]
    refine .piece hd (fun rest => ?_) ih
    rw [← heq, orElse_of_none (joint_escapeChar c rest)]
    exact bind_of_eq (basicChar_escapeChar c rest)

theorem hasTriple_of_append {quote : Char} (h : hasTriple quote (u ++ w) = false) :
    hasTriple quote w = false := by
  induction u with
  | nil => exact h
  | cons c u ih => exact ih (by simp_all [hasTriple])

/-- What is written in the long literal form, as it is. -/
theorem body_self (hcontrol : ∀ c ∈ cs, isControl c = false)
    (htriple : hasTriple '\'' (List.replicate n '\'' ++ cs) = false) :
    Body '\'' (do let c ← satisfy fun c => isPlain c && c != '\''; return [c]) n cs cs := by
  induction cs generalizing n with
  | nil => exact .nil
  | cons c cs ih =>
    have hcontrol' : ∀ d ∈ cs, isControl d = false :=
      fun d hd => hcontrol d (List.mem_cons_of_mem _ hd)
    by_cases hquote : c = '\''
    · subst hquote
      -- with two before it the quote would be the third in a row
      have hlt : n < 2 := by
        refine Nat.lt_of_not_le fun hge => ?_
        obtain ⟨m, rfl⟩ := Nat.exists_eq_add_of_le' hge
        rw [List.replicate_succ', List.replicate_succ', List.append_assoc, List.append_assoc]
          at htriple
        exact absurd (hasTriple_of_append htriple) (by simp [hasTriple])
      refine .quote hlt (ih hcontrol' ?_)
      rwa [List.replicate_succ', List.append_assoc]
    · have hbehind : hasTriple '\'' cs = false :=
        hasTriple_of_append (u := List.replicate n '\'' ++ [c]) (by simpa using htriple)
      have htail : Body '\'' _ 0 cs cs := ih hcontrol' hbehind
      by_cases hline : c = '\n'
      · subst hline
        exact .lineEnd htail
      · have hplain := isPlain_of_not_isControl (hcontrol c List.mem_cons_self) hline
        have hhead : c ∉ ['\'', '\n', '\r'] := by simp [hquote, not_lineEnd_of_isPlain hplain]
        refine .piece (u := []) hhead (fun rest => ?_) htail
        exact bind_of_eq (satisfy_of_pos (by simp [hplain, hquote]))

/-! ## Reading each form back -/

/-- The quotes of a short form do not open a long one, even if there is nothing in it. -/
theorem not_prefix_short {quote : Char} (hu : ∀ d ∈ u.head?, d ≠ quote)
    (hrest : ∀ d ∈ rest.head?, d ≠ quote) :
    ¬ [quote, quote, quote] <+: quote :: (u ++ quote :: rest) := by
  intro hstart
  have htail := (List.cons_prefix_cons.mp hstart).2
  cases u with
  | nil =>
    obtain ⟨cs, rfl⟩ := (List.cons_prefix_cons.mp htail).2
    exact hrest quote rfl rfl
  | cons d u => exact hu d rfl (List.cons_prefix_cons.mp htail).1.symm

theorem basic_writeAs (hrest : ∀ d ∈ rest.head?, d ≠ '"') (r : Reader (List Char)) :
    (longBasic <|> basic <|> r) (writeAs .basic cs ++ rest) = some (cs, rest) := by
  have htext : writeAs .basic cs ++ rest = '"' :: (cs.flatMap escapeChar ++ '"' :: rest) := by
    simp [writeAs, Form.mark, Form.long, Form.quote, inside]
  have hhead : ∀ d ∈ (cs.flatMap escapeChar).head?, d ≠ '"' := by
    cases cs with
    | nil => simp
    | cons c cs =>
      obtain ⟨d, u, heq, hd⟩ := escapeChar_head c
      simp_all
  have hlong : longBasic ('"' :: (cs.flatMap escapeChar ++ '"' :: rest)) = none :=
    longForm_eq_none (not_prefix_short hhead hrest)
  rw [htext, orElse_of_none hlong, orElse_of_eq (basic_flatMap cs rest)]

theorem longBasic_writeAs (hrest : ∀ d ∈ rest.head?, d ≠ '"') :
    longBasic (writeAs .longBasic cs ++ rest) = some (cs, rest) := by
  have htext : writeAs .longBasic cs ++ rest =
      ['"', '"', '"'] ++ (lead cs ++ (escapeLong 0 cs ++ (['"', '"', '"'] ++ rest))) := by
    simp [writeAs, Form.mark, Form.long, Form.quote, inside, List.replicate]
  have hpiece (cs : List Char) :
      (joint <|> (do let c ← basicChar; return [c])) ('"' :: cs) = none := by
    have hjoint : joint ('"' :: cs) = none := bind_of_none (char_of_ne (by decide))
    rw [orElse_of_none hjoint]
    exact bind_of_none (basicChar_quote cs)
  rw [htext]
  exact longForm_eq (by decide) hpiece (body_escapeLong 0 cs) hrest

/-- A text in a literal form is in no basic one. -/
theorem orElse_literal (r : Reader (List Char)) (cs : List Char) :
    (longBasic <|> basic <|> r) ('\'' :: cs) = r ('\'' :: cs) := by
  have hlong : longBasic ('\'' :: cs) = none := longForm_eq_none (by simp)
  have hshort : basic ('\'' :: cs) = none := bind_of_none (char_of_ne (by decide))
  rw [orElse_of_none hlong, orElse_of_none hshort]

theorem literal_writeAs (hholds : Form.holds .literal cs = true)
    (hrest : ∀ d ∈ rest.head?, d ≠ '\'') :
    (longBasic <|> basic <|> longLiteral <|> literal) (writeAs .literal cs ++ rest) =
      some (cs, rest) := by
  simp only [Form.holds, Bool.and_eq_true, Bool.not_eq_true', List.any_eq_false,
    List.contains_eq_mem, decide_eq_false_iff_not] at hholds
  obtain ⟨hcontrol, hquote, hline⟩ := hholds
  have hcs : ∀ c ∈ cs, isPlain c = true ∧ c ≠ '\'' := by
    intro c hc
    have hc' : isControl c = false := by simpa using hcontrol c hc
    exact ⟨isPlain_of_not_isControl hc' fun heq => hline (heq ▸ hc), fun heq => hquote (heq ▸ hc)⟩
  have htext : writeAs .literal cs ++ rest = '\'' :: (cs ++ '\'' :: rest) := by
    simp [writeAs, Form.mark, Form.long, Form.quote, inside]
  have hhead : ∀ d ∈ cs.head?, d ≠ '\'' := fun d hd => (hcs d (List.mem_of_mem_head? hd)).2
  have hlong : longLiteral ('\'' :: (cs ++ '\'' :: rest)) = none :=
    longForm_eq_none (not_prefix_short hhead hrest)
  rw [htext, orElse_literal, orElse_of_none hlong, literal_eq hcs rest]

theorem longLiteral_writeAs (hholds : Form.holds .longLiteral cs = true)
    (hrest : ∀ d ∈ rest.head?, d ≠ '\'') :
    (longBasic <|> basic <|> longLiteral <|> literal) (writeAs .longLiteral cs ++ rest) =
      some (cs, rest) := by
  simp only [Form.holds, Bool.and_eq_true, Bool.not_eq_true', List.any_eq_false] at hholds
  have hbody := body_self (n := 0) (by simpa using hholds.1) hholds.2
  have htext : writeAs .longLiteral cs ++ rest =
      ['\'', '\'', '\''] ++ (lead cs ++ (cs ++ (['\'', '\'', '\''] ++ rest))) := by
    simp [writeAs, Form.mark, Form.long, Form.quote, inside, List.replicate]
  have hpiece (cs : List Char) :
      (do let c ← satisfy fun c => isPlain c && c != '\''; return [c] : Reader (List Char))
        ('\'' :: cs) = none :=
    bind_of_none (satisfy_of_neg (by decide))
  rw [htext]
  exact (orElse_literal _ _).trans (orElse_of_eq (longForm_eq (by decide) hpiece hbody hrest))

end Quoted

/-! ## Reading back -/

open Quoted

theorem Form.of_holds (cs : List Char) :
    (Form.of cs).quote = '"' ∨ (Form.of cs).holds cs = true := by
  rw [Form.of]
  cases hfind : Form.all.find? (·.holds cs) with
  | some f => exact .inr (List.find?_some (p := fun f : Form => f.holds cs) hfind)
  | none =>
    refine .inl ?_
    dsimp only
    split <;> rfl

/-- A string in a form that can hold it, with escapes or without, is read back. -/
theorem quoted_writeAs {f : Form} (hform : f.quote = '"' ∨ f.holds cs = true)
    (hrest : ∀ d ∈ rest.head?, d ≠ f.quote) :
    quoted (writeAs f cs ++ rest) = some (String.ofList cs, rest) := by
  have hread : (longBasic <|> basic <|> longLiteral <|> literal) (writeAs f cs ++ rest) =
      some (cs, rest) := by
    cases f with
    | basic => exact basic_writeAs hrest _
    | literal => exact literal_writeAs (hform.resolve_left (by decide)) hrest
    | longBasic => exact orElse_of_eq (longBasic_writeAs hrest)
    | longLiteral => exact longLiteral_writeAs (hform.resolve_left (by decide)) hrest
  rw [quoted, bind_of_eq hread]
  rfl

/-- A written string begins with its quote. -/
theorem writeAs_eq_cons (f : Form) (cs : List Char) : ∃ ws, writeAs f cs = f.quote :: ws := by
  cases f <;> exact ⟨_, rfl⟩

/-- Every string is written so that it is read back. -/
theorem quoted_write (hrest : ∀ d ∈ rest.head?, d ≠ '"' ∧ d ≠ '\'') :
    quoted (write cs ++ rest) = some (String.ofList cs, rest) := by
  refine quoted_writeAs (Form.of_holds cs) fun d hd => ?_
  cases Form.of cs with
  | basic | longBasic => exact (hrest d hd).1
  | literal | longLiteral => exact (hrest d hd).2

end Slate.Toml
