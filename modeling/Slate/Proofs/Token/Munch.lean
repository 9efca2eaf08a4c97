-- SUMMARY: What the lexer cuts off at the front of a text is what the rule with the longest match takes.
import Slate.Proofs.Token.Pattern

/-!
# The cut of the lexer

`munch` looks at the first character of a text and then reads on as far as it can.
Each rule has matches that begin with one kind of characters only, so that few
rules are in the running at a time: for words, those of reserved words give way to
a longer identifier, and for marks the longer ones are tried first.
-/

namespace Slate

open scoped Computability

/-! ## Marks -/

namespace Mark

theorem mem_all (m : Mark) : m ∈ all := by
  cases m <;> decide

theorem length_text_le (m : Mark) : m.text.toList.length ≤ 2 := by
  cases m <;> decide

end Mark

namespace Lexer

/-- The mark found at the front of a text is the longest there. -/
theorem markAt_eq_some {cs : List Char} {m : Mark} (h : markAt cs = some m) :
    m.text.toList <+: cs ∧ ∀ m' : Mark, m'.text.toList <+: cs →
      m'.text.toList.length ≤ m.text.toList.length := by
  obtain ⟨hfront, before, behind, hall, hbefore⟩ := List.find?_eq_some_iff_append.1 h
  refine ⟨List.isPrefixOf_iff_prefix.1 hfront, ?_⟩
  intro m' hm'
  have hsorted : Mark.all.Pairwise fun a b => b.text.toList.length ≤ a.text.toList.length := by
    decide
  have hmem := m'.mem_all
  rw [hall] at hsorted hmem
  rw [List.mem_append, List.mem_cons] at hmem
  obtain hmem | rfl | hmem := hmem
  · have hnot := hbefore m' hmem
    rw [List.isPrefixOf_iff_prefix.2 hm'] at hnot
    cases hnot
  · exact Nat.le_refl _
  · exact (List.pairwise_cons.1 (List.pairwise_append.1 hsorted).2.1).1 m' hmem

theorem markAt_eq_none {cs : List Char} (h : markAt cs = none) (m : Mark) :
    ¬ m.text.toList <+: cs := by
  intro hfront
  exact List.find?_eq_none.1 h m m.mem_all (List.isPrefixOf_iff_prefix.2 hfront)

theorem markAt_text (m : Mark) : markAt m.text.toList = some m := by
  cases m <;> decide

/-! ## First characters -/

/-- The kinds of characters that a match can begin with. -/
inductive Opening where
  | blank
  | word
  | digit
  | quote
  | other
deriving DecidableEq

def Opening.of (c : Char) : Opening :=
  if isWordStart c then .word
  else if c.isDigit then .digit
  else if c = '"' then .quote
  else if isBlank c then .blank
  else .other

/-- How the matches of a rule begin. -/
def Rule.opening : Rule → Opening
  | blanks => .blank
  | token (.keyword _) | token (.typeName _) | token .identifier => .word
  | token .integer => .digit
  | token .string => .quote
  | comment | token (.mark _) => .other

theorem opening_of_isWordStart {c : Char} (h : isWordStart c = true) : Opening.of c = .word :=
  if_pos h

theorem opening_of_isDigit {c : Char} (h : c.isDigit = true) : Opening.of c = .digit := by
  have hnine : c ≤ '9' := (isDigit_iff.1 h).2
  have hword : isWordStart c = false := by
    rw [Bool.eq_false_iff]
    intro hword
    obtain (hlower | hupper) | rfl := isWordStart_iff.1 hword
    · exact absurd (Char.le_trans hlower.1 hnine) (by decide)
    · exact absurd (Char.le_trans hupper.1 hnine) (by decide)
    · exact absurd hnine (by decide)
  simp [Opening.of, hword, h]

theorem opening_of_isBlank {c : Char} (h : isBlank c = true) : Opening.of c = .blank := by
  obtain rfl | rfl | rfl | rfl | rfl := isBlank_iff.1 h <;> decide

/-- Every match is a text that begins as its rule says. -/
theorem Rule.opens {rule : Rule} {w : List Char} (h : w ∈ rule.pattern) :
    ∃ c v, w = c :: v ∧ Opening.of c = rule.opening := by
  cases rule with
  | blanks =>
    obtain ⟨c, v, hc, -, rfl⟩ := mem_run.1 h
    exact ⟨c, v, rfl, opening_of_isBlank (isBlank_iff.2 hc)⟩
  | comment =>
    rw [pattern, mul_assoc, mem_one_mul] at h
    obtain ⟨c, v, rfl, -, rfl⟩ := h
    exact ⟨_, v, rfl, by decide⟩
  | token kind =>
    cases kind with
    | keyword k =>
      obtain rfl := Set.mem_singleton_iff.1 h
      cases k <;> exact ⟨_, _, rfl, by decide⟩
    | typeName ty =>
      obtain rfl := Set.mem_singleton_iff.1 h
      cases ty <;> exact ⟨_, _, rfl, by decide⟩
    | identifier =>
      obtain ⟨c, v, hc, -, rfl⟩ := mem_run.1 h
      exact ⟨c, v, rfl, opening_of_isWordStart (isWordStart_iff.2 hc)⟩
    | integer =>
      obtain ⟨c, v, hc, -, rfl⟩ := mem_run.1 h
      exact ⟨c, v, rfl, opening_of_isDigit (isDigit_iff.2 hc)⟩
    | string =>
      rw [pattern, Kind.pattern, mul_assoc, mem_one_mul] at h
      obtain ⟨c, v, rfl, -, rfl⟩ := h
      exact ⟨_, v, rfl, by decide⟩
    | mark m =>
      obtain rfl := Set.mem_singleton_iff.1 h
      cases m <;> exact ⟨_, _, rfl, by decide⟩

/-! ## Runs of characters -/

/-- Among the parts of the front that go on with characters of one class, the longest takes
all of them. -/
theorem length_le_takeWhile {p : Char → Bool} {v cs : List Char} (hv : ∀ c ∈ v, p c = true)
    (hfront : v <+: cs) : v.length ≤ (cs.takeWhile p).length := by
  obtain ⟨rest, rfl⟩ := hfront
  rw [List.takeWhile_append_of_pos hv, List.length_append]
  exact Nat.le_add_right _ _

theorem mem_takeWhile {p : Char → Bool} {c : Char} {cs : List Char} (h : c ∈ cs.takeWhile p) :
    p c = true :=
  List.all_eq_true.1 List.all_takeWhile c h

theorem prefix_cons_takeWhile (p : Char → Bool) (c : Char) (cs : List Char) :
    c :: cs.takeWhile p <+: c :: cs :=
  List.cons_prefix_cons.2 ⟨rfl, List.takeWhile_prefix p⟩

section

variable {p q : Char → Prop} {part : Char → Bool} {c : Char} {cs v : List Char}

theorem cons_takeWhile_mem_run (hpart : ∀ {d}, part d = true ↔ q d) (hc : p c) :
    c :: cs.takeWhile part ∈ one p * (one q)∗ :=
  mem_run.2 ⟨c, _, hc, fun _ hd => hpart.1 (mem_takeWhile hd), rfl⟩

theorem length_le_of_mem_run (hpart : ∀ {d}, part d = true ↔ q d)
    (hv : v ∈ one p * (one q)∗) (hfront : v <+: c :: cs) :
    v.length ≤ (c :: cs.takeWhile part).length := by
  obtain ⟨d, v, -, hq, rfl⟩ := mem_run.1 hv
  exact Nat.succ_le_succ (length_le_takeWhile (fun e he => hpart.2 (hq e he))
    (List.cons_prefix_cons.1 hfront).2)

end

variable {c : Char} {cs : List Char}

/-- A match at the front begins as the text does. -/
theorem Rule.opening_eq {rule : Rule} {v : List Char} (hv : v ∈ rule.pattern)
    (hfront : v <+: c :: cs) : rule.opening = Opening.of c := by
  obtain ⟨d, v, rfl, hopening⟩ := rule.opens hv
  obtain ⟨rfl, -⟩ := List.cons_prefix_cons.1 hfront
  exact hopening.symm

/-- Where just one rule begins as the text does, its longest match is taken. -/
theorem Rule.takes_of_opening {rule : Rule} {w : List Char}
    (honly : ∀ other : Rule, other.opening = Opening.of c → other = rule)
    (hfits : w ∈ rule.pattern) (hfront : w <+: c :: cs)
    (hlongest : ∀ v ∈ rule.pattern, v <+: c :: cs → v.length ≤ w.length) :
    rule.Takes w (c :: cs) := by
  refine ⟨hfits, hfront, ?_, ?_⟩
  · intro other v hv hvfront
    obtain rfl := honly other (other.opening_eq hv hvfront)
    exact hlongest v hv hvfront
  · intro other hw
    exact .inl (honly other (other.opening_eq hw hfront))

/-! ## Blanks, comments and marks -/

theorem takes_blanks (h : isBlank c = true) :
    Rule.blanks.Takes (c :: cs.takeWhile isBlank) (c :: cs) := by
  refine Rule.takes_of_opening ?_ (cons_takeWhile_mem_run isBlank_iff (isBlank_iff.1 h))
    (prefix_cons_takeWhile _ _ _) (fun v hv hfront => length_le_of_mem_run isBlank_iff hv hfront)
  intro other hother
  rw [opening_of_isBlank h] at hother
  match other with
  | .blanks => rfl

/-- No mark begins with two slashes, so no other rule matches as much. -/
theorem takes_comment :
    Rule.comment.Takes ('/' :: '/' :: cs.takeWhile (· != '\n')) ('/' :: '/' :: cs) := by
  have hfront : '/' :: '/' :: cs.takeWhile (· != '\n') <+: '/' :: '/' :: cs :=
    List.cons_prefix_cons.2 ⟨rfl, prefix_cons_takeWhile _ _ _⟩
  refine ⟨mem_comment.2 ⟨_, fun d hd => by simpa using mem_takeWhile hd, rfl⟩, hfront, ?_, ?_⟩
  · intro other v hv hvfront
    match other, other.opening_eq hv hvfront with
    | .comment, _ =>
      obtain ⟨u, hu, rfl⟩ := mem_comment.1 hv
      have hrest := (List.cons_prefix_cons.1 (List.cons_prefix_cons.1 hvfront).2).2
      exact Nat.add_le_add_right (length_le_takeWhile (by simpa using hu) hrest) 2
    | .token (.mark m), _ =>
      rw [Set.mem_singleton_iff.1 hv]
      exact Nat.le_trans m.length_text_le (Nat.le_add_left 2 _)
  · intro other hw
    match other, other.opening_eq hw hfront with
    | .comment, _ => exact .inl rfl
    | .token (.mark m), _ =>
      have hm := Set.mem_singleton_iff.1 hw
      cases m <;> simp [Mark.text] at hm

/-! ## Words and integers -/

theorem takes_integer (h : c.isDigit = true) :
    (Rule.token .integer).Takes (c :: cs.takeWhile Char.isDigit) (c :: cs) := by
  refine Rule.takes_of_opening ?_ (cons_takeWhile_mem_run isDigit_iff (isDigit_iff.1 h))
    (prefix_cons_takeWhile _ _ _) (fun v hv hfront => length_le_of_mem_run isDigit_iff hv hfront)
  intro other hother
  rw [opening_of_isDigit h] at hother
  match other with
  | .token .integer => rfl

theorem mem_identifier_of_all {word : List Char} (hstart : (word.head?.any isWordStart) = true)
    (hparts : word.tail.all isWordPart = true) : word ∈ Kind.identifier.pattern := by
  cases word with
  | nil => cases hstart
  | cons d word =>
    exact mem_run.2 ⟨d, word, isWordStart_iff.1 hstart,
      fun e he => isWordPart_iff.1 (List.all_eq_true.1 hparts e he), rfl⟩

/-- Reserved words and type names are identifiers by their letters. -/
theorem mem_identifier_of_opening {rule : Rule} (hrule : rule.opening = .word)
    {word : List Char} (h : word ∈ rule.pattern) : word ∈ Kind.identifier.pattern := by
  match rule with
  | .token (.keyword k) =>
    obtain rfl := Set.mem_singleton_iff.1 h
    cases k <;> exact mem_identifier_of_all (by decide) (by decide)
  | .token (.typeName ty) =>
    obtain rfl := Set.mem_singleton_iff.1 h
    cases ty <;> exact mem_identifier_of_all (by decide) (by decide)
  | .token .identifier => exact h

theorem wordKind_keyword (k : Keyword) : wordKind k.text.toList = .keyword k := by
  cases k <;> decide

theorem wordKind_typeName (ty : Ty) : wordKind ty.text.toList = .typeName ty := by
  cases ty <;> decide

theorem mem_wordKind {word : List Char} (h : word ∈ Kind.identifier.pattern) :
    word ∈ (wordKind word).pattern := by
  unfold wordKind
  split
  · next k hk =>
    have hk := List.find?_some hk
    exact (beq_iff_eq.1 hk).symm
  · split
    · next ty hty =>
      have hty := List.find?_some hty
      exact (beq_iff_eq.1 hty).symm
    · exact h

theorem takes_word (h : isWordStart c = true) :
    (Rule.token (wordKind (c :: cs.takeWhile isWordPart))).Takes
      (c :: cs.takeWhile isWordPart) (c :: cs) := by
  have hfront := prefix_cons_takeWhile isWordPart c cs
  have hidentifier : c :: cs.takeWhile isWordPart ∈ Kind.identifier.pattern :=
    cons_takeWhile_mem_run isWordPart_iff (isWordStart_iff.1 h)
  refine ⟨mem_wordKind hidentifier, hfront, ?_, ?_⟩
  · intro other v hv hvfront
    have hopening := (other.opening_eq hv hvfront).trans (opening_of_isWordStart h)
    exact length_le_of_mem_run isWordPart_iff (mem_identifier_of_opening hopening hv) hvfront
  · intro other hw
    have hopening := (other.opening_eq hw hfront).trans (opening_of_isWordStart h)
    match other with
    | .token (.keyword k) =>
      rw [Set.mem_singleton_iff.1 hw, wordKind_keyword]
      exact .inl rfl
    | .token (.typeName ty) =>
      rw [Set.mem_singleton_iff.1 hw, wordKind_typeName]
      exact .inl rfl
    | .token .identifier => exact .inr rfl

/-! ## Strings -/

/-- Adds to the number of characters passed over. -/
def shift (k : Nat) : Except Nat Nat → Except Nat Nat
  | .ok n => .ok (n + k)
  | .error n => .error (n + k)

theorem stringBody_piece {piece : List Char} (h : piece ∈ stringPiece) (cs : List Char) :
    stringBody (piece ++ cs) = shift piece.length (stringBody cs) := by
  obtain ⟨d, ⟨hquote, hbackslash⟩, rfl⟩ | h := h
  · rw [List.singleton_append, stringBody.eq_5 _ _ hquote (fun _ _ h _ => hbackslash h)
      (fun h _ => hbackslash h)]
    cases stringBody cs <;> rfl
  · obtain ⟨_, _, rfl, ⟨d, hd, rfl⟩, rfl⟩ := mem_one_mul.1 h
    rw [List.cons_append, List.singleton_append, stringBody, if_neg hd]
    cases stringBody cs <;> rfl

/-- Pieces of a string are passed over. -/
theorem stringBody_append {w : List Char} (hw : w ∈ stringPiece∗) (cs : List Char) :
    stringBody (w ++ cs) = shift w.length (stringBody cs) := by
  obtain ⟨pieces, rfl, hpieces⟩ := Language.mem_kstar.1 hw
  clear hw
  induction pieces with
  | nil => cases h : stringBody cs <;> simp [h, shift]
  | cons piece pieces ih =>
    obtain ⟨hpiece, hpieces⟩ := List.forall_mem_cons.1 hpieces
    rw [List.flatten_cons, List.append_assoc, stringBody_piece hpiece, ih hpieces]
    cases stringBody cs <;> simp only [shift, List.length_append] <;> congr 1 <;> omega

theorem stringBody_closed {w : List Char} (hw : w ∈ stringPiece∗) (more : List Char) :
    stringBody (w ++ '"' :: more) = .ok (w.length + 1) := by
  rw [stringBody_append hw, stringBody, shift, Nat.add_comm]

theorem stringBody_unclosed {w rest : List Char} (hw : w ∈ stringPiece∗) (h : Unclosed rest) :
    stringBody (w ++ rest) = .error w.length := by
  have hrest : stringBody rest = .error 0 := by
    obtain rfl | rfl | ⟨more, rfl⟩ := h
    · rfl
    · rfl
    · simp [stringBody]
  rw [stringBody_append hw, hrest, shift, Nat.zero_add]

/-- A string at the front of a text is as long as its body says. -/
theorem stringBody_of_mem {w : List Char} (hw : w ∈ Kind.string.pattern)
    (hfront : w <+: c :: cs) : stringBody cs = .ok (w.length - 1) := by
  obtain ⟨v, hv, rfl⟩ := mem_string.1 hw
  obtain ⟨more, hmore⟩ := (List.cons_prefix_cons.1 hfront).2
  rw [← hmore, List.append_assoc, List.singleton_append, stringBody_closed hv]
  simp

theorem takes_string {n : Nat} (h : stringBody cs = .ok n) :
    ∃ w, w.length = n + 1 ∧ (Rule.token .string).Takes w ('"' :: cs) := by
  obtain ⟨w, rest, hw, rfl, ⟨more, rfl⟩ | hrest⟩ := exists_stringPieces cs
  · have hn := Except.ok.inj ((stringBody_closed hw more).symm.trans h)
    refine ⟨'"' :: (w ++ ['"']), by simp [← hn], ?_⟩
    refine Rule.takes_of_opening ?_ (mem_string.2 ⟨w, hw, rfl⟩) ⟨more, by simp⟩ ?_
    · intro other hother
      match other with
      | .token .string => rfl
    · intro v hv hfront
      have hv := Except.ok.inj ((stringBody_of_mem hv hfront).symm.trans h)
      simp only [List.length_cons, List.length_append, List.length_nil]
      omega
  · rw [stringBody_unclosed hw hrest] at h
    cases h

/-- A string that does not close is no token, and all of its pieces are to blame. -/
theorem stuck_string {n : Nat} (h : stringBody cs = .error n) :
    Stuck ('"' :: cs) ∧ ∃ w, w.length = n + 1 ∧ Blames w ('"' :: cs) := by
  constructor
  · intro rule w hw hfront
    match rule, rule.opening_eq hw hfront with
    | .token .string, _ =>
      rw [stringBody_of_mem hw hfront] at h
      cases h
  · obtain ⟨w, rest, hw, rfl, ⟨more, rfl⟩ | hrest⟩ := exists_stringPieces cs
    · rw [stringBody_closed hw] at h
      cases h
    · rw [stringBody_unclosed hw hrest] at h
      cases h
      exact ⟨'"' :: w, rfl, .string hw hrest⟩

/-! ## The front of a text -/

/-- Nothing is left out in front of what is neither a blank nor the beginning of a comment. -/
theorem gapLength_eq_zero : gapLength false (c :: cs) = 0 ↔
    isBlank c = false ∧ ¬ (c = '/' ∧ cs.head? = some '/') := by
  have hcomment : (c == '/' && cs.head? == some '/') = true ↔ c = '/' ∧ cs.head? = some '/' := by
    simp
  rw [← hcomment, gapLength, if_neg Bool.false_ne_true]
  split
  · next hblank => simp [hblank]
  · next hblank =>
    split
    · next h => simp [h]
    · next h => simp [hblank, h]

theorem Blames.front {w cs : List Char} (h : Blames w cs) : w <+: cs := by
  cases h with
  | character hc => exact ⟨_, rfl⟩
  | string hw hrest => exact List.cons_prefix_cons.2 ⟨rfl, List.prefix_append _ _⟩

/-- Where neither a blank nor a comment begins, the rules for marks are the only ones left
for what begins no word, number or string. -/
theorem eq_mark_of_opening {rule : Rule} {v : List Char} (hother : Opening.of c = .other)
    (hgap : gapLength false (c :: cs) = 0) (hv : v ∈ rule.pattern) (hfront : v <+: c :: cs) :
    ∃ m : Mark, rule = .token (.mark m) ∧ v = m.text.toList := by
  match rule, (rule.opening_eq hv hfront).trans hother with
  | .token (.mark m), _ => exact ⟨m, rfl, Set.mem_singleton_iff.1 hv⟩
  | .comment, _ =>
    obtain ⟨u, -, rfl⟩ := mem_comment.1 hv
    obtain ⟨rfl, hrest⟩ := List.cons_prefix_cons.1 hfront
    obtain ⟨more, rfl⟩ := hrest
    exact absurd ⟨rfl, rfl⟩ (gapLength_eq_zero.1 hgap).2

theorem takes_mark {m : Mark} (hother : Opening.of c = .other)
    (hgap : gapLength false (c :: cs) = 0) (h : markAt (c :: cs) = some m) :
    (Rule.token (.mark m)).Takes m.text.toList (c :: cs) := by
  obtain ⟨hfront, hlongest⟩ := markAt_eq_some h
  refine ⟨rfl, hfront, ?_, ?_⟩
  · intro other v hv hvfront
    obtain ⟨m', rfl, rfl⟩ := eq_mark_of_opening hother hgap hv hvfront
    exact hlongest m' hvfront
  · intro other hw
    obtain ⟨m', rfl, hm'⟩ := eq_mark_of_opening hother hgap hw hfront
    -- a mark is found again in its own text
    have hfound := markAt_text m'
    rw [← hm', markAt_text] at hfound
    exact .inl (congrArg (Rule.token ∘ Kind.mark) (Option.some.inj hfound).symm)

theorem stuck_mark (hother : Opening.of c = .other) (hgap : gapLength false (c :: cs) = 0)
    (h : markAt (c :: cs) = none) : Stuck (c :: cs) := by
  intro rule w hw hfront
  obtain ⟨m, rfl, rfl⟩ := eq_mark_of_opening hother hgap hw hfront
  exact absurd hfront (markAt_eq_none h m)

/-- What is neither a word, a number nor a string nor a blank. -/
theorem opening_eq_other (hword : ¬ isWordStart c = true) (hdigit : ¬ c.isDigit = true)
    (hquote : c ≠ '"') (hblank : isBlank c = false) : Opening.of c = .other := by
  simp [Opening.of, hword, hdigit, hquote, hblank]

/-- The token cut off at the front of a text is what the winning rule takes. -/
theorem takes_of_munch {kind : Kind} {n : Nat} (hgap : gapLength false (c :: cs) = 0)
    (h : munch c cs = .token kind n) :
    ∃ w, w.length = n ∧ (Rule.token kind).Takes w (c :: cs) := by
  unfold munch at h
  split at h
  · next hword =>
    cases h
    exact ⟨_, rfl, takes_word hword⟩
  split at h
  · next hdigit =>
    cases h
    exact ⟨_, rfl, takes_integer hdigit⟩
  split at h
  · next hquote =>
    subst hquote
    split at h
    · next m hm =>
      cases h
      exact takes_string hm
    · cases h
  · next hword hdigit hquote =>
    have hother := opening_eq_other hword hdigit hquote (gapLength_eq_zero.1 hgap).1
    split at h
    · next m hm =>
      cases h
      exact ⟨_, String.length_toList, takes_mark hother hgap hm⟩
    · cases h

/-- Where no token can be cut off, no rule matches. -/
theorem stuck_of_munch {n : Nat} (hgap : gapLength false (c :: cs) = 0)
    (h : munch c cs = .stuck n) :
    Stuck (c :: cs) ∧ ∃ w, w.length = n ∧ Blames w (c :: cs) := by
  unfold munch at h
  split at h
  · cases h
  split at h
  · cases h
  split at h
  · next hquote =>
    subst hquote
    split at h
    · cases h
    · next m hm =>
      cases h
      exact stuck_string hm
  · next hword hdigit hquote =>
    have hother := opening_eq_other hword hdigit hquote (gapLength_eq_zero.1 hgap).1
    split at h
    · cases h
    · next hm =>
      cases h
      exact ⟨stuck_mark hother hgap hm, [c], rfl, .character hquote⟩

end Lexer

end Slate
