-- SUMMARY: Tokens end where a line ends, so a text can be cut into tokens line by line, each with its place in the whole.
import Slate.Proofs.Token.Located
import Slate.Proofs.Token.Printing

/-!
# Cutting at line breaks

A line feed behind a text that is cut into tokens takes part in none of them: the only
tokens that a line feed can stand in are strings, and these are closed. Nor does it matter
to a comment, which ends in front of it. So what comes behind the line feed is read as a
text of its own, and it is found as many lines and bytes further on as stand before it.
Columns are counted from the line feed and stay as they are.
-/

namespace Slate

/-! ## Places further on -/

/-- The place in a text that has so many lines and bytes more in front. -/
def Location.moved (lines bytes : Nat) (l : Location) : Location where
  line := l.line + lines
  column := l.column
  offset := l.offset + bytes

def Span.moved (lines bytes : Nat) (s : Span) : Span where
  start := s.start.moved lines bytes
  stop := s.stop.moved lines bytes

def Token.moved (lines bytes : Nat) (t : Token) : Token :=
  { t with span := t.span.moved lines bytes }

/-- The diagnostic at the place further on. -/
def Diagnostic.moved (lines bytes : Nat) (d : Diagnostic) : Diagnostic :=
  { d with span := d.span.map (Span.moved lines bytes) }

/-! ## Lines of two texts -/

namespace Lines

variable {text more : List Char} {offset : Nat}

theorem startsFrom_append (offset : Nat) (cs ds : List Char) :
    startsFrom offset (cs ++ ds) =
      startsFrom offset cs ++ startsFrom (offset + byteLength cs) ds := by
  induction cs generalizing offset with
  | nil => rfl
  | cons c cs ih =>
    simp only [List.cons_append, startsFrom, byteLength, ih, ← Nat.add_assoc]
    split
    · rfl
    · rfl

theorem startsFrom_add (offset bytes : Nat) (cs : List Char) :
    startsFrom (offset + bytes) cs = (startsFrom offset cs).map (· + bytes) := by
  induction cs generalizing offset with
  | nil => rfl
  | cons c cs ih =>
    have hnext : offset + bytes + c.utf8Size = offset + c.utf8Size + bytes := by omega
    simp only [startsFrom, hnext, ih]
    split
    · rfl
    · rfl

theorem length_startsFrom (offset : Nat) (cs : List Char) :
    (startsFrom offset cs).length = cs.count '\n' := by
  induction cs generalizing offset with
  | nil => rfl
  | cons c cs ih =>
    simp only [startsFrom, List.count_cons, beq_iff_eq]
    split
    · rw [List.length_cons, ih]
    · rw [ih, Nat.add_zero]

theorem startsFrom_le : ∀ start ∈ startsFrom offset text, start ≤ offset + byteLength text := by
  induction text generalizing offset with
  | nil => exact List.forall_mem_nil _
  | cons c cs ih =>
    have hrest : ∀ start ∈ startsFrom (offset + c.utf8Size) cs,
        start ≤ offset + byteLength (c :: cs) := fun start h => by
      rw [byteLength, ← Nat.add_assoc]
      exact ih start h
    rw [startsFrom]
    split
    · refine List.forall_mem_cons.2 ⟨?_, hrest⟩
      rw [byteLength]
      omega
    · exact hrest

/-- The lines of a text behind a line feed are found behind those of the text before. -/
theorem starts_ofText_feed (text more : List Char) :
    (ofText (text ++ '\n' :: more)).starts =
      (ofText text).starts ++ (ofText more).starts.map (· + (byteLength text + 1)) := by
  have hfeed : startsFrom (byteLength text) ('\n' :: more) =
      (0 + (byteLength text + 1)) :: startsFrom (0 + (byteLength text + 1)) more := by
    rw [startsFrom, if_pos rfl, Nat.zero_add, show '\n'.utf8Size = 1 from rfl]
  simp only [ofText, startsFrom_append, Nat.zero_add, hfeed, List.cons_append, List.map_cons]
  rw [← startsFrom_add, Nat.zero_add]

theorem starts_le : ∀ start ∈ (ofText text).starts, start ≤ byteLength text := by
  refine List.forall_mem_cons.2 ⟨Nat.zero_le _, fun start h => ?_⟩
  have := startsFrom_le start h
  omega

/-- Up to the line feed, places are what they are without it. -/
theorem location_before_feed (h : offset ≤ byteLength text) :
    (ofText (text ++ '\n' :: more)).location offset = (ofText text).location offset := by
  have hmore : ((ofText more).starts.map (· + (byteLength text + 1))).takeWhile (· ≤ offset) =
      [] := by
    have hfirst : ¬ 0 + (byteLength text + 1) ≤ offset := by omega
    rw [ofText, List.map_cons, List.takeWhile_cons_of_neg (by simpa using hfirst)]
  have hbegun : (ofText (text ++ '\n' :: more)).starts.takeWhile (· ≤ offset) =
      (ofText text).starts.takeWhile (· ≤ offset) := by
    rw [starts_ofText_feed, List.takeWhile_append]
    split
    · next hall =>
      rw [hmore, List.append_nil]
      exact ((List.takeWhile_prefix _).eq_of_length hall).symm
    · rfl
  rw [location, location, hbegun]

/-- Behind the line feed, places are those of the second text, so many lines and bytes on. -/
theorem location_behind_feed (text more : List Char) (offset : Nat) :
    (ofText (text ++ '\n' :: more)).location (offset + (byteLength text + 1)) =
      ((ofText more).location offset).moved (text.count '\n' + 1) (byteLength text + 1) := by
  have hall : ∀ start ∈ (ofText text).starts,
      decide (start ≤ offset + (byteLength text + 1)) = true := fun start h =>
    decide_eq_true ((starts_le start h).trans (by omega))
  have hbegun : (ofText (text ++ '\n' :: more)).starts.takeWhile
      (· ≤ offset + (byteLength text + 1)) = (ofText text).starts ++
        ((ofText more).starts.takeWhile (· ≤ offset)).map (· + (byteLength text + 1)) := by
    rw [starts_ofText_feed, List.takeWhile_append_of_pos hall, List.takeWhile_map]
    simp only [Function.comp_def, Nat.add_le_add_iff_right]
  have hlength : (ofText text).starts.length = text.count '\n' + 1 := by
    rw [ofText, List.length_cons, length_startsFrom]
  -- the first line of the second text has always begun
  obtain ⟨others, hothers⟩ : ∃ others, (ofText more).starts.takeWhile (· ≤ offset) = 0 :: others :=
    ⟨_, List.takeWhile_cons_of_pos (decide_eq_true (Nat.zero_le offset))⟩
  have hlast : ∀ (starts others : List Nat) (bytes : Nat),
      (starts ++ (0 :: others).map (· + bytes)).getLastD 0 = (0 :: others).getLastD 0 + bytes := by
    intro starts others bytes
    rw [List.getLastD_eq_getLast?, List.getLast?_append, List.getLast?_map,
      List.getLastD_eq_getLast?, List.getLast?_cons]
    rfl
  simp only [location, hbegun, hothers, Location.moved]
  refine (Location.mk.injEq ..).mpr ⟨?_, ?_, rfl⟩
  · rw [List.length_append, List.length_map, hlength, Nat.add_comm]
  · rw [hlast]
    omega

theorem span_behind_feed (text more : List Char) (start stop : Nat) :
    (ofText (text ++ '\n' :: more)).span (start + (byteLength text + 1))
        (stop + (byteLength text + 1)) =
      ((ofText more).span start stop).moved (text.count '\n' + 1) (byteLength text + 1) := by
  rw [span, location_behind_feed, location_behind_feed]
  rfl

end Lines

namespace Lexer

variable {text cs w rest more : List Char} {offset : Nat} {ts : List Token}

/-! ## Up to the line feed -/

/-- Of all that a rule can take, a line feed stands in blanks and in strings only. -/
theorem opening_of_feed_mem {rule : Rule} (hw : w ∈ rule.pattern) (hfeed : '\n' ∈ w) :
    rule.opening = .blank ∨ rule.opening = .quote := by
  have hword (hopening : rule.opening = .word) : False := by
    obtain ⟨c, v, hc, hv, rfl⟩ := mem_run.1 (mem_identifier_of_opening hopening hw)
    rcases List.mem_cons.1 hfeed with rfl | hfeed
    · exact absurd (isWordStart_iff.2 hc) (by decide)
    · exact absurd (isWordPart_iff.2 (hv _ hfeed)) (by decide)
  cases rule with
  | blanks => exact .inl rfl
  | comment =>
    obtain ⟨v, hv, rfl⟩ := mem_comment.1 hw
    rw [List.mem_cons, List.mem_cons] at hfeed
    obtain hslash | hslash | hfeed := hfeed
    · cases hslash
    · cases hslash
    · exact absurd rfl (hv _ hfeed)
  | token kind =>
    cases kind with
    | keyword _ | typeName _ | identifier => exact (hword rfl).elim
    | string => exact .inr rfl
    | integer =>
      obtain ⟨c, v, hc, hv, rfl⟩ := mem_run.1 hw
      rcases List.mem_cons.1 hfeed with rfl | hfeed
      · exact absurd (isDigit_iff.2 hc) (by decide)
      · exact absurd (isDigit_iff.2 (hv _ hfeed)) (by decide)
    | mark m =>
      rw [Set.mem_singleton_iff.1 hw] at hfeed
      exact absurd (not_isBlank_of_mem_mark _ hfeed) (by decide)

/-- A token ends before a line feed behind it, if it did so at the end of the text. -/
theorem Rule.Takes.feed {kind : Kind} (h : (Rule.token kind).Takes w (w ++ rest))
    (more : List Char) : (Rule.token kind).Takes w (w ++ (rest ++ '\n' :: more)) := by
  refine ⟨h.fits, List.prefix_append _ _, fun other v hv hfront => ?_, h.first⟩
  by_contra hlonger
  rw [← List.append_assoc] at hfront
  by_cases hinside : v.length ≤ (w ++ rest).length
  · exact hlonger (h.longest other v hv
      (List.prefix_of_prefix_length_le hfront (List.prefix_append _ _) hinside))
  · -- the longer match goes over the line feed, so that it is a string, as the token is
    obtain ⟨_, ⟨⟩, hfeed⟩ := head_mem_of_longer hfront (Nat.lt_of_not_le hinside)
    obtain ⟨c, v', rfl, hopening⟩ := Rule.opens h.fits
    have hsame : other.opening = (Rule.token kind).opening := by
      rw [← hopening]
      exact other.opening_eq hv hfront
    have hstring : kind = .string := by
      have hquote := opening_of_feed_mem hv hfeed
      rw [hsame] at hquote
      cases kind with
      | string => rfl
      | _ => simp [Rule.opening] at hquote
    subst hstring
    have htakes := takes_string_append h.fits (rest ++ '\n' :: more)
    rw [← List.append_assoc] at htakes
    exact hlonger (htakes.longest other v hv hfront)

/-- The gap in front of a token goes on over the line feed behind it, and a comment ends. -/
theorem gapLength_feed {rule : Rule} (hrule : rule.kind? = none)
    (h : rule.Takes w (w ++ rest)) (more : List Char) :
    gapLength false (w ++ (rest ++ '\n' :: more)) =
      w.length + gapLength false (rest ++ '\n' :: more) := by
  cases rule with
  | token kind => cases hrule
  | blanks =>
    obtain ⟨c, v, hc, hv, rfl⟩ := mem_run.1 h.fits
    exact gapLength_blanks
      (List.forall_mem_cons.2 ⟨isBlank_iff.2 hc, fun d hd => isBlank_iff.2 (hv d hd)⟩)
  | comment =>
    obtain ⟨v, hv, rfl⟩ := mem_comment.1 h.fits
    have hends : ∀ c ∈ (rest ++ '\n' :: more).head?, c = '\n' := by
      cases rest with
      | nil =>
        rintro _ ⟨⟩
        rfl
      | cons c rest => exact h.comment_ends
    rw [List.cons_append, List.cons_append, gapLength_slashes, gapLength_comment hv hends]
    simp only [List.length_cons]
    omega

/-- What is read of a text is read of it, too, where a line feed and more come behind it. -/
theorem Reached.tokensFrom_feed (h : Reached text offset cs ts) (more : List Char) :
    Lexer.tokensFrom (Lines.ofText (text ++ '\n' :: more)) 0 (text ++ '\n' :: more) =
      (Lexer.tokensFrom (Lines.ofText (text ++ '\n' :: more)) offset (cs ++ '\n' :: more)).map
        (ts ++ ·) := by
  induction h with
  | start => cases Lexer.tokensFrom _ 0 (text ++ '\n' :: more) <;> rfl
  | skip _ hrule htakes ih =>
    rw [ih, List.append_assoc, tokensFrom_append (gapLength_feed hrule htakes more)]
  | @token kind w rest offset ts hreached htakes ih =>
    obtain ⟨front, hfront, rfl⟩ := hreached.exists_front
    have hstop : byteLength front + byteLength w ≤ byteLength text := by
      rw [hfront, byteLength_append, byteLength_append]
      omega
    rw [ih, List.append_assoc, tokensFrom_token (htakes.feed more), Lines.span,
      Lines.location_before_feed (by omega), Lines.location_before_feed hstop]
    cases Lexer.tokensFrom (Lines.ofText (text ++ '\n' :: more)) (byteLength front + byteLength w)
        (rest ++ '\n' :: more) with
    | ok others => simp [Except.map, Lines.span]
    | error d => rfl

/-! ## Behind the line feed -/

/-- What the lexer yields further on in a text. -/
def movedOutcome (lines bytes : Nat) :
    Except Diagnostic (List Token) → Except Diagnostic (List Token)
  | .ok ts => .ok (ts.map (Token.moved lines bytes))
  | .error d => .error (d.moved lines bytes)

/-- Behind a line feed, a text is cut as it is on its own. -/
theorem tokensFrom_behind_feed (text more : List Char) (offset : Nat) (cs : List Char) :
    tokensFrom (Lines.ofText (text ++ '\n' :: more)) (offset + (byteLength text + 1)) cs =
      movedOutcome (text.count '\n' + 1) (byteLength text + 1)
        (tokensFrom (Lines.ofText more) offset cs) := by
  have hadd (w : List Char) : offset + (byteLength text + 1) + byteLength w =
      offset + byteLength w + (byteLength text + 1) := by omega
  match cs with
  | [] =>
    rw [tokensFrom_eq_tokensAt rfl, tokensFrom_eq_tokensAt rfl]
    rfl
  | c :: cs =>
    obtain ⟨rule, w, htakes⟩ | ⟨hstuck, w, hblames⟩ := takes_or_stuck c cs
    · have hlength := List.length_pos_iff.2 htakes.ne_nil
      obtain ⟨rest, hrest⟩ := htakes.front
      have hshorter : rest.length < (c :: cs).length := by
        rw [← hrest, List.length_append]
        omega
      have ih := tokensFrom_behind_feed text more (offset + byteLength w) rest
      rw [← hrest] at htakes ⊢
      cases rule with
      | blanks | comment =>
        rw [tokensFrom_skip rfl htakes, tokensFrom_skip rfl htakes, hadd, ih]
      | token kind =>
        rw [tokensFrom_token htakes, tokensFrom_token htakes, hadd, ih, Lines.span_behind_feed]
        cases tokensFrom (Lines.ofText more) (offset + byteLength w) rest <;> rfl
    · rw [tokensFrom_stuck hstuck hblames, tokensFrom_stuck hstuck hblames, hadd,
        Lines.span_behind_feed]
      rfl
termination_by cs.length
decreasing_by exact hshorter

end Lexer

/-! ## Both texts -/

open Lexer

theorem tokenize_feed {first second : String} {tokens : List Token}
    (h : tokenize first = .ok tokens) :
    tokenize (first ++ "\n" ++ second) =
      (movedOutcome (first.toList.count '\n' + 1) (first.utf8ByteSize + 1)
        (tokenize second)).map (tokens ++ ·) := by
  have htext : (first ++ "\n" ++ second).toList = first.toList ++ '\n' :: second.toList := by
    simp
  obtain ⟨offset, hreached⟩ := tokenize_eq_ok_iff.1 h
  obtain ⟨front, hfront, rfl⟩ := hreached.exists_front
  rw [List.append_nil] at hfront
  subst hfront
  have hblank : gapLength false (['\n'] ++ second.toList) =
      ['\n'].length + gapLength false second.toList :=
    gapLength_blanks (List.forall_mem_singleton.2 rfl)
  have hfeed : tokensFrom (Lines.ofText (first.toList ++ '\n' :: second.toList))
      (byteLength first.toList) ('\n' :: second.toList) =
      tokensFrom (Lines.ofText (first.toList ++ '\n' :: second.toList))
        (0 + (byteLength first.toList + 1)) second.toList := by
    rw [Nat.zero_add]
    exact tokensFrom_append hblank
  rw [tokenize, htext, hreached.tokensFrom_feed, List.nil_append, hfeed, tokensFrom_behind_feed,
    byteLength_toList]
  rfl

/-- A text that is cut into tokens, a line feed and another text are cut if the other text is,
and into the tokens of both. Those of the second are found so many lines and bytes further on as
there are in the first, with the line feed, and in the same columns. If the second text is
refused, then for the same cause, further on by as much. -/
theorem tokenize_line_break {first second : String} {tokens : List Token}
    (h : tokenize first = .ok tokens) :
    ((∃ ts, tokenize (first ++ "\n" ++ second) = .ok ts) ↔ ∃ ts, tokenize second = .ok ts) ∧
    (∀ ts, tokenize second = .ok ts → tokenize (first ++ "\n" ++ second) =
      .ok (tokens ++
        ts.map (Token.moved (first.toList.count '\n' + 1) (first.utf8ByteSize + 1)))) ∧
    ∀ d, tokenize second = .error d → tokenize (first ++ "\n" ++ second) =
      .error (d.moved (first.toList.count '\n' + 1) (first.utf8ByteSize + 1)) := by
  rw [tokenize_feed h]
  cases tokenize second with
  | ok ts =>
    refine ⟨iff_of_true ⟨_, rfl⟩ ⟨ts, rfl⟩, ?_, nofun⟩
    rintro _ ⟨⟩
    rfl
  | error d =>
    refine ⟨iff_of_false nofun nofun, nofun, ?_⟩
    rintro _ ⟨⟩
    rfl

/-- A character of two bytes and a line feed in a string, and a comment at the end. -/
def closedLines : String := "x = \"é\n\"; // y"

/-- A string that does not close. -/
def openLine : String := "let z\n \"\\\""

/-- The string is refused on the fourth line, whatever it is behind. -/
theorem tokenize_line_break_openLine :
    ∃ tokens d, tokenize closedLines = .ok tokens ∧ tokenize openLine = .error d ∧
      tokenize (closedLines ++ "\n" ++ openLine) = .error (d.moved 2 16) ∧
      (d.moved 2 16).span = some ⟨⟨4, 2, 23⟩, ⟨4, 5, 26⟩⟩ := by
  have hspan : (match tokenize openLine with
      | .ok _ => none
      | .error d => (d.moved 2 16).span) = some ⟨⟨4, 2, 23⟩, ⟨4, 5, 26⟩⟩ := by
    decide +kernel
  have hlines : closedLines.toList.count '\n' = 1 := by decide +kernel
  have hbytes : closedLines.utf8ByteSize = 15 := by decide +kernel
  have hclosed : (tokenize closedLines).toOption.isSome = true := by decide +kernel
  cases hfirst : tokenize closedLines with
  | error _ => rw [hfirst] at hclosed; cases hclosed
  | ok tokens =>
    cases hsecond : tokenize openLine with
    | ok _ => rw [hsecond] at hspan; cases hspan
    | error d =>
      rw [hsecond] at hspan
      have hboth := (tokenize_line_break hfirst).2.2 d hsecond
      rw [hlines, hbytes] at hboth
      exact ⟨tokens, d, rfl, rfl, hboth, hspan⟩

end Slate
