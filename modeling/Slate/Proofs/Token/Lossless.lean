-- SUMMARY: Tokens and the gaps between them make up the whole source text, and a token's span is where its text stands.
import Slate.Proofs.Token.MaximalMunch

/-!
# Nothing is lost

A text that is cut into tokens is made up of their texts in turn, with gaps of blanks
and comments before, between and behind them. The spans of the tokens are the byte
ranges that their texts take up in the source.
-/

namespace Slate

/-! ## Texts as gaps and tokens -/

namespace Lexer

/-- What stands in front of a token, or of the end of the text: blanks and whole comments.
A comment goes up to a line feed, which is not part of it, or up to the end of the text;
so what is `behind` the gap matters to a comment that ends it. -/
inductive Gap (behind : List Char) : List Char → Prop where
  | nil : Gap behind []
  | blank {c : Char} {gap : List Char} : Blank c → Gap behind gap → Gap behind (c :: gap)
  | comment {body gap : List Char} :
      (∀ c ∈ body, c ≠ '\n') → (∀ c ∈ (gap ++ behind).head?, c = '\n') → Gap behind gap →
      Gap behind ('/' :: '/' :: (body ++ gap))

/-- `Interleaves offset cs ts`: the text `cs`, which begins at the byte `offset`, is gaps and
the texts of the tokens `ts` in turn and nothing else, and every token's span is the byte range
of its text. -/
inductive Interleaves : Nat → List Char → List Token → Prop where
  | last {offset : Nat} {gap : List Char} : Gap [] gap → Interleaves offset gap []
  | token {offset : Nat} {gap rest : List Char} {t : Token} {ts : List Token} :
      Gap (t.text.toList ++ rest) gap → t.text.toList ≠ [] →
      t.span.start.offset = offset + byteLength gap →
      t.span.stop.offset = t.span.start.offset + byteLength t.text.toList →
      Interleaves t.span.stop.offset rest ts →
      Interleaves offset (gap ++ (t.text.toList ++ rest)) (t :: ts)

section

variable {text cs w gap behind rest : List Char} {offset : Nat} {ts more : List Token}

theorem Gap.blanks (hw : ∀ c ∈ w, Blank c) (h : Gap behind gap) : Gap behind (w ++ gap) := by
  induction w with
  | nil => exact h
  | cons c w ih =>
    obtain ⟨hc, hw⟩ := List.forall_mem_cons.1 hw
    exact .blank hc (ih hw)

/-- What the rules for blanks and comments take can be put in front of a gap. -/
theorem Gap.skip {rule : Rule} (hrule : rule.kind? = none)
    (htakes : rule.Takes w (w ++ (gap ++ behind))) (h : Gap behind gap) :
    Gap behind (w ++ gap) := by
  cases rule with
  | token kind => cases hrule
  | blanks =>
    obtain ⟨c, v, hc, hv, rfl⟩ := mem_run.1 htakes.fits
    exact h.blanks (List.forall_mem_cons.2 ⟨hc, hv⟩)
  | comment =>
    obtain ⟨body, hbody, rfl⟩ := mem_comment.1 htakes.fits
    exact .comment hbody htakes.comment_ends h

theorem Interleaves.skip {rule : Rule} (hrule : rule.kind? = none)
    (htakes : rule.Takes w (w ++ rest)) (h : Interleaves (offset + byteLength w) rest ts) :
    Interleaves offset (w ++ rest) ts := by
  cases h with
  | last hgap =>
    refine .last (hgap.skip hrule ?_)
    rwa [List.append_nil]
  | token hgap hne hstart hstop hrest =>
    rw [← List.append_assoc]
    refine .token (hgap.skip hrule htakes) hne ?_ hstop hrest
    rw [hstart, byteLength_append, Nat.add_assoc]

/-- A token's text can be put in front, with no gap between. -/
theorem Interleaves.lexeme {kind : Kind} {lines : Lines} (hw : w ≠ [])
    (h : Interleaves (offset + byteLength w) rest ts) :
    Interleaves offset (w ++ rest)
      (⟨kind, String.ofList w, lines.span offset (offset + byteLength w)⟩ :: ts) := by
  have hcons := @Interleaves.token offset [] rest
    ⟨kind, String.ofList w, lines.span offset (offset + byteLength w)⟩ ts .nil
  rw [String.toList_ofList, List.nil_append] at hcons
  exact hcons hw rfl rfl h

/-- Reading goes over gaps and tokens only: if what is left is made up of them, then so is the
whole text. -/
theorem Reached.interleaves (h : Reached text offset cs ts) (hrest : Interleaves offset cs more) :
    Interleaves 0 text (ts ++ more) := by
  induction h generalizing more with
  | start => exact hrest
  | skip _ hrule htakes ih => exact ih (hrest.skip hrule htakes)
  | token _ htakes ih =>
    rw [List.append_assoc]
    exact ih (hrest.lexeme htakes.ne_nil)

/-- Every token's text stands in the text, where its span says. -/
theorem Interleaves.slice (h : Interleaves offset cs ts) {t : Token} (ht : t ∈ ts) :
    ∃ before after, cs = before ++ t.text.toList ++ after ∧ t.text.toList ≠ [] ∧
      t.span.start.offset = offset + byteLength before ∧
      t.span.stop.offset = t.span.start.offset + byteLength t.text.toList := by
  induction h with
  | last _ => cases ht
  | @token offset gap rest u ts _ hne hstart hstop _ ih =>
    rcases List.mem_cons.1 ht with rfl | ht
    · exact ⟨gap, rest, (List.append_assoc ..).symm, hne, hstart, hstop⟩
    · obtain ⟨before, after, rfl, hne, hstart', hstop'⟩ := ih ht
      refine ⟨gap ++ u.text.toList ++ before, after, ?_, hne, ?_, hstop'⟩
      · simp only [List.append_assoc]
      · rw [hstart', hstop, hstart, byteLength_append, byteLength_append]
        omega

theorem byteLength_pos (h : w ≠ []) : 0 < byteLength w := by
  obtain ⟨c, w, rfl⟩ := List.exists_cons_of_ne_nil h
  rw [byteLength]
  exact Nat.add_pos_left c.utf8Size_pos _

/-- Every token begins further on than the ones before it, and not before they end. -/
theorem Interleaves.pairwise (h : Interleaves offset cs ts) :
    ts.Pairwise fun a b => a.span.start.offset < b.span.start.offset ∧
      a.span.stop.offset ≤ b.span.start.offset := by
  induction h with
  | last _ => exact .nil
  | token _ hne _ hstop hrest ih =>
    refine .cons (fun b hb => ?_) ih
    obtain ⟨before, -, -, -, hb, -⟩ := hrest.slice hb
    have := byteLength_pos hne
    omega

end

end Lexer

/-! ## Slices of a source -/

theorem byteLength_eq_utf8ByteSize (cs : List Char) :
    byteLength cs = (String.ofList cs).utf8ByteSize := by
  induction cs with
  | nil => rfl
  | cons c cs ih =>
    rw [byteLength, ih, ← List.singleton_append, String.ofList_append,
      String.utf8ByteSize_append, ← String.singleton_eq_ofList, String.utf8ByteSize_singleton]

/-- A part of a source is the slice between two positions, those its byte range begins and
ends at. -/
theorem exists_extract {source : String} {before w after : List Char}
    (h : source.toList = before ++ w ++ after) :
    ∃ start stop : source.Pos, start.offset.byteIdx = byteLength before ∧
      stop.offset.byteIdx = byteLength before + byteLength w ∧
      source.extract start stop = String.ofList w := by
  have hsource : source = String.ofList before ++ (String.ofList w ++ String.ofList after) := by
    rw [← String.ofList_append, ← String.ofList_append, ← List.append_assoc, ← h,
      String.ofList_toList]
  have hstart : String.Pos.Raw.IsValid source ⟨byteLength before⟩ := by
    rw [String.Pos.Raw.isValid_iff_exists_append, byteLength_eq_utf8ByteSize]
    exact ⟨_, _, hsource, rfl⟩
  have hstop : String.Pos.Raw.IsValid source ⟨byteLength before + byteLength w⟩ := by
    rw [String.Pos.Raw.isValid_iff_exists_append, ← Lexer.byteLength_append,
      byteLength_eq_utf8ByteSize, String.ofList_append]
    rw [← String.append_assoc] at hsource
    exact ⟨_, _, hsource, rfl⟩
  -- positions count bytes, so that the two sides are compared as bytes
  have hbytes : source.toByteArray.extract (byteLength before)
      (byteLength before + byteLength w) = (String.ofList w).toByteArray := by
    rw [byteLength_eq_utf8ByteSize, byteLength_eq_utf8ByteSize, ← String.size_toByteArray,
      ← String.size_toByteArray, hsource, String.toByteArray_append, String.toByteArray_append]
    exact (ByteArray.extract_append_size_add (i := 0)).trans
      (ByteArray.extract_append_eq_left rfl)
  refine ⟨⟨_, hstart⟩, ⟨_, hstop⟩, rfl, rfl, ?_⟩
  apply String.toByteArray_inj.1
  rw [String.toByteArray_extract]
  exact hbytes

/-- A source that can be cut into tokens is made up of them, with nothing but blanks and whole
comments before, between and behind them. Their spans are byte ranges that are not empty,
ascend and do not overlap; a token's text is the slice of the source between the start and
the end of its span, both of which are boundaries of characters. -/
theorem tokenize_lossless {source : String} {ts : List Token} (h : tokenize source = .ok ts) :
    Lexer.Interleaves 0 source.toList ts ∧
    (ts.Pairwise fun a b => a.span.start.offset < b.span.start.offset ∧
      a.span.stop.offset ≤ b.span.start.offset) ∧
    ∀ t ∈ ts, t.span.start.offset < t.span.stop.offset ∧
      ∃ start stop : source.Pos, start.offset.byteIdx = t.span.start.offset ∧
        stop.offset.byteIdx = t.span.stop.offset ∧ source.extract start stop = t.text := by
  obtain ⟨offset, hreached⟩ := tokenize_eq_ok_iff.1 h
  have hinterleaves := hreached.interleaves (.last .nil)
  rw [List.append_nil] at hinterleaves
  refine ⟨hinterleaves, hinterleaves.pairwise, fun t ht => ?_⟩
  obtain ⟨before, after, hsource, hne, hstart, hstop⟩ := hinterleaves.slice ht
  obtain ⟨start, stop, hstart', hstop', hslice⟩ := exists_extract hsource
  have := Lexer.byteLength_pos hne
  refine ⟨by omega, start, stop, by omega, by omega, ?_⟩
  rw [hslice, String.ofList_toList]

/-- A comment with a character of two bytes, a slash that begins none, and a string with
slashes and a line feed in it. -/
theorem tokenize_lossless_comment :
    ∃ ts, tokenize "x// é\n/\"//\ny\"->-7" = .ok ts ∧
      ts.map (fun t => (t.text, t.span.start.offset, t.span.stop.offset)) =
        [("x", 0, 1), ("/", 7, 8), ("\"//\ny\"", 8, 14), ("->", 14, 16), ("-", 16, 17),
          ("7", 17, 18)] ∧
      Lexer.Interleaves 0 "x// é\n/\"//\ny\"->-7".toList ts := by
  have hrun : (tokenize "x// é\n/\"//\ny\"->-7").toOption.map
      (·.map fun t => (t.text, t.span.start.offset, t.span.stop.offset)) =
        some [("x", 0, 1), ("/", 7, 8), ("\"//\ny\"", 8, 14), ("->", 14, 16), ("-", 16, 17),
          ("7", 17, 18)] := by
    decide +kernel
  cases h : tokenize "x// é\n/\"//\ny\"->-7" with
  | ok ts =>
    rw [h] at hrun
    exact ⟨ts, rfl, Option.some.inj hrun, (tokenize_lossless h).1⟩
  | error d =>
    rw [h] at hrun
    cases hrun

end Slate
