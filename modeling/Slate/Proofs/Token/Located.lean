-- SUMMARY: Tokens and refusals of the lexer stand for stretches of the source that are not empty, and so does what goes from one token to another.
import Slate.Proofs.Source.Location
import Slate.Proofs.Token.Lossless

/-!
# Stretches of a source

The lexer makes spans from byte ranges of the source. So line, column and offset agree at either
end, and between the ends there is a piece of the source that is not empty and can be cut out.
This is passed on to every span that goes from the start of a token to the stop of one, if it
goes forward.
-/

namespace Slate

/-- The span is that of a stretch of the source which is not empty, and its ends are where
their offsets say. -/
structure Span.InSource (source : String) (span : Span) : Prop where
  nonempty : span.start.offset < span.stop.offset
  boundaries : ∃ start stop : source.Pos, start.offset.byteIdx = span.start.offset ∧
    stop.offset.byteIdx = span.stop.offset
  located : span = (Lines.ofText source.toList).span span.start.offset span.stop.offset

namespace Span.InSource

variable {source : String} {span other : Span}

/-- A part of the text makes a stretch. -/
theorem of_split {before w after : List Char} (hw : w ≠ [])
    (h : source.toList = before ++ w ++ after) :
    ((Lines.ofText source.toList).span (byteLength before)
      (byteLength before + byteLength w)).InSource source where
  nonempty := Nat.lt_add_of_pos_right (Lexer.byteLength_pos hw)
  boundaries := by
    obtain ⟨start, stop, hstart, hstop, -⟩ := exists_extract h
    exact ⟨start, stop, hstart, hstop⟩
  located := rfl

/-- From the start of one stretch to the stop of another, if the one precedes the other. -/
theorem between (h : span.InSource source) (h' : other.InSource source)
    (hprecedes : span.start.Precedes other.stop) :
    InSource source ⟨span.start, other.stop⟩ := by
  have hstart : span.start = (Lines.ofText source.toList).location span.start.offset :=
    congrArg Span.start h.located
  have hstop : other.stop = (Lines.ofText source.toList).location other.stop.offset :=
    congrArg Span.stop h'.located
  obtain ⟨start, -, hoffset, -⟩ := h.boundaries
  obtain ⟨-, stop, -, hoffset'⟩ := h'.boundaries
  refine ⟨?_, ⟨start, stop, hoffset, hoffset'⟩, ?_⟩
  · rw [hstart, hstop, Lines.location_precedes_iff] at hprecedes
    exact hprecedes
  · rw [Lines.span, ← hstart, ← hstop]

/-- A stretch ends within the source. -/
theorem stop_le (h : span.InSource source) : span.stop.offset ≤ source.utf8ByteSize := by
  obtain ⟨-, stop, -, hstop⟩ := h.boundaries
  rw [← hstop]
  exact stop.isValid.le_rawEndPos

end Span.InSource

/-! ## The lexer -/

namespace Lexer

variable {text cs : List Char} {offset : Nat} {ts : List Token}

/-- What reading has passed over is the front of the text, up to the place it has reached. -/
theorem Reached.exists_front (h : Reached text offset cs ts) :
    ∃ front, text = front ++ cs ∧ offset = byteLength front := by
  induction h with
  | start => exact ⟨[], rfl, rfl⟩
  | @skip _ w _ _ _ _ _ _ ih | @token _ w _ _ _ _ _ ih =>
    obtain ⟨front, hfront, hoffset⟩ := ih
    refine ⟨front ++ w, ?_, ?_⟩
    · rw [hfront, List.append_assoc]
    · rw [hoffset, byteLength_append]

theorem Reached.inSource {source : String} (h : Reached source.toList offset cs ts) :
    ∀ t ∈ ts, t.span.InSource source := by
  induction h with
  | start => exact nofun
  | skip _ _ _ ih => exact ih
  | token hreached htakes ih =>
    rw [List.forall_mem_append]
    refine ⟨ih, ?_⟩
    obtain ⟨front, hfront, rfl⟩ := hreached.exists_front
    intro t ht
    obtain rfl := List.mem_singleton.1 ht
    rw [← List.append_assoc] at hfront
    exact .of_split htakes.ne_nil hfront

theorem Blames.ne_nil {w : List Char} (h : Blames w cs) : w ≠ [] := by
  cases h <;> exact List.cons_ne_nil _ _

end Lexer

theorem tokenize_inSource {source : String} {ts : List Token} (h : tokenize source = .ok ts) :
    ∀ t ∈ ts, t.span.InSource source := by
  obtain ⟨offset, hreached⟩ := tokenize_eq_ok_iff.1 h
  exact hreached.inSource

theorem tokenize_error_inSource {source : String} {d : Diagnostic}
    (h : tokenize source = .error d) : ∃ span, d.span = some span ∧ span.InSource source := by
  obtain ⟨offset, cs, ts, w, hreached, -, hblames, rfl⟩ := tokenize_eq_error_iff.1 h
  obtain ⟨front, hfront, rfl⟩ := hreached.exists_front
  obtain ⟨rest, rfl⟩ := hblames.front
  rw [← List.append_assoc] at hfront
  exact ⟨_, rfl, .of_split hblames.ne_nil hfront⟩

end Slate
