-- SUMMARY: Whichever stage refuses a source, its diagnostic points at a stretch of the source that is not empty.
import Slate.Analysis
import Slate.Proofs.Check.Pointing
import Slate.Proofs.Syntax.Endless
import Slate.Proofs.Syntax.Layout.Statement

/-!
# Diagnostics point into the source

The lexer makes spans from byte ranges of the source; the parser merges them, by line and
column only, and what it misses at the end it misses at the last token; the checker takes them
from the tree. Line, column and offset stay in agreement all the way, so that a diagnostic of any
stage can be shown: its mark covers a piece of the source that is not empty, and that can be cut
out.
-/

namespace Slate

/-- The mark that a diagnostic draws into the source covers a stretch of it: the stretch is
not empty and ends within the source, both of its ends are boundaries of characters, and
line and column at either end are those of its offset. -/
structure Diagnostic.Shown (source : String) (d : Diagnostic) : Prop where
  span : ∃ span, d.span = some span ∧ span.start.offset < span.stop.offset ∧
    span.stop.offset ≤ source.utf8ByteSize ∧
    span.start = (Lines.ofText source.toList).location span.start.offset ∧
    span.stop = (Lines.ofText source.toList).location span.stop.offset
  label : ∃ label, d.label? = some label ∧ ∃ start stop : source.Pos,
    start.offset.byteIdx = label.offset ∧ stop.offset.byteIdx = label.offset + label.length

theorem Diagnostic.shown_of_inSource {source : String} {d : Diagnostic} {span : Span}
    (hspan : d.span = some span) (h : span.InSource source) : d.Shown source where
  span := ⟨span, hspan, h.nonempty, h.stop_le, congrArg Span.start h.located,
    congrArg Span.stop h.located⟩
  label := by
    obtain ⟨start, stop, hstart, hstop⟩ := h.boundaries
    refine ⟨_, by rw [Diagnostic.label?, hspan]; rfl, start, stop, hstart, ?_⟩
    have hnonempty := h.nonempty
    show stop.offset.byteIdx = span.start.offset + (span.stop.offset - span.start.offset)
    omega

/-- Every span of a program goes from a token to a token of its source. -/
theorem spans_inSource {source : String} {tokens : List Token} {program : Program}
    (htokens : tokenize source = .ok tokens) (hprogram : parse tokens = .ok program) :
    ∀ span ∈ program.spans, span.InSource source := by
  intro span hspan
  have hread := recovered_of_parse (wellSpelled_of_tokenize htokens) hprogram
  have hover := (hread.layout (inRow_of_tokenize htokens)).anchored span hspan
  obtain ⟨t, ht, hstart⟩ := hover.starts
  obtain ⟨u, hu, hstop⟩ := hover.stops
  have hnonempty := hover.nonempty
  obtain ⟨start, stop⟩ := span
  cases hstart
  cases hstop
  exact (tokenize_inSource htokens t ht).between (tokenize_inSource htokens u hu) hnonempty

/-- Whichever stage refuses a source, its diagnostic can be shown in the source. The one
exception is a source that the parser never reads to an end. -/
theorem analyzeSource_shown {source : String} {e : StageError}
    (h : analyzeSource source = .error e) :
    e.diagnostic.Shown source ∨
      (e = ⟨.parsing, .ofDefect .endlessNesting⟩ ∧
        ∃ ts, tokenize source = .ok ts ∧ Parser.Endless ts) := by
  unfold analyzeSource readSource at h
  cases htokens : tokenize source with
  | error d =>
    rw [htokens] at h
    cases h
    obtain ⟨span, hspan, hin⟩ := tokenize_error_inSource htokens
    exact Or.inl (Diagnostic.shown_of_inSource hspan hin)
  | ok ts =>
    rw [htokens] at h
    cases hparse : parse ts with
    | error d =>
      simp only [Except.mapError, hparse, bind, Except.bind] at h
      cases h
      obtain ⟨rfl, -⟩ | ⟨last, what, -, hlast, rfl, -⟩ := parse_stopped hparse
      · exact Or.inr ⟨rfl, ts, rfl, parse_eq_endlessNesting_iff.1 hparse⟩
      · exact Or.inl (Diagnostic.shown_of_inSource rfl
          (tokenize_inSource htokens last (List.mem_of_getLast? hlast)))
    | ok program =>
      cases hanalyze : program.analyze with
      | ok t =>
        simp [Except.mapError, hparse, hanalyze, bind, Except.bind] at h
      | error d =>
        simp only [Except.mapError, hparse, hanalyze, bind, Except.bind] at h
        cases h
        have herror : (program.checkFrom .empty).error = some d := by
          unfold Program.analyze Program.outcome at hanalyze
          dsimp only at hanalyze
          split at hanalyze
          · cases hanalyze
          · next herror =>
            cases hanalyze
            exact herror
        obtain ⟨span, hspan, hmem⟩ := (Program.checkFrom_pointsAt herror).span
        exact Or.inl (Diagnostic.shown_of_inSource hspan (spans_inSource htokens hparse span hmem))

/-- Columns and offsets count bytes, also behind characters of two. -/
theorem analyzeSource_shown_wide :
    ∃ e, analyzeSource "let s = \"é\"; // ü\n  let n: int = s;" = .error e ∧
      e.diagnostic.span = some ⟨⟨2, 7, 26⟩, ⟨2, 8, 27⟩⟩ ∧
      e.diagnostic.Shown "let s = \"é\"; // ü\n  let n: int = s;" := by
  have hrun : (analyzeSource "let s = \"é\"; // ü\n  let n: int = s;").map (fun _ => ()) =
      .error ⟨.checking, .spanned (.wrongValue .int (some .string))
        ⟨⟨2, 7, 26⟩, ⟨2, 8, 27⟩⟩⟩ := by
    decide +kernel
  cases h : analyzeSource "let s = \"é\"; // ü\n  let n: int = s;" with
  | ok t =>
    rw [h] at hrun
    cases hrun
  | error e =>
    rw [h] at hrun
    cases hrun
    refine ⟨_, rfl, rfl, ?_⟩
    rcases analyzeSource_shown h with hshown | ⟨hdefect, -⟩
    · exact hshown
    · cases hdefect

end Slate
