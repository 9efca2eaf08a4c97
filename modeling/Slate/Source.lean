-- SUMMARY: Positions in a source text: locations, spans, and the line table that turns byte offsets into locations.

/-!
# Positions in a source text

A position is kept twice over: as line and column, which people read, and as a
byte offset, which tools slice by. Spans are compared by line and column only.
The line table of a text finds the line of any byte offset, and so makes the
two agree.
-/

namespace Slate

/-! ## Locations -/

/-- A position in a source text. Lines and columns count from one, offsets from
zero; columns and offsets are measured in bytes. -/
structure Location where
  line : Nat
  column : Nat
  offset : Nat
deriving DecidableEq, Repr, Inhabited

namespace Location

/-- One location stands before another by line, then by column. The offset has
no say. -/
def Precedes (a b : Location) : Prop :=
  a.line < b.line ∨ (a.line = b.line ∧ a.column < b.column)

instance (a b : Location) : Decidable (a.Precedes b) :=
  inferInstanceAs (Decidable (_ ∨ _))

/-- A location as people read it. -/
def text (l : Location) : String := s!"{l.line}:{l.column}"

end Location

/-! ## Spans -/

/-- A stretch of source text from `start` up to and without `stop`. -/
structure Span where
  start : Location
  stop : Location
deriving DecidableEq, Repr, Inhabited

namespace Span

/-- The line on which a span starts. -/
def line (s : Span) : Nat := s.start.line

/-- A location lies in a span when it stands neither before its start nor after
its stop; the stop itself counts. -/
def Contains (s : Span) (l : Location) : Prop :=
  ¬ l.Precedes s.start ∧ ¬ s.stop.Precedes l

instance (s : Span) (l : Location) : Decidable (s.Contains l) :=
  inferInstanceAs (Decidable (_ ∧ _))

/-- The span from the earlier start to the later stop of two spans. Where line
and column do not tell the two apart, the second span's end is taken. -/
def merge (a b : Span) : Span where
  start := if a.start.Precedes b.start then a.start else b.start
  stop := if b.stop.Precedes a.stop then a.stop else b.stop

end Span

/-! ## Byte lengths and lines -/

/-- The number of bytes that a text takes up in UTF-8. -/
def byteLength : List Char → Nat
  | [] => 0
  | c :: cs => c.utf8Size + byteLength cs

/-- The line table of a text: the byte offset at which each of its lines starts,
in increasing order. -/
structure Lines where
  starts : List Nat
deriving DecidableEq, Repr

namespace Lines

/-- The offsets just behind the line feeds of a text that begins at `offset`. -/
def startsFrom (offset : Nat) : List Char → List Nat
  | [] => []
  | c :: cs =>
    let next := offset + c.utf8Size
    if c = '\n' then next :: startsFrom next cs else startsFrom next cs

/-- The line table of a text. The first line starts at offset zero, every other
line just behind a line feed. -/
def ofText (text : List Char) : Lines where
  starts := 0 :: startsFrom 0 text

/-- The location of a byte offset: its line is the number of lines that start at
or before it, its column the distance from the last of their starts. -/
def location (lines : Lines) (offset : Nat) : Location :=
  let begun := lines.starts.takeWhile (· ≤ offset)
  { line := begun.length, column := offset - begun.getLastD 0 + 1, offset }

/-- The span between two byte offsets. -/
def span (lines : Lines) (start stop : Nat) : Span :=
  { start := lines.location start, stop := lines.location stop }

end Lines

end Slate
