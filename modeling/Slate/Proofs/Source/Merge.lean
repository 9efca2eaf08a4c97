-- SUMMARY: Merging spans: what a merge covers follows from lines and columns alone, and where these determine the offset, the order of the spans is of no matter.
import Mathlib.Data.Set.Operations
import Slate.Source

/-!
# Merging spans

A merge takes the earlier start and the later stop of two spans by line and column, and the end
of the second span where these tell no difference. What it covers is a matter of the order of
lines and columns, whatever the offsets are, and so is that merging is associative: where
several ends come first, or last, it is always the one of the last span that is taken.

That two spans may be swapped is not. They may begin on one line and column and yet with
different offsets, and then each order yields another start. So this is a law of coherent places,
among which line and column stand for the offset. A span between such places is known by the
offsets of its ends, and merging takes the minimum of the one and the maximum of the other.
-/

namespace Slate

/-! ## Locations in order -/

namespace Location

variable {a b c : Location}

theorem Precedes.trans (hab : a.Precedes b) (hbc : b.Precedes c) : a.Precedes c := by
  unfold Precedes at *
  omega

theorem Precedes.asymm (h : a.Precedes b) : ¬ b.Precedes a := by
  unfold Precedes at *
  omega

theorem Precedes.trans_not (hab : a.Precedes b) (hbc : ¬ c.Precedes b) : a.Precedes c := by
  unfold Precedes at *
  omega

theorem precedes_of_not (hab : ¬ b.Precedes a) (hbc : b.Precedes c) : a.Precedes c := by
  unfold Precedes at *
  omega

theorem not_precedes_trans (hab : ¬ b.Precedes a) (hbc : ¬ c.Precedes b) : ¬ c.Precedes a := by
  unfold Precedes at *
  omega

theorem not_precedes_self (a : Location) : ¬ a.Precedes a := fun h => h.asymm h

theorem not_precedes_of_same (hline : a.line = b.line) (hcolumn : a.column = b.column) :
    ¬ a.Precedes b := by
  unfold Precedes
  omega

/-- Of two locations neither of which precedes the other, line and column are the same. -/
theorem same_of_not_precedes (hab : ¬ a.Precedes b) (hba : ¬ b.Precedes a) :
    a.line = b.line ∧ a.column = b.column := by
  unfold Precedes at *
  omega

end Location

/-- Taking the first of two that stands before the other, and the second of them if neither
does, is associative. -/
theorem choice_assoc {α : Type} {P : α → α → Prop} [DecidableRel P]
    (htrans : ∀ {x y z}, P x y → P y z → P x z)
    (hnot : ∀ {x y z}, ¬ P x y → ¬ P y z → ¬ P x z) (x y z : α) :
    (if P (if P x y then x else y) z then (if P x y then x else y) else z) =
      if P x (if P y z then y else z) then x else if P y z then y else z := by
  by_cases hxy : P x y
  · rw [if_pos hxy]
    by_cases hyz : P y z
    · rw [if_pos hyz, if_pos hxy, if_pos (htrans hxy hyz)]
    · rw [if_neg hyz]
  · rw [if_neg hxy]
    by_cases hyz : P y z
    · rw [if_pos hyz, if_neg hxy]
    · rw [if_neg hyz, if_neg (hnot hxy hyz)]

/-! ## What a merge covers -/

namespace Span

variable {a b c s t : Span} {l : Location}

/-- The span does not stop before it starts. -/
def Forward (s : Span) : Prop := ¬ s.stop.Precedes s.start

instance (s : Span) : Decidable s.Forward := inferInstanceAs (Decidable (¬ _))

/-- The first span contains both ends of the second one. -/
def Covers (s t : Span) : Prop := s.Contains t.start ∧ s.Contains t.stop

instance (s t : Span) : Decidable (s.Covers t) := inferInstanceAs (Decidable (_ ∧ _))

theorem Contains.forward (h : s.Contains l) : s.Forward := Location.not_precedes_trans h.1 h.2

theorem Forward.covers_self (h : s.Forward) : s.Covers s :=
  ⟨⟨Location.not_precedes_self _, h⟩, ⟨h, Location.not_precedes_self _⟩⟩

/-- What lies in a covered span lies in the span that covers it. -/
theorem Covers.contains (h : s.Covers t) (hl : t.Contains l) : s.Contains l :=
  ⟨Location.not_precedes_trans h.1.1 hl.1, Location.not_precedes_trans hl.2 h.2.2⟩

theorem Covers.trans (h : a.Covers b) (h' : b.Covers c) : a.Covers c :=
  ⟨h.contains h'.1, h.contains h'.2⟩

theorem merge_self (span : Span) : span.merge span = span := by
  simp [merge]

theorem merge_assoc (a b c : Span) : (a.merge b).merge c = a.merge (b.merge c) := by
  have hstart := choice_assoc (P := Location.Precedes) Location.Precedes.trans
    (fun h h' => Location.not_precedes_trans h' h) a.start b.start c.start
  have hstop := choice_assoc (P := fun l m => m.Precedes l) (fun h h' => h'.trans h)
    Location.not_precedes_trans a.stop b.stop c.stop
  exact (Span.mk.injEq ..).mpr ⟨hstart, hstop⟩

/-- A merge ends where the second span ends, unless that is before the first one ends. -/
theorem merge_stop (h : ¬ b.stop.Precedes a.stop) : (a.merge b).stop = b.stop := if_neg h

theorem merge_start_cases (a b : Span) :
    a.start.Precedes b.start ∧ (a.merge b).start = a.start ∨
      ¬ a.start.Precedes b.start ∧ (a.merge b).start = b.start := by
  by_cases h : a.start.Precedes b.start
  · exact .inl ⟨h, if_pos h⟩
  · exact .inr ⟨h, if_neg h⟩

theorem merge_stop_cases (a b : Span) :
    b.stop.Precedes a.stop ∧ (a.merge b).stop = a.stop ∨
      ¬ b.stop.Precedes a.stop ∧ (a.merge b).stop = b.stop := by
  by_cases h : b.stop.Precedes a.stop
  · exact .inl ⟨h, if_pos h⟩
  · exact .inr ⟨h, merge_stop h⟩

/-- What ends before either span begins ends before their merge begins. -/
theorem not_merge_start_precedes (ha : ¬ a.start.Precedes l) (hb : ¬ b.start.Precedes l) :
    ¬ (a.merge b).start.Precedes l := by
  obtain ⟨-, h⟩ | ⟨-, h⟩ := merge_start_cases a b
  · rwa [h]
  · rwa [h]

/-- A merge starts no later than either span. -/
theorem not_start_precedes_merge (a b : Span) :
    ¬ a.start.Precedes (a.merge b).start ∧ ¬ b.start.Precedes (a.merge b).start := by
  obtain ⟨hlt, h⟩ | ⟨hle, h⟩ := merge_start_cases a b
  · rw [h]
    exact ⟨Location.not_precedes_self _, hlt.asymm⟩
  · rw [h]
    exact ⟨hle, Location.not_precedes_self _⟩

/-- A merge stops no earlier than either span. -/
theorem not_merge_stop_precedes (a b : Span) :
    ¬ (a.merge b).stop.Precedes a.stop ∧ ¬ (a.merge b).stop.Precedes b.stop := by
  obtain ⟨hlt, h⟩ | ⟨hle, h⟩ := merge_stop_cases a b
  · rw [h]
    exact ⟨Location.not_precedes_self _, hlt.asymm⟩
  · rw [h]
    exact ⟨hle, Location.not_precedes_self _⟩

theorem contains_merge (h : a.Contains l ∨ b.Contains l) : (a.merge b).Contains l := by
  obtain ⟨hstart, hstart'⟩ := not_start_precedes_merge a b
  obtain ⟨hstop, hstop'⟩ := not_merge_stop_precedes a b
  obtain ⟨hfrom, hto⟩ | ⟨hfrom, hto⟩ := h
  · exact ⟨Location.not_precedes_trans hstart hfrom, Location.not_precedes_trans hto hstop⟩
  · exact ⟨Location.not_precedes_trans hstart' hfrom, Location.not_precedes_trans hto hstop'⟩

theorem Forward.merge (h : a.Forward) (b : Span) : (a.merge b).Forward :=
  (contains_merge (.inl h.covers_self.1)).forward

theorem Covers.merge (ha : s.Covers a) (hb : s.Covers b) : s.Covers (a.merge b) := by
  constructor
  · obtain ⟨-, h⟩ | ⟨-, h⟩ := merge_start_cases a b
    · exact h ▸ ha.1
    · exact h ▸ hb.1
  · obtain ⟨-, h⟩ | ⟨-, h⟩ := merge_stop_cases a b
    · exact h ▸ ha.2
    · exact h ▸ hb.2

/-- A merge is the least of the spans that cover both of its parts. -/
theorem covers_merge_iff (ha : a.Forward) (hb : b.Forward) :
    s.Covers (a.merge b) ↔ s.Covers a ∧ s.Covers b := by
  have hleft : (a.merge b).Covers a :=
    ⟨contains_merge (.inl ha.covers_self.1), contains_merge (.inl ha.covers_self.2)⟩
  have hright : (a.merge b).Covers b :=
    ⟨contains_merge (.inr hb.covers_self.1), contains_merge (.inr hb.covers_self.2)⟩
  exact ⟨fun h => ⟨h.trans hleft, h.trans hright⟩, fun h => h.1.merge h.2⟩

end Span

/-! ## Coherent places -/

/-- Among these places, line and column determine the offset, and it increases with them. -/
structure Location.Coherent (places : Set Location) : Prop where
  determined : ∀ a ∈ places, ∀ b ∈ places,
    a.line = b.line → a.column = b.column → a.offset = b.offset
  increasing : ∀ a ∈ places, ∀ b ∈ places, a.Precedes b → a.offset < b.offset

/-- Both ends of the span are among these places. -/
structure Span.EndsIn (places : Set Location) (s : Span) : Prop where
  start : s.start ∈ places
  stop : s.stop ∈ places

/-- Each end of a merge is an end of one of its parts. -/
theorem Span.EndsIn.merge {places : Set Location} {a b : Span} (ha : a.EndsIn places)
    (hb : b.EndsIn places) : (a.merge b).EndsIn places where
  start := by
    obtain ⟨-, h⟩ | ⟨-, h⟩ := merge_start_cases a b
    · exact h ▸ ha.start
    · exact h ▸ hb.start
  stop := by
    obtain ⟨-, h⟩ | ⟨-, h⟩ := merge_stop_cases a b
    · exact h ▸ ha.stop
    · exact h ▸ hb.stop

namespace Location.Coherent

variable {places : Set Location} {l m : Location} {a b : Span}

theorem precedes_iff (h : Coherent places) (hl : l ∈ places) (hm : m ∈ places) :
    l.Precedes m ↔ l.offset < m.offset := by
  refine ⟨h.increasing l hl m hm, fun hlt => ?_⟩
  by_contra hnot
  by_cases hback : m.Precedes l
  · have hgt := h.increasing m hm l hl hback
    omega
  · obtain ⟨hline, hcolumn⟩ := same_of_not_precedes hnot hback
    have hsame := h.determined l hl m hm hline hcolumn
    omega

theorem eq_of_offset (h : Coherent places) (hl : l ∈ places) (hm : m ∈ places)
    (hoffset : l.offset = m.offset) : l = m := by
  have hbefore : ¬ l.Precedes m := by
    rw [h.precedes_iff hl hm]
    omega
  have hbehind : ¬ m.Precedes l := by
    rw [h.precedes_iff hm hl]
    omega
  obtain ⟨hline, hcolumn⟩ := same_of_not_precedes hbefore hbehind
  exact (Location.mk.injEq ..).mpr ⟨hline, hcolumn, hoffset⟩

theorem span_eq (h : Coherent places) (ha : a.EndsIn places) (hb : b.EndsIn places)
    (hstart : a.start.offset = b.start.offset) (hstop : a.stop.offset = b.stop.offset) :
    a = b :=
  (Span.mk.injEq ..).mpr
    ⟨h.eq_of_offset ha.start hb.start hstart, h.eq_of_offset ha.stop hb.stop hstop⟩

theorem merge_start_offset (h : Coherent places) (ha : a.EndsIn places) (hb : b.EndsIn places) :
    (a.merge b).start.offset = min a.start.offset b.start.offset := by
  obtain ⟨horder, heq⟩ | ⟨horder, heq⟩ := a.merge_start_cases b
  · rw [h.precedes_iff ha.start hb.start] at horder
    rw [heq, Nat.min_eq_left (Nat.le_of_lt horder)]
  · rw [h.precedes_iff ha.start hb.start] at horder
    rw [heq, Nat.min_eq_right (Nat.le_of_not_lt horder)]

theorem merge_stop_offset (h : Coherent places) (ha : a.EndsIn places) (hb : b.EndsIn places) :
    (a.merge b).stop.offset = max a.stop.offset b.stop.offset := by
  obtain ⟨horder, heq⟩ | ⟨horder, heq⟩ := a.merge_stop_cases b
  · rw [h.precedes_iff hb.stop ha.stop] at horder
    rw [heq, Nat.max_eq_left (Nat.le_of_lt horder)]
  · rw [h.precedes_iff hb.stop ha.stop] at horder
    rw [heq, Nat.max_eq_right (Nat.le_of_not_lt horder)]

theorem merge_comm (h : Coherent places) (ha : a.EndsIn places) (hb : b.EndsIn places) :
    a.merge b = b.merge a := by
  refine h.span_eq (ha.merge hb) (hb.merge ha) ?_ ?_
  · rw [h.merge_start_offset ha hb, h.merge_start_offset hb ha, Nat.min_comm]
  · rw [h.merge_stop_offset ha hb, h.merge_stop_offset hb ha, Nat.max_comm]

/-- Of spans that share lines and columns but not the offsets, the second one is taken. -/
example : Span.merge ⟨⟨1, 1, 0⟩, ⟨1, 2, 1⟩⟩ ⟨⟨1, 1, 5⟩, ⟨1, 2, 6⟩⟩ ≠
    Span.merge ⟨⟨1, 1, 5⟩, ⟨1, 2, 6⟩⟩ ⟨⟨1, 1, 0⟩, ⟨1, 2, 1⟩⟩ := by
  decide

end Location.Coherent

end Slate
