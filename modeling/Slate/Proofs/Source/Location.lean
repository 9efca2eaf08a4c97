-- SUMMARY: Lines and columns order the places of a text as its byte offsets do, so spans are merged as byte ranges are.
import Slate.Proofs.Source.Merge

/-!
# Locations of one text

Spans are compared by line and column only. For locations that come from one line table
this is no loss: of two byte offsets, the smaller one has the earlier location, so the
locations are coherent. The span from the earlier start to the later stop of two byte ranges
is the span of the range that covers both, and on spans between such locations merging is the
join of an order.
-/

namespace Slate

/-- What is taken while it is small enough is the first part of what is taken while it is
less small. -/
theorem takeWhile_prefix_of_imp {α : Type} {p q : α → Bool} (h : ∀ x, p x = true → q x = true)
    (l : List α) : l.takeWhile p <+: l.takeWhile q := by
  induction l with
  | nil => exact List.prefix_rfl
  | cons x l ih =>
    rw [List.takeWhile_cons, List.takeWhile_cons]
    cases hp : p x with
    | false => exact List.nil_prefix
    | true =>
      rw [h x hp]
      exact (List.prefix_cons_inj x).2 ih

namespace Lines

variable {lines : Lines} {a b c d : Nat}

/-- The line that a byte offset is on starts at or before it. -/
theorem lastStart_le (lines : Lines) (a : Nat) :
    (lines.starts.takeWhile (· ≤ a)).getLastD 0 ≤ a := by
  rw [List.getLastD_eq_getLast?]
  cases hlast : (lines.starts.takeWhile (· ≤ a)).getLast? with
  | none => exact Nat.zero_le a
  | some start =>
    have hmem := List.mem_of_getLast? hlast
    simpa using List.all_eq_true.1 List.all_takeWhile start hmem

/-- A smaller byte offset has an earlier location. -/
theorem precedes_of_lt (lines : Lines) (h : a < b) :
    (lines.location a).Precedes (lines.location b) := by
  have hprefix := takeWhile_prefix_of_imp (p := (· ≤ a)) (q := (· ≤ b))
    (fun x hx => by simp only [decide_eq_true_eq] at hx ⊢; omega) lines.starts
  rcases Nat.lt_or_eq_of_le hprefix.length_le with hline | hline
  · exact Or.inl hline
  · -- on one line, the start of the line is the same for both
    refine Or.inr ⟨hline, ?_⟩
    have hsame := hprefix.eq_of_length hline
    have hstart := lines.lastStart_le a
    simp only [location, ← hsame]
    omega

theorem location_precedes_iff :
    (lines.location a).Precedes (lines.location b) ↔ a < b := by
  constructor
  · intro h
    refine Nat.lt_of_not_le fun hle => ?_
    rcases Nat.lt_or_eq_of_le hle with hlt | rfl
    · exact (lines.precedes_of_lt hlt).asymm h
    · exact Location.not_precedes_self _ h
  · exact lines.precedes_of_lt

theorem coherent_location (lines : Lines) : Location.Coherent (Set.range lines.location) where
  determined := by
    rintro _ ⟨a, rfl⟩ _ ⟨b, rfl⟩ hline hcolumn
    have hle : a ≤ b := Nat.le_of_not_lt fun h =>
      Location.not_precedes_of_same hline.symm hcolumn.symm (lines.precedes_of_lt h)
    have hge : b ≤ a := Nat.le_of_not_lt fun h =>
      Location.not_precedes_of_same hline hcolumn (lines.precedes_of_lt h)
    exact Nat.le_antisymm hle hge
  increasing := by
    rintro _ ⟨a, rfl⟩ _ ⟨b, rfl⟩ h
    exact location_precedes_iff.1 h

theorem endsIn_span : (lines.span a b).EndsIn (Set.range lines.location) where
  start := ⟨a, rfl⟩
  stop := ⟨b, rfl⟩

/-- Merging the spans of two byte ranges yields the span of the range that covers both. -/
theorem merge_span :
    (lines.span a b).merge (lines.span c d) = lines.span (min a c) (max b d) := by
  have h := lines.coherent_location
  exact h.span_eq (endsIn_span.merge endsIn_span) endsIn_span
    (h.merge_start_offset endsIn_span endsIn_span) (h.merge_stop_offset endsIn_span endsIn_span)

end Lines

/-! ## Merging as a join -/

namespace Span

/-- Take spans that do not stop before they start, between places among which line and column
determine the offset and it increases with them, as among the locations of one source. On these,
merging is commutative, associative and idempotent, and yields such a span again. A merge
contains whatever either part contains, and the spans that cover it are just those that cover
both parts, so it is the least of them. It goes from the smaller of the start offsets to the
larger of the stop offsets. -/
theorem merge_least_cover :
    (∀ source : String, Location.Coherent (Set.range (Lines.ofText source.toList).location)) ∧
    ∀ places, Location.Coherent places → ∀ a b : Span, a.EndsIn places → b.EndsIn places →
      a.Forward → b.Forward →
      ((a.merge b).EndsIn places ∧ (a.merge b).Forward) ∧
      a.merge b = b.merge a ∧
      (∀ c : Span, (a.merge b).merge c = a.merge (b.merge c)) ∧
      a.merge a = a ∧
      (∀ l, a.Contains l ∨ b.Contains l → (a.merge b).Contains l) ∧
      (∀ s : Span, s.Covers (a.merge b) ↔ s.Covers a ∧ s.Covers b) ∧
      (a.merge b).start.offset = min a.start.offset b.start.offset ∧
      (a.merge b).stop.offset = max a.stop.offset b.stop.offset := by
  refine ⟨fun source => (Lines.ofText source.toList).coherent_location, ?_⟩
  intro places h a b ha hb hforward hforward'
  refine ⟨⟨ha.merge hb, hforward.merge b⟩, h.merge_comm ha hb, a.merge_assoc b, a.merge_self,
    ?_, ?_, h.merge_start_offset ha hb, h.merge_stop_offset ha hb⟩
  · exact fun l hl => contains_merge hl
  · exact fun s => covers_merge_iff hforward hforward'

/-- A character of two bytes, a line feed, and a line of two letters. -/
def twoLines : String := "é\nxy"

/-- The first line with its line feed, and the line feed with the letter behind it. -/
theorem merge_least_cover_twoLines :
    let places := Set.range (Lines.ofText twoLines.toList).location
    let a : Span := ⟨⟨1, 1, 0⟩, ⟨2, 1, 3⟩⟩
    let b : Span := ⟨⟨1, 3, 2⟩, ⟨2, 2, 4⟩⟩
    Location.Coherent places ∧ a.EndsIn places ∧ b.EndsIn places ∧ a.Forward ∧ b.Forward ∧
      a.merge b = b.merge a ∧ (a.merge b).Contains ⟨2, 1, 3⟩ ∧
      (∀ s : Span, s.Covers (a.merge b) ↔ s.Covers a ∧ s.Covers b) ∧
      (a.merge b).start.offset = 0 ∧ (a.merge b).stop.offset = 4 := by
  intro places a b
  have hplaces : Location.Coherent places := merge_least_cover.1 twoLines
  have ha : a.EndsIn places := ⟨⟨0, by decide +kernel⟩, ⟨3, by decide +kernel⟩⟩
  have hb : b.EndsIn places := ⟨⟨2, by decide +kernel⟩, ⟨4, by decide +kernel⟩⟩
  have hforward : a.Forward := by decide
  have hforward' : b.Forward := by decide
  obtain ⟨-, hcomm, -, -, hcontains, hcovers, hstart, hstop⟩ :=
    merge_least_cover.2 places hplaces a b ha hb hforward hforward'
  exact ⟨hplaces, ha, hb, hforward, hforward', hcomm, hcontains _ (.inl (by decide)), hcovers,
    hstart, hstop⟩

end Span

end Slate
