-- SUMMARY: Halving the line table finds the line of every byte offset, and it is the one that counting line feeds among the bytes finds.
import Mathlib.Data.List.DropRight
import Slate.Proofs.Source.Location

/-!
# Finding the line of an offset

What the location of a byte offset has to be is said by the bytes in front of it: one line
for every line feed among them, and one column for every byte behind the last of these. A
line feed is a byte of its own, which no other character has among its bytes, so an offset
inside of a character has a location too.

The table of line starts increases, so the line of an offset can be found by halving it. The
search ends at a line start or between two of them, and in the second case the line is the
one before. Here the steps that have no value in some places are written out with that in
mind: reading an entry past the end, and subtracting more than there is. For the table of a
text none of them is reached.
-/

namespace Slate

/-! ## Line feeds among bytes -/

/-- The byte that ends a line. -/
def lineFeed : UInt8 := 10

/-- The bytes of a source, which offsets count. -/
def bytesOf (source : String) : List UInt8 := source.toByteArray.data.toList

/-- The offsets just behind the line feeds among bytes that begin at `offset`. -/
def behindFeeds (offset : Nat) : List UInt8 → List Nat
  | [] => []
  | b :: bs =>
    if b = lineFeed then (offset + 1) :: behindFeeds (offset + 1) bs
    else behindFeeds (offset + 1) bs

theorem bytesOf_eq (source : String) :
    bytesOf source = source.toList.flatMap String.utf8EncodeChar := by
  rw [bytesOf, ← String.utf8Encode_toList, List.utf8Encode, List.toList_data_toByteArray]

theorem length_bytesOf (source : String) : (bytesOf source).length = source.utf8ByteSize := by
  rw [bytesOf, Array.length_toList, ← String.size_toByteArray]
  rfl

theorem lineFeed_ne_ofNat {n : Nat} (hbyte : n < 256) (h : n ≠ 10) :
    lineFeed ≠ UInt8.ofNat n := by
  intro heq
  have hnat := congrArg UInt8.toNat heq
  rw [UInt8.toNat_ofNat_of_lt' hbyte] at hnat
  exact h hnat.symm

/-- No other character has a line feed among its bytes. -/
theorem lineFeed_not_mem {c : Char} (h : c ≠ '\n') : lineFeed ∉ String.utf8EncodeChar c := by
  have hval : c.val.toNat ≠ 10 := fun hc => h (Char.toNat_inj.1 hc)
  unfold String.utf8EncodeChar
  dsimp only
  -- a character of one byte is that byte, and the bytes of any other are large
  split
  · next hascii =>
    rw [List.mem_singleton]
    exact lineFeed_ne_ofNat (by omega) hval
  · split
    · simp only [List.mem_cons, List.not_mem_nil, or_false, not_or]
      exact ⟨lineFeed_ne_ofNat (by omega) (by omega), lineFeed_ne_ofNat (by omega) (by omega)⟩
    · split <;> simp only [List.mem_cons, List.not_mem_nil, or_false, not_or]
      · refine ⟨?_, ?_, ?_⟩ <;> exact lineFeed_ne_ofNat (by omega) (by omega)
      · refine ⟨?_, ?_, ?_, ?_⟩ <;> exact lineFeed_ne_ofNat (by omega) (by omega)

section behindFeeds

variable {offset : Nat} {bs : List UInt8}

theorem behindFeeds_append (offset : Nat) (bs more : List UInt8) :
    behindFeeds offset (bs ++ more) =
      behindFeeds offset bs ++ behindFeeds (offset + bs.length) more := by
  induction bs generalizing offset with
  | nil => rfl
  | cons b bs ih =>
    have hnext : offset + (bs.length + 1) = offset + 1 + bs.length := by omega
    simp only [List.cons_append, behindFeeds, ih, List.length_cons, hnext]
    split
    · rfl
    · rfl

theorem behindFeeds_of_not_mem (h : lineFeed ∉ bs) : behindFeeds offset bs = [] := by
  induction bs generalizing offset with
  | nil => rfl
  | cons b bs ih =>
    obtain ⟨hb, hbs⟩ := not_or.1 (List.mem_cons.not.1 h)
    rw [behindFeeds, if_neg (Ne.symm hb), ih hbs]

theorem length_behindFeeds (offset : Nat) (bs : List UInt8) :
    (behindFeeds offset bs).length = bs.count lineFeed := by
  induction bs generalizing offset with
  | nil => rfl
  | cons b bs ih =>
    simp only [behindFeeds, List.count_cons, beq_iff_eq]
    split
    · rw [List.length_cons, ih]
    · rw [ih, Nat.add_zero]

theorem lt_of_mem_behindFeeds : ∀ start ∈ behindFeeds offset bs, offset < start := by
  induction bs generalizing offset with
  | nil => exact List.forall_mem_nil _
  | cons b bs ih =>
    have hrest : ∀ start ∈ behindFeeds (offset + 1) bs, offset < start :=
      fun start h => Nat.lt_of_succ_lt (ih start h)
    rw [behindFeeds]
    split
    · exact List.forall_mem_cons.2 ⟨Nat.lt_succ_self _, hrest⟩
    · exact hrest

theorem pairwise_behindFeeds : (behindFeeds offset bs).Pairwise (· < ·) := by
  induction bs generalizing offset with
  | nil => exact .nil
  | cons b bs ih =>
    rw [behindFeeds]
    split
    · exact List.pairwise_cons.2 ⟨lt_of_mem_behindFeeds, ih⟩
    · exact ih

/-- The line feeds up to an offset are those among the bytes in front of it. -/
theorem takeWhile_behindFeeds (offset n : Nat) (bs : List UInt8) :
    (behindFeeds offset bs).takeWhile (· ≤ offset + n) = behindFeeds offset (bs.take n) := by
  induction bs generalizing offset n with
  | nil => rw [List.take_nil]; rfl
  | cons b bs ih =>
    cases n with
    | zero =>
      -- all of them are behind the offset
      rw [List.take_zero, behindFeeds.eq_1, List.takeWhile_eq_nil_iff]
      intro hpos
      have := lt_of_mem_behindFeeds _ (List.getElem_mem hpos)
      simpa using this
    | succ n =>
      have hnext : offset + (n + 1) = offset + 1 + n := by omega
      rw [List.take_succ_cons, behindFeeds, behindFeeds, hnext]
      split
      · rw [List.takeWhile_cons_of_pos (by simp), ih]
      · exact ih (offset + 1) n

/-- The bytes behind the last line feed are those behind the last line start. -/
theorem lastStart_behindFeeds (offset : Nat) (bs : List UInt8) :
    (offset :: behindFeeds offset bs).getLastD 0 + (bs.rtakeWhile (· ≠ lineFeed)).length =
      offset + bs.length := by
  -- from the end, since that is where the last line feed is looked for
  induction bs using List.reverseRecOn with
  | nil => rfl
  | append_singleton bs b ih =>
    rw [behindFeeds_append, List.rtakeWhile_concat, List.length_append, List.length_singleton]
    by_cases hb : b = lineFeed
    · rw [behindFeeds, if_pos hb, behindFeeds, if_neg (by simpa using hb), ← List.cons_append,
        List.getLastD_concat]
      rfl
    · rw [behindFeeds, if_neg hb, behindFeeds, List.append_nil, if_pos (by simpa using hb),
        List.length_append, List.length_singleton, ← Nat.add_assoc, ih, Nat.add_assoc]

end behindFeeds

/-! ## The line table of a text -/

namespace Lines

theorem startsFrom_eq_behindFeeds (offset : Nat) (text : List Char) :
    startsFrom offset text = behindFeeds offset (text.flatMap String.utf8EncodeChar) := by
  induction text generalizing offset with
  | nil => rfl
  | cons c cs ih =>
    rw [startsFrom, List.flatMap_cons, behindFeeds_append, String.length_utf8EncodeChar, ih]
    by_cases hc : c = '\n'
    · rw [if_pos hc, hc]
      rfl
    · rw [if_neg hc, behindFeeds_of_not_mem (lineFeed_not_mem hc), List.nil_append]

theorem starts_eq_behindFeeds (source : String) :
    (ofText source.toList).starts = 0 :: behindFeeds 0 (bytesOf source) := by
  rw [ofText, startsFrom_eq_behindFeeds, bytesOf_eq]

/-- What the bytes in front of an offset say about its location. -/
def counted (source : String) (offset : Nat) : Location :=
  let before := (bytesOf source).take offset
  { line := 1 + before.count lineFeed
    column := 1 + (before.rtakeWhile (· ≠ lineFeed)).length
    offset }

theorem location_eq_counted {source : String} {offset : Nat} (h : offset ≤ source.utf8ByteSize) :
    (ofText source.toList).location offset = counted source offset := by
  have hbegun : (ofText source.toList).starts.takeWhile (· ≤ offset) =
      0 :: behindFeeds 0 ((bytesOf source).take offset) := by
    have hrest := takeWhile_behindFeeds 0 offset (bytesOf source)
    rw [Nat.zero_add] at hrest
    rw [starts_eq_behindFeeds, List.takeWhile_cons_of_pos (by simp), hrest]
  have hcolumn := lastStart_behindFeeds 0 ((bytesOf source).take offset)
  rw [List.length_take, length_bytesOf, Nat.min_eq_left h, Nat.zero_add] at hcolumn
  simp only [location, hbegun, counted]
  refine (Location.mk.injEq ..).mpr ⟨?_, ?_, rfl⟩
  · rw [List.length_cons, length_behindFeeds, Nat.add_comm]
  · omega

/-! ## Searching an increasing table -/

/-- What a search comes to: the place of the entry, or the place where it would have to be
put in. -/
inductive Place where
  | found (i : Nat)
  | missing (i : Nat)
deriving DecidableEq, Repr

/-- Searches the entries from `lo` up to and without `hi` by halving them. Reading an entry
that is not there has no value. -/
def searchBetween? (starts : List Nat) (offset lo hi : Nat) : Option Place :=
  if lo < hi then
    let middle := lo + (hi - lo) / 2
    match starts[middle]? with
    | none => none
    | some start =>
      if start = offset then some (.found middle)
      else if start < offset then searchBetween? starts offset (middle + 1) hi
      else searchBetween? starts offset lo middle
  else some (.missing lo)
termination_by hi - lo

/-- Searches all entries. -/
def search? (lines : Lines) (offset : Nat) : Option Place :=
  searchBetween? lines.starts offset 0 lines.starts.length

/-- The answer is right for the table: an entry that is found is there, and one that is missing
would have all smaller entries before it and all larger ones behind it. -/
def Place.Answers (starts : List Nat) (offset : Nat) : Place → Prop
  | .found i => starts[i]? = some offset
  | .missing i => i ≤ starts.length ∧ (∀ start ∈ starts.take i, start < offset) ∧
      ∀ start ∈ starts.drop i, offset < start

section search

variable {starts : List Nat} {offset lo hi i : Nat}

/-- Around an entry of an increasing table, the smaller ones are before it and the larger
ones behind it. -/
theorem lt_around (hsorted : starts.Pairwise (· < ·)) {start : Nat}
    (hstart : starts[i]? = some start) :
    (∀ other ∈ starts.take i, other < start) ∧ ∀ other ∈ starts.drop (i + 1), start < other := by
  obtain ⟨hi, rfl⟩ := List.getElem?_eq_some_iff.1 hstart
  rw [← List.take_append_drop i starts, List.drop_eq_getElem_cons hi, List.pairwise_append,
    List.pairwise_cons] at hsorted
  obtain ⟨-, ⟨hbehind, -⟩, hbefore⟩ := hsorted
  exact ⟨fun other hother => hbefore other hother _ List.mem_cons_self, hbehind⟩

/-- The search comes to a right answer, and reads no entry that is not there. -/
theorem exists_searchBetween? (hsorted : starts.Pairwise (· < ·)) (hlo : lo ≤ hi)
    (hhi : hi ≤ starts.length) (hbefore : ∀ start ∈ starts.take lo, start < offset)
    (hbehind : ∀ start ∈ starts.drop hi, offset < start) :
    ∃ place, searchBetween? starts offset lo hi = some place ∧ place.Answers starts offset := by
  fun_induction searchBetween? starts offset lo hi with
  | case1 lo hi hlt middle hnone =>
    have := List.getElem?_eq_none_iff.1 hnone
    omega
  | case2 lo hi hlt middle hstart => exact ⟨_, rfl, hstart⟩
  | case3 lo hi hlt middle start hstart hne hless ih =>
    refine ih (by omega) hhi (fun other hother => ?_) hbehind
    rw [List.take_add_one, hstart, List.mem_append] at hother
    rcases hother with hother | hother
    · exact Nat.lt_trans ((lt_around hsorted hstart).1 other hother) hless
    · exact List.mem_singleton.1 hother ▸ hless
  | case4 lo hi hlt middle start hstart hne hless ih =>
    have hlarger : offset < start := by omega
    refine ih (by omega) (by omega) hbefore fun other hother => ?_
    rw [List.drop_eq_getElem?_toList_append, hstart, List.mem_append] at hother
    rcases hother with hother | hother
    · exact List.mem_singleton.1 hother ▸ hlarger
    · exact Nat.lt_trans hlarger ((lt_around hsorted hstart).2 other hother)
  | case5 lo hi hge =>
    obtain rfl : lo = hi := Nat.le_antisymm hlo (Nat.le_of_not_lt hge)
    exact ⟨_, rfl, hhi, hbefore, hbehind⟩

theorem exists_search? {lines : Lines} (hsorted : lines.starts.Pairwise (· < ·)) (offset : Nat) :
    ∃ place, lines.search? offset = some place ∧ place.Answers lines.starts offset :=
  exists_searchBetween? hsorted (Nat.zero_le _) (Nat.le_refl _) (by simp) (by simp)

end search

/-! ## The location by the search -/

/-- The difference of two numbers, which has no value if the second is larger. -/
def subtract? (a b : Nat) : Option Nat := if b ≤ a then some (a - b) else none

/-- The number of the line that an offset is on, counted from zero: the one that starts there,
or the one before the place where a line that starts there would have to be put in. -/
def Place.line? : Place → Option Nat
  | .found line => some line
  | .missing next => subtract? next 1

/-- The location of a byte offset, found by search. -/
def locate? (lines : Lines) (offset : Nat) : Option Location := do
  let place ← lines.search? offset
  let line ← place.line?
  let start ← lines.starts[line]?
  let distance ← subtract? offset start
  return { line := line + 1, column := distance + 1, offset }

/-- If the entries that fulfil a condition are those before a place, so many are taken. -/
theorem takeWhile_eq_take {α : Type} {p : α → Bool} {l : List α} {n : Nat}
    (hbefore : ∀ x ∈ l.take n, p x = true) (hbehind : ∀ x ∈ l.drop n, p x = false) :
    l.takeWhile p = l.take n := by
  conv_lhs => rw [← List.take_append_drop n l]
  rw [List.takeWhile_append_of_pos hbefore]
  cases hdrop : l.drop n with
  | nil => rw [List.takeWhile_nil, List.append_nil]
  | cons x rest =>
    have hx := hbehind x (hdrop ▸ List.mem_cons_self)
    rw [List.takeWhile_cons_of_neg (by simp [hx]), List.append_nil]

/-- A right answer leads to the line that has begun last. -/
theorem Place.Answers.exists_line {lines : Lines} {offset : Nat} {place : Place}
    (hsorted : lines.starts.Pairwise (· < ·)) (hfirst : lines.starts.head? = some 0)
    (h : place.Answers lines.starts offset) :
    ∃ line, place.line? = some line ∧ line < lines.starts.length ∧
      lines.starts.takeWhile (· ≤ offset) = lines.starts.take (line + 1) := by
  cases place with
  | found line =>
    have hline : lines.starts[line]? = some offset := h
    obtain ⟨hbefore, hbehind⟩ := lt_around hsorted hline
    refine ⟨line, rfl, (List.getElem?_eq_some_iff.1 hline).1, takeWhile_eq_take ?_ ?_⟩
    · intro start hstart
      rw [List.take_add_one, hline, List.mem_append] at hstart
      rcases hstart with hstart | hstart
      · exact decide_eq_true (Nat.le_of_lt (hbefore start hstart))
      · exact decide_eq_true (Nat.le_of_eq (List.mem_singleton.1 hstart))
    · exact fun start hstart => decide_eq_false (Nat.not_le.2 (hbehind start hstart))
  | missing next =>
    obtain ⟨hnext, hbefore, hbehind⟩ := h
    cases next with
    | zero =>
      -- the first line starts at offset zero, which nothing is smaller than
      exact absurd (hbehind 0 (List.mem_of_head? hfirst)) (Nat.not_lt_zero offset)
    | succ line =>
      refine ⟨line, rfl, hnext, takeWhile_eq_take ?_ ?_⟩
      · exact fun start hstart => decide_eq_true (Nat.le_of_lt (hbefore start hstart))
      · exact fun start hstart => decide_eq_false (Nat.not_le.2 (hbehind start hstart))

theorem locate?_eq {lines : Lines} (hsorted : lines.starts.Pairwise (· < ·))
    (hfirst : lines.starts.head? = some 0) (offset : Nat) :
    lines.locate? offset = some (lines.location offset) := by
  obtain ⟨place, hplace, hanswers⟩ := exists_search? hsorted offset
  obtain ⟨line, hline, hlt, hbegun⟩ := hanswers.exists_line hsorted hfirst
  have hlast : (lines.starts.takeWhile (· ≤ offset)).getLastD 0 = lines.starts[line] := by
    rw [hbegun, List.take_succ_eq_append_getElem hlt, List.getLastD_concat]
  have hlength : (lines.starts.takeWhile (· ≤ offset)).length = line + 1 := by
    rw [hbegun, List.length_take, Nat.min_eq_left hlt]
  have hle := lines.lastStart_le offset
  simp only [locate?, hplace, hline, List.getElem?_eq_getElem hlt, subtract?, location, hlength,
    hlast, if_pos (hlast ▸ hle), Option.bind_eq_bind, Option.bind_some, Option.pure_def]

/-! ## Locations of a source -/

/-- The line table of a source increases from zero on. -/
theorem starts_ofText (source : String) :
    (ofText source.toList).starts.Pairwise (· < ·) ∧
      (ofText source.toList).starts.head? = some 0 := by
  rw [starts_eq_behindFeeds]
  exact ⟨List.pairwise_cons.2 ⟨lt_of_mem_behindFeeds, pairwise_behindFeeds⟩, rfl⟩

theorem contains_span_iff {lines : Lines} {a b c : Nat} :
    (lines.span a b).Contains (lines.location c) ↔ a ≤ c ∧ c ≤ b := by
  rw [Span.Contains, span, location_precedes_iff, location_precedes_iff, Nat.not_lt, Nat.not_lt]

/-- Every byte offset of a source has the location that the line feeds in front of it say, also
inside of a character and at the end: its line is one more than there are of them, and its
column one more than there are bytes behind the last. Halving the line table finds it, and has
a value in every step: no entry past the end is read, a place that is behind no entry has an
entry before it, and no line starts behind the offsets on it. Of two offsets, the smaller one
has the earlier location by line and column, so spans contain and merge as byte ranges do. -/
theorem locations_by_feeds (source : String) :
    (∀ offset ≤ source.utf8ByteSize,
      (ofText source.toList).locate? offset = some ((ofText source.toList).location offset) ∧
        (ofText source.toList).location offset = {
          line := 1 + ((bytesOf source).take offset).count lineFeed
          column := 1 + (((bytesOf source).take offset).rtakeWhile (· ≠ lineFeed)).length
          offset }) ∧
    (∀ a b, a < b ↔ ((ofText source.toList).location a).Precedes
      ((ofText source.toList).location b)) ∧
    (∀ a b c, ((ofText source.toList).span a b).Contains ((ofText source.toList).location c) ↔
      a ≤ c ∧ c ≤ b) ∧
    ∀ a b c d, ((ofText source.toList).span a b).merge ((ofText source.toList).span c d) =
      (ofText source.toList).span (min a c) (max b d) := by
  obtain ⟨hsorted, hfirst⟩ := starts_ofText source
  refine ⟨fun offset h => ⟨locate?_eq hsorted hfirst offset, location_eq_counted h⟩, ?_, ?_, ?_⟩
  · exact fun a b => location_precedes_iff.symm
  · exact fun a b c => contains_span_iff
  · exact fun a b c d => merge_span

/-- A character of two bytes, an empty line, and a line without a line feed behind it. -/
def brokenLines : String := "é\n\nxy"

/-- Inside of the character, at both line feeds, and at the end. -/
theorem locations_by_feeds_brokenLines :
    brokenLines.utf8ByteSize = 6 ∧
    [1, 2, 3, 6].map (ofText brokenLines.toList).locate? =
      [some ⟨1, 2, 1⟩, some ⟨1, 3, 2⟩, some ⟨2, 1, 3⟩, some ⟨3, 3, 6⟩] := by
  have hsize : brokenLines.utf8ByteSize = 6 := by decide +kernel
  have hcounted : ∀ offset ≤ 6,
      (ofText brokenLines.toList).locate? offset = some (counted brokenLines offset) := by
    intro offset h
    obtain ⟨hfound, hlocation⟩ := (locations_by_feeds brokenLines).1 offset (hsize ▸ h)
    rw [hfound, hlocation, counted]
  refine ⟨hsize, ?_⟩
  rw [List.map_congr_left (g := fun offset => some (counted brokenLines offset))]
  · decide +kernel
  · exact fun offset h => hcounted offset (by revert offset; decide)

end Lines

end Slate
