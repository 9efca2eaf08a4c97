-- SUMMARY: Tokens written one behind the other, with a space between, are cut apart again as they were written.
import Slate.Proofs.Token.Lossless

/-!
# Printing and reading back

A class of tokens and one of its spellings make a word. Words that are printed with single
spaces between them come back from the lexer one by one: no match of any rule goes on
behind a word over a space, except for the pieces of a string, which closes where its word
ends. So whatever the word, and whatever word comes behind, just that word is taken.
-/

namespace Slate

open scoped Computability
open Lexer

/-! ## Spellings -/

/-- A text that a token of the class can have: one of the pattern of the class, and no
reserved word or type name if it is to be an identifier. -/
structure Kind.Spells (kind : Kind) (text : String) : Prop where
  fits : text.toList ∈ kind.pattern
  unreserved : kind = .identifier → (∀ k : Keyword, text ≠ k.text) ∧ ∀ ty : Ty, text ≠ ty.text

namespace Lexer

variable {w rest : List Char} {c : Char}

theorem not_isWordPart_of_isBlank (h : isBlank c = true) : isWordPart c = false := by
  obtain rfl | rfl | rfl | rfl | rfl := isBlank_iff.1 h <;> decide

theorem not_isDigit_of_isBlank (h : isBlank c = true) : c.isDigit = false := by
  obtain rfl | rfl | rfl | rfl | rfl := isBlank_iff.1 h <;> decide

/-- Characters of a class are taken up to where the class ends. -/
theorem takeWhile_append_of_head {p : Char → Bool} (hw : ∀ c ∈ w, p c = true)
    (hrest : ∀ c ∈ rest.head?, p c = false) : (w ++ rest).takeWhile p = w := by
  rw [List.takeWhile_append_of_pos hw]
  cases rest with
  | nil => exact List.append_nil w
  | cons c rest => rw [List.takeWhile_cons_of_neg (by rw [hrest c rfl]; nofun), List.append_nil]

/-! ## Words and integers -/

theorem takes_word_of_blank (hw : w ∈ Kind.identifier.pattern)
    (hrest : ∀ c ∈ rest.head?, isBlank c = true) :
    (Rule.token (wordKind w)).Takes w (w ++ rest) := by
  obtain ⟨c, v, hc, hv, rfl⟩ := mem_run.1 hw
  have htake : (v ++ rest).takeWhile isWordPart = v :=
    takeWhile_append_of_head (fun d hd => isWordPart_iff.2 (hv d hd)) fun d hd =>
      not_isWordPart_of_isBlank (hrest d hd)
  have htakes := @takes_word c (v ++ rest) (isWordStart_iff.2 hc)
  rwa [htake] at htakes

theorem takes_integer_of_blank (hw : w ∈ Kind.integer.pattern)
    (hrest : ∀ c ∈ rest.head?, isBlank c = true) :
    (Rule.token .integer).Takes w (w ++ rest) := by
  obtain ⟨c, v, hc, hv, rfl⟩ := mem_run.1 hw
  have htake : (v ++ rest).takeWhile Char.isDigit = v :=
    takeWhile_append_of_head (fun d hd => isDigit_iff.2 (hv d hd)) fun d hd =>
      not_isDigit_of_isBlank (hrest d hd)
  have htakes := @takes_integer c (v ++ rest) (isDigit_iff.2 hc)
  rwa [htake] at htakes

theorem wordKind_of_unreserved {text : String} (hkeyword : ∀ k : Keyword, text ≠ k.text)
    (hty : ∀ ty : Ty, text ≠ ty.text) : wordKind text.toList = .identifier := by
  have hnoKeyword : Keyword.all.find? (·.text.toList == text.toList) = none := by
    refine List.find?_eq_none.2 fun k _ hk => ?_
    exact hkeyword k (String.toList_injective (beq_iff_eq.1 hk)).symm
  have hnoTy : Ty.all.find? (·.text.toList == text.toList) = none := by
    refine List.find?_eq_none.2 fun ty _ h => ?_
    exact hty ty (String.toList_injective (beq_iff_eq.1 h)).symm
  rw [wordKind, hnoKeyword, hnoTy]

/-! ## Strings -/

/-- A string closes where it ends, whatever comes behind it. -/
theorem takes_string_append (hw : w ∈ Kind.string.pattern) (rest : List Char) :
    (Rule.token .string).Takes w (w ++ rest) := by
  obtain ⟨v, hv, rfl⟩ := mem_string.1 hw
  have hbody : stringBody (v ++ '"' :: rest) = .ok (v.length + 1) := stringBody_closed hv rest
  obtain ⟨u, hlength, htakes⟩ := takes_string hbody
  have hsame : '"' :: (v ++ ['"']) ++ rest = '"' :: (v ++ '"' :: rest) := by simp
  rw [hsame]
  have hu : u = '"' :: (v ++ ['"']) := by
    refine (List.prefix_of_prefix_length_le htakes.front ⟨rest, hsame⟩ ?_).eq_of_length ?_ <;>
      simp [hlength]
  rwa [hu] at htakes

/-! ## Marks -/

theorem not_isBlank_of_mem_mark {m : Mark} : ∀ c ∈ m.text.toList, isBlank c = false := by
  have hall : m.text.toList.all (fun c => !isBlank c) = true := by cases m <;> decide
  simpa only [List.all_eq_true, Bool.not_eq_true'] using hall

/-- What goes on behind `w` takes the next character along. -/
theorem head_mem_of_longer {v : List Char} (hfront : v <+: w ++ rest) (h : w.length < v.length) :
    ∃ c ∈ rest.head?, c ∈ v := by
  obtain ⟨x, rfl⟩ := List.prefix_of_prefix_length_le (List.prefix_append w rest) hfront h.le
  cases x with
  | nil => simp at h
  | cons c x =>
    obtain ⟨more, hmore⟩ := (List.prefix_append_right_inj w).1 hfront
    exact ⟨c, by rw [← hmore]; rfl, by simp⟩

/-- A mark is found again where the text behind it begins with a blank. -/
theorem markAt_append (m : Mark) (hrest : ∀ c ∈ rest.head?, isBlank c = true) :
    markAt (m.text.toList ++ rest) = some m := by
  have hfront : m.text.toList <+: m.text.toList ++ rest := List.prefix_append _ _
  cases hfound : markAt (m.text.toList ++ rest) with
  | none => exact absurd hfront (markAt_eq_none hfound m)
  | some m' =>
    obtain ⟨hfront', hlongest⟩ := markAt_eq_some hfound
    -- a longer mark would go on over the blank
    have hle : m'.text.toList.length ≤ m.text.toList.length := by
      by_contra hlonger
      obtain ⟨c, hc, hmem⟩ := head_mem_of_longer hfront' (Nat.lt_of_not_le hlonger)
      have hblank := hrest c hc
      rw [not_isBlank_of_mem_mark c hmem] at hblank
      cases hblank
    have htext : m'.text.toList = m.text.toList :=
      (List.prefix_of_prefix_length_le hfront' hfront hle).eq_of_length
        (Nat.le_antisymm hle (hlongest m hfront))
    have hm := markAt_text m'
    rw [htext, markAt_text] at hm
    exact hm.symm

/-- No mark begins a comment, not even with what is behind it if that is a blank. -/
theorem gapLength_mark_append (m : Mark) (hrest : ∀ c ∈ rest.head?, isBlank c = true) :
    gapLength false (m.text.toList ++ rest) = 0 := by
  have hblank := @not_isBlank_of_mem_mark m
  have hslashes : ¬ ['/', '/'] <+: m.text.toList := by cases m <;> decide
  cases htext : m.text.toList with
  | nil => cases m <;> cases htext
  | cons c v =>
    rw [htext] at hblank hslashes
    refine gapLength_eq_zero.2 ⟨hblank c List.mem_cons_self, ?_⟩
    rintro ⟨rfl, hslash⟩
    cases v with
    | nil =>
      have hspace := hrest _ hslash
      rw [hblank _ List.mem_cons_self] at hspace
      cases hspace
    | cons d v =>
      obtain rfl := Option.some.inj hslash
      exact hslashes ⟨v, rfl⟩

theorem takes_mark_of_blank (m : Mark) (hrest : ∀ c ∈ rest.head?, isBlank c = true) :
    (Rule.token (.mark m)).Takes m.text.toList (m.text.toList ++ rest) := by
  have hfits : m.text.toList ∈ (Rule.token (.mark m)).pattern := rfl
  obtain ⟨c, v, htext, hopening⟩ := Rule.opens hfits
  have hmark := markAt_append m hrest
  have hgap := gapLength_mark_append m hrest
  rw [htext] at hmark hgap
  have htakes := takes_mark hopening hgap hmark
  rwa [htext] at htakes ⊢

end Lexer

/-- In front of a blank, or of the end, just the word is taken. -/
theorem Kind.Spells.takes {kind : Kind} {text : String} (h : kind.Spells text) {rest : List Char}
    (hrest : ∀ c ∈ rest.head?, isBlank c = true) :
    (Rule.token kind).Takes text.toList (text.toList ++ rest) := by
  have hfits := h.fits
  cases kind with
  | keyword k =>
    obtain rfl := String.toList_injective (Set.mem_singleton_iff.1 hfits)
    have hword := @mem_identifier_of_opening (.token (.keyword k)) rfl _ hfits
    have htakes := takes_word_of_blank hword hrest
    rwa [wordKind_keyword] at htakes
  | typeName ty =>
    obtain rfl := String.toList_injective (Set.mem_singleton_iff.1 hfits)
    have hword := @mem_identifier_of_opening (.token (.typeName ty)) rfl _ hfits
    have htakes := takes_word_of_blank hword hrest
    rwa [wordKind_typeName] at htakes
  | identifier =>
    obtain ⟨hkeyword, hty⟩ := h.unreserved rfl
    have htakes := takes_word_of_blank hfits hrest
    rwa [wordKind_of_unreserved hkeyword hty] at htakes
  | integer => exact takes_integer_of_blank hfits hrest
  | string => exact takes_string_append hfits rest
  | mark m =>
    obtain rfl := String.toList_injective (Set.mem_singleton_iff.1 hfits)
    exact takes_mark_of_blank m hrest

/-! ## Printed words -/

/-- Words printed with a single space between each and the next. -/
def spaced (words : List (Kind × String)) : String := " ".intercalate (words.map Prod.snd)

/-- The number of bytes printed in front of the word that comes behind these. -/
def bytesBefore : List (Kind × String) → Nat
  | [] => 0
  | (_, text) :: words => text.utf8ByteSize + 1 + bytesBefore words

/-- The tokens of words printed from a byte offset on. -/
def printedFrom (lines : Lines) (offset : Nat) : List (Kind × String) → List Token
  | [] => []
  | (kind, text) :: words =>
    let stop := offset + text.utf8ByteSize
    ⟨kind, text, lines.span offset stop⟩ :: printedFrom lines (stop + 1) words

section

variable {lines : Lines} {words : List (Kind × String)}

theorem toList_spaced_cons (word next : Kind × String) (words : List (Kind × String)) :
    (spaced (word :: next :: words)).toList =
      word.2.toList ++ ([' '] ++ (spaced (next :: words)).toList) := by
  simp [spaced]

theorem kind_text_printedFrom (offset : Nat) :
    (printedFrom lines offset words).map (fun t => (t.kind, t.text)) = words := by
  induction words generalizing offset with
  | nil => rfl
  | cons word words ih => rw [printedFrom, List.map_cons, ih]

/-- Every word is printed behind those before it. -/
theorem printedFrom_append (offset : Nat) (before after : List (Kind × String)) :
    printedFrom lines offset (before ++ after) =
      printedFrom lines offset before ++ printedFrom lines (offset + bytesBefore before) after := by
  induction before generalizing offset with
  | nil => rfl
  | cons word before ih =>
    have hoffset : offset + bytesBefore (word :: before) =
        offset + word.2.utf8ByteSize + 1 + bytesBefore before := by
      rw [bytesBefore]
      omega
    rw [List.cons_append, printedFrom, ih, printedFrom, List.cons_append, hoffset]

theorem length_printedFrom (offset : Nat) :
    (printedFrom lines offset words).length = words.length := by
  rw [← List.length_map (f := fun t : Token => (t.kind, t.text)), kind_text_printedFrom]

theorem byteLength_toList (text : String) : byteLength text.toList = text.utf8ByteSize := by
  rw [byteLength_eq_utf8ByteSize, String.ofList_toList]

/-- From the front of the words on, the lexer yields the tokens that were printed. -/
theorem tokensFrom_spaced (h : ∀ word ∈ words, word.1.Spells word.2) (offset : Nat) :
    tokensFrom lines offset (spaced words).toList = .ok (printedFrom lines offset words) := by
  induction words generalizing offset with
  | nil => rw [tokensFrom_eq_tokensAt rfl]; rfl
  | cons word words ih =>
    obtain ⟨hword, hwords⟩ := List.forall_mem_cons.1 h
    cases words with
    | nil =>
      have hlast : (spaced [word]).toList = word.2.toList ++ [] := by simp [spaced]
      rw [hlast, tokensFrom_token (hword.takes (by simp)), tokensFrom_eq_tokensAt rfl, tokensAt,
        byteLength_toList, String.ofList_toList, Except.map, printedFrom, printedFrom]
    | cons next words =>
      have hblank : ∀ c ∈ ([' '] ++ (spaced (next :: words)).toList).head?, isBlank c = true := by
        rintro _ ⟨⟩
        rfl
      rw [toList_spaced_cons, tokensFrom_token (hword.takes hblank),
        tokensFrom_append (gapLength_blanks (List.forall_mem_singleton.2 rfl)), ih hwords,
        byteLength_toList, String.ofList_toList, Except.map, printedFrom]
      rfl

end

/-- Printing is undone by the lexer. Words that are spellings of their classes, printed with
single spaces between them, come back as tokens of just these classes and texts, each with the
span at which it was printed. -/
theorem tokenize_spaced {words : List (Kind × String)}
    (h : ∀ word ∈ words, word.1.Spells word.2) :
    ∃ ts, tokenize (spaced words) = .ok ts ∧ ts.map (fun t => (t.kind, t.text)) = words ∧
      ∀ before word after, words = before ++ word :: after →
        ts[before.length]?.map Token.span =
          some ((Lines.ofText (spaced words).toList).span (bytesBefore before)
            (bytesBefore before + word.2.utf8ByteSize)) := by
  refine ⟨_, tokensFrom_spaced h 0, kind_text_printedFrom 0, ?_⟩
  intro before word after hwords
  rw [hwords, printedFrom_append, Nat.zero_add, printedFrom]
  rw [List.getElem?_append_right (length_printedFrom _).le, length_printedFrom, Nat.sub_self]
  rfl

/-- Words that would be read otherwise without the spaces: a comment, an arrow, a longer mark,
one identifier; and a string with a comment, a quote and a line feed in it. -/
def neighbours : List (Kind × String) :=
  [(.mark .slash, "/"), (.mark .slash, "/"), (.mark .minus, "-"), (.mark .greater, ">"),
    (.mark .equal, "="), (.mark .equalEqual, "=="), (.keyword .letKw, "let"),
    (.identifier, "lets"), (.integer, "07"), (.string, "\"//\\\"\n\"")]

theorem neighbours_spelled : ∀ word ∈ neighbours, word.1.Spells word.2 := by
  have hidentifier : Kind.identifier.Spells "lets" :=
    { fits := mem_identifier_of_all (by decide) (by decide)
      unreserved := fun _ => ⟨fun k => by cases k <;> decide, fun ty => by cases ty <;> decide⟩ }
  have hinteger : Kind.integer.Spells "07" :=
    { fits := mem_run.2 ⟨'0', ['7'], by unfold Digit; decide,
        List.forall_mem_singleton.2 (by unfold Digit; decide), rfl⟩
      unreserved := nofun }
  have hslash : ['/'] ∈ stringPiece := singleton_mem_stringPiece (by decide) (by decide)
  have hquote : ['\\', '"'] ∈ stringPiece := escape_mem_stringPiece (by decide)
  have hfeed : ['\n'] ∈ stringPiece := singleton_mem_stringPiece (by decide) (by decide)
  have hpieces : ['/'] ++ (['/'] ++ (['\\', '"'] ++ (['\n'] ++ []))) ∈ stringPiece∗ :=
    append_mem_star hslash (append_mem_star hslash (append_mem_star hquote
      (append_mem_star hfeed (Language.nil_mem_kstar _))))
  have hstring : Kind.string.Spells "\"//\\\"\n\"" :=
    { fits := mem_string.2 ⟨_, hpieces, rfl⟩, unreserved := nofun }
  simp only [neighbours, List.forall_mem_cons]
  exact ⟨⟨rfl, nofun⟩, ⟨rfl, nofun⟩, ⟨rfl, nofun⟩, ⟨rfl, nofun⟩, ⟨rfl, nofun⟩, ⟨rfl, nofun⟩,
    ⟨rfl, nofun⟩, hidentifier, hinteger, hstring, nofun⟩

/-- Each of the neighbours comes back as it was printed. -/
theorem tokenize_spaced_neighbours :
    (∀ word ∈ neighbours, word.1.Spells word.2) ∧
      ∃ ts, tokenize (spaced neighbours) = .ok ts ∧
        ts.map (fun t => (t.kind, t.text)) = neighbours ∧
        ∀ before word after, neighbours = before ++ word :: after →
          ts[before.length]?.map Token.span =
            some ((Lines.ofText (spaced neighbours).toList).span (bytesBefore before)
              (bytesBefore before + word.2.utf8ByteSize)) :=
  ⟨neighbours_spelled, tokenize_spaced neighbours_spelled⟩

end Slate
