-- SUMMARY: The patterns of tokens, blanks and comments as languages, and the cut of the lexer as the longest match among them.
import Mathlib.Computability.Language
import Slate.Token.Lexer

/-!
# Patterns

Every class of tokens has a pattern, the language of its texts, and so have blanks
and comments. At the front of a text the rule with the longest match wins; of two
that match alike, only words are such, the identifier gives way. `munch` and
`gapLength` look at the front of a text one character at a time, and take what the
winning rule takes.
-/

namespace Slate.Lexer

open scoped Computability

/-! ## Languages -/

/-- The texts of one character of a class. -/
def one (p : Char → Prop) : Language Char := {w | ∃ c, p c ∧ w = [c]}

def Letter (c : Char) : Prop := ('a' ≤ c ∧ c ≤ 'z') ∨ ('A' ≤ c ∧ c ≤ 'Z')

def Digit (c : Char) : Prop := '0' ≤ c ∧ c ≤ '9'

def Blank (c : Char) : Prop := c = ' ' ∨ c = '\t' ∨ c = '\r' ∨ c = '\n' ∨ c = '\x0c'

/-- What can stand between the quotes of a string: a character that is neither a quote nor a
backslash, or a backslash with any character behind it but a line feed. -/
def stringPiece : Language Char :=
  one (fun c => c ≠ '"' ∧ c ≠ '\\') + one (· = '\\') * one (· ≠ '\n')

end Lexer

open scoped Computability
open Lexer (one Letter Digit Blank stringPiece)

/-- The texts of a class of tokens. -/
def Kind.pattern : Kind → Language Char
  | .keyword k => {k.text.toList}
  | .typeName ty => {ty.text.toList}
  | .identifier =>
    one (fun c => Letter c ∨ c = '_') * (one fun c => Letter c ∨ Digit c ∨ c = '_')∗
  | .integer => one Digit * (one Digit)∗
  | .string => one (· = '"') * stringPiece∗ * one (· = '"')
  | .mark m => {m.text.toList}

namespace Lexer

/-- What the front of a text can be read as: blanks or a comment, which are left out, or a
token. -/
inductive Rule where
  | blanks
  | comment
  | token (kind : Kind)
deriving DecidableEq, Repr

namespace Rule

def pattern : Rule → Language Char
  | blanks => one Blank * (one Blank)∗
  | comment => one (· = '/') * one (· = '/') * (one (· ≠ '\n'))∗
  | token kind => kind.pattern

/-- The class of tokens that a rule yields, if any. -/
def kind? : Rule → Option Kind
  | blanks | comment => none
  | token kind => some kind

/-- The rule takes `w` from the front of the text: there is no longer match, and another
match of this length can only be that of identifiers. -/
structure Takes (rule : Rule) (w cs : List Char) : Prop where
  fits : w ∈ rule.pattern
  front : w <+: cs
  longest : ∀ other : Rule, ∀ v ∈ other.pattern, v <+: cs → v.length ≤ w.length
  first : ∀ other : Rule, w ∈ other.pattern → other = rule ∨ other = token .identifier

/-- A text is taken from by one rule only, and only one part of its front. -/
theorem Takes.unique {rule rule' : Rule} {w w' cs : List Char} (h : rule.Takes w cs)
    (h' : rule'.Takes w' cs) : rule = rule' ∧ w = w' := by
  have hlength : w.length = w'.length :=
    Nat.le_antisymm (h'.longest rule w h.fits h.front) (h.longest rule' w' h'.fits h'.front)
  have hw : w = w' := (List.prefix_of_prefix_length_le h.front h'.front hlength.le).eq_of_length
    hlength
  subst hw
  refine ⟨?_, rfl⟩
  obtain hrule | hrule := h.first rule' h'.fits
  · exact hrule.symm
  · obtain hrule' | hrule' := h'.first rule h.fits
    · exact hrule'
    · rw [hrule, hrule']

end Rule

/-- No rule matches any part of the front of the text but the empty one. -/
def Stuck (cs : List Char) : Prop :=
  ∀ rule : Rule, ∀ w ∈ rule.pattern, w <+: cs → w = []

/-- What is behind the pieces of a string that does not close: nothing, or a backslash with
nothing or a line feed behind it. -/
def Unclosed (cs : List Char) : Prop := cs = [] ∨ cs = ['\\'] ∨ ∃ more, cs = '\\' :: '\n' :: more

/-- `Blames w cs`: where no rule matches, `w` is the part of the text that is to blame. It is
the first character; but of a string that does not close, all its pieces. -/
inductive Blames : List Char → List Char → Prop where
  | character {c : Char} {cs : List Char} : c ≠ '"' → Blames [c] (c :: cs)
  | string {w rest : List Char} :
      w ∈ stringPiece∗ → Unclosed rest → Blames ('"' :: w) ('"' :: (w ++ rest))

/-! ## Members of languages -/

theorem mem_star_one {p : Char → Prop} {w : List Char} : w ∈ (one p)∗ ↔ ∀ c ∈ w, p c := by
  rw [Language.mem_kstar]
  constructor
  · rintro ⟨words, rfl, hwords⟩ c hc
    obtain ⟨word, hword, hc⟩ := List.mem_flatten.1 hc
    obtain ⟨d, hd, rfl⟩ := hwords word hword
    rwa [List.mem_singleton.1 hc]
  · intro hw
    refine ⟨w.map ([·]), ?_, ?_⟩
    · rw [← List.flatMap_def, List.flatMap_singleton']
    · intro word hword
      obtain ⟨c, hc, rfl⟩ := List.mem_map.1 hword
      exact ⟨c, hw c hc, rfl⟩

theorem mem_one_mul {p : Char → Prop} {l : Language Char} {w : List Char} :
    w ∈ one p * l ↔ ∃ c v, p c ∧ v ∈ l ∧ w = c :: v := by
  rw [Language.mem_mul]
  constructor
  · rintro ⟨_, ⟨c, hc, rfl⟩, v, hv, rfl⟩
    exact ⟨c, v, hc, hv, rfl⟩
  · rintro ⟨c, v, hc, hv, rfl⟩
    exact ⟨[c], ⟨c, hc, rfl⟩, v, hv, rfl⟩

/-- A character of one class, then any number of another. -/
theorem mem_run {p q : Char → Prop} {w : List Char} :
    w ∈ one p * (one q)∗ ↔ ∃ c v, p c ∧ (∀ d ∈ v, q d) ∧ w = c :: v := by
  simp only [mem_one_mul, mem_star_one]

theorem isAlpha_iff {c : Char} : c.isAlpha = true ↔ Letter c := by
  have hupper : c.isUpper = true ↔ 'A' ≤ c ∧ c ≤ 'Z' := decide_eq_true_iff
  have hlower : c.isLower = true ↔ 'a' ≤ c ∧ c ≤ 'z' :=
    Bool.and_eq_true_iff.trans (and_congr decide_eq_true_iff decide_eq_true_iff)
  calc c.isAlpha = true
    _ ↔ c.isUpper = true ∨ c.isLower = true := Bool.or_eq_true_iff
    _ ↔ Letter c := by rw [hupper, hlower, Letter, or_comm]

theorem isDigit_iff {c : Char} : c.isDigit = true ↔ Digit c :=
  Bool.and_eq_true_iff.trans (and_congr decide_eq_true_iff decide_eq_true_iff)

theorem isWordStart_iff {c : Char} : isWordStart c = true ↔ Letter c ∨ c = '_' := by
  rw [isWordStart, Bool.or_eq_true, isAlpha_iff, beq_iff_eq]

theorem isWordPart_iff {c : Char} : isWordPart c = true ↔ Letter c ∨ Digit c ∨ c = '_' := by
  simp only [isWordPart, Char.isAlphanum, Bool.or_eq_true, isAlpha_iff, isDigit_iff,
    beq_iff_eq, or_assoc]

theorem isBlank_iff {c : Char} : isBlank c = true ↔ Blank c := by
  simp only [isBlank, Blank, Bool.or_eq_true, beq_iff_eq, or_assoc]

theorem mem_comment {w : List Char} :
    w ∈ Rule.comment.pattern ↔ ∃ v, (∀ d ∈ v, d ≠ '\n') ∧ w = '/' :: '/' :: v := by
  rw [Rule.pattern, mul_assoc]
  simp only [mem_one_mul, mem_star_one]
  constructor
  · rintro ⟨_, _, rfl, ⟨_, v, rfl, hv, rfl⟩, rfl⟩
    exact ⟨v, hv, rfl⟩
  · rintro ⟨v, hv, rfl⟩
    exact ⟨_, _, rfl, ⟨_, v, rfl, hv, rfl⟩, rfl⟩

theorem append_mem_star {l : Language Char} {v w : List Char} (hv : v ∈ l) (hw : w ∈ l∗) :
    v ++ w ∈ l∗ := by
  obtain ⟨pieces, rfl, hpieces⟩ := Language.mem_kstar.1 hw
  exact Language.mem_kstar.2 ⟨v :: pieces, rfl, List.forall_mem_cons.2 ⟨hv, hpieces⟩⟩

theorem singleton_mem_stringPiece {c : Char} (hquote : c ≠ '"') (hbackslash : c ≠ '\\') :
    [c] ∈ stringPiece :=
  .inl ⟨c, ⟨hquote, hbackslash⟩, rfl⟩

theorem escape_mem_stringPiece {c : Char} (h : c ≠ '\n') : ['\\', c] ∈ stringPiece :=
  .inr (mem_one_mul.2 ⟨_, [c], rfl, ⟨c, h, rfl⟩, rfl⟩)

/-- Every text is pieces of a string up to a closing quote, or up to where it does not go on
as a string. -/
theorem exists_stringPieces (cs : List Char) : ∃ w rest, w ∈ stringPiece∗ ∧ cs = w ++ rest ∧
    ((∃ more, rest = '"' :: more) ∨ Unclosed rest) := by
  have hnil := Language.nil_mem_kstar stringPiece
  match cs with
  | [] => exact ⟨[], [], hnil, rfl, .inr (.inl rfl)⟩
  | c :: cs =>
    by_cases hquote : c = '"'
    · subst hquote
      exact ⟨[], _, hnil, rfl, .inl ⟨cs, rfl⟩⟩
    by_cases hbackslash : c = '\\'
    · subst hbackslash
      match cs with
      | [] => exact ⟨[], _, hnil, rfl, .inr (.inr (.inl rfl))⟩
      | d :: cs =>
        by_cases hfeed : d = '\n'
        · subst hfeed
          exact ⟨[], _, hnil, rfl, .inr (.inr (.inr ⟨cs, rfl⟩))⟩
        · obtain ⟨w, rest, hw, rfl, hrest⟩ := exists_stringPieces cs
          exact ⟨_, rest, append_mem_star (escape_mem_stringPiece hfeed) hw, rfl, hrest⟩
    · obtain ⟨w, rest, hw, rfl, hrest⟩ := exists_stringPieces cs
      exact ⟨_, rest, append_mem_star (singleton_mem_stringPiece hquote hbackslash) hw, rfl,
        hrest⟩
termination_by cs.length

theorem mem_string {w : List Char} :
    w ∈ Kind.string.pattern ↔ ∃ v ∈ stringPiece∗, w = '"' :: (v ++ ['"']) := by
  rw [Kind.pattern, mul_assoc]
  constructor
  · intro hw
    obtain ⟨_, _, rfl, hv, rfl⟩ := mem_one_mul.1 hw
    obtain ⟨v, hpieces, _, ⟨_, rfl, rfl⟩, rfl⟩ := Language.mem_mul.1 hv
    exact ⟨v, hpieces, rfl⟩
  · rintro ⟨v, hv, rfl⟩
    exact mem_one_mul.2 ⟨_, _, rfl, Language.append_mem_mul hv ⟨_, rfl, rfl⟩, rfl⟩

end Lexer

end Slate
