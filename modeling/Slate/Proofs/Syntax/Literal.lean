-- SUMMARY: Reading the text of a literal succeeds exactly on the texts that the grammar admits, with the value it gives them.
import Slate.Proofs.Source.Merge
import Slate.Proofs.Syntax.Grammar
import Slate.Proofs.Token.Spelling

/-!
# Literals by the grammar

The grammar says what a literal denotes by relations, the reader computes it. A
row of digits carries no sign, so the sign that the reader would also take never
comes into play, and a word is refused exactly above the bound that goes with its
sign.
-/

namespace Slate

namespace Literal

open Grammar (Decimal Unescapes Quoted)

/-! ## Integers -/

/-- The largest number that an integer literal can spell, with or without a minus. -/
def bound (negative : Bool) : Nat := if negative then 2147483648 else 2147483647

theorem unsigned?_of_digits {cs : List Char} (hne : cs ≠ []) (hd : ∀ c ∈ cs, c.isDigit = true) :
    unsigned? cs = some (digitsValue cs) := by
  have hall : cs.all Char.isDigit = true := List.all_eq_true.2 hd
  simp [unsigned?, hne, hall]

/-- A row of digits is read without a sign. -/
theorem signed?_of_digits {cs : List Char} (hne : cs ≠ []) (hd : ∀ c ∈ cs, c.isDigit = true) :
    signed? cs = some (digitsValue cs : Int) := by
  have hu := unsigned?_of_digits hne hd
  unfold signed?
  split
  · exact absurd (hd '-' (by simp)) (by decide)
  · exact absurd (hd '+' (by simp)) (by decide)
  · simp [hu]

theorem word?_signed (negative : Bool) (n : Nat) :
    word? (if negative then -(n : Int) else n) =
      if n ≤ bound negative then some (Int32.ofInt (if negative then -(n : Int) else n))
      else none := by
  unfold word? bound
  cases negative with
  | true =>
    have h : (-2147483648 ≤ -(n : Int) ∧ -(n : Int) ≤ 2147483647) ↔ n ≤ 2147483648 := by omega
    simp only [↓reduceIte, h]
  | false =>
    have h : (-2147483648 ≤ (n : Int) ∧ (n : Int) ≤ 2147483647) ↔ n ≤ 2147483647 := by omega
    simp only [Bool.false_eq_true, ↓reduceIte, h]

/-- A row of digits is read within the bound only, and then with its value. -/
theorem integer?_eq_some {negative : Bool} {text : String} {w : Int32}
    (hne : text.toList ≠ []) (hd : ∀ c ∈ text.toList, c.isDigit = true) :
    integer? negative text = some w ↔
      ∃ n, Decimal text n ∧ n ≤ bound negative ∧
        w = Int32.ofInt (if negative then -(n : Int) else n) := by
  simp only [integer?, signed?_of_digits hne hd, Option.bind_eq_bind, Option.bind_some,
    word?_signed]
  constructor
  · intro h
    split at h
    · next hn => exact ⟨_, ⟨hne, hd, rfl⟩, hn, (Option.some.inj h).symm⟩
    · cases h
  · rintro ⟨n, hdec, hn, rfl⟩
    rw [hdec.value, if_pos hn]

/-! ## Strings -/

theorem unescape_of_unescapes {cs vs : List Char} (h : Unescapes cs vs) :
    unescape cs = .ok vs := by
  induction h with
  | nil => rfl
  | @plain c cs vs hc _ ih =>
    rw [unescape.eq_4 _ _ (fun _ _ h _ => hc h) (fun h _ => hc h), ih]
    rfl
  | newline _ ih | tab _ ih | quote _ ih | backslash _ ih =>
    simp only [unescape, escapeValue?, ih]
    rfl

theorem unescapes_of_escapeValue? {c v : Char} {cs vs : List Char} (hv : escapeValue? c = some v)
    (h : Unescapes cs vs) : Unescapes ('\\' :: c :: cs) (v :: vs) := by
  unfold escapeValue? at hv
  split at hv
  · next hc => cases hv; exact hc ▸ .newline h
  split at hv
  · next hc => cases hv; exact hc ▸ .tab h
  split at hv
  · next hc => cases hv; exact hc ▸ .quote h
  split at hv
  · next hc => cases hv; exact hc ▸ .backslash h
  · cases hv

theorem unescapes_of_unescape {cs vs : List Char} (h : unescape cs = .ok vs) :
    Unescapes cs vs := by
  induction cs using unescape.induct generalizing vs with
  | case1 => cases h; exact .nil
  | case2 c cs v hv ih =>
    simp only [unescape, hv] at h
    cases hcs : unescape cs with
    | ok ws => rw [hcs] at h; cases h; exact unescapes_of_escapeValue? hv (ih hcs)
    | error e => rw [hcs] at h; cases h
  | case3 c cs hv => simp [unescape, hv] at h
  | case4 => simp [unescape] at h
  | case5 c cs h₁ h₂ ih =>
    rw [unescape.eq_4 _ _ h₁ h₂] at h
    have hc : c ≠ '\\' := by
      intro hc
      cases cs with
      | nil => exact h₂ hc rfl
      | cons d ds => exact h₁ d ds hc rfl
    cases hcs : unescape cs with
    | ok ws => rw [hcs] at h; cases h; exact .plain hc (ih hcs)
    | error e => rw [hcs] at h; cases h

/-- A text in quotes is read if what is between them denotes something, and as that. -/
theorem string_eq_ok {text value : String}
    (hq : ∃ inside, text.toList = '"' :: (inside ++ ['"'])) :
    string text = .ok value ↔ Quoted text value := by
  obtain ⟨inside, htext⟩ := hq
  simp only [string, htext, List.drop_succ_cons, List.drop_zero, List.dropLast_concat]
  constructor
  · intro h
    cases hi : unescape inside with
    | ok vs =>
      rw [hi] at h
      cases h
      exact ⟨inside, htext, by simpa using unescapes_of_unescape hi⟩
    | error e => rw [hi] at h; cases h
  · rintro ⟨inside', htext', h⟩
    rw [htext] at htext'
    obtain rfl : inside = inside' := List.append_cancel_right (List.cons.inj htext').2
    simp [unescape_of_unescapes h, Except.map]

/-- A string literal is refused for one of its escape sequences. -/
def IsEscapeFault (fault : Fault) : Prop :=
  (∃ c, fault = .unknownEscape c) ∨ fault = .unterminatedEscape

theorem isEscapeFault_of_unescape {cs : List Char} {fault : Fault}
    (h : unescape cs = .error fault) : IsEscapeFault fault := by
  induction cs using unescape.induct with
  | case1 => cases h
  | case2 c cs v hv ih =>
    simp only [unescape, hv] at h
    cases hcs : unescape cs with
    | ok ws => rw [hcs] at h; cases h
    | error e => rw [hcs] at h; cases h; exact ih hcs
  | case3 c cs hv =>
    simp only [unescape, hv] at h
    cases h
    exact .inl ⟨c, rfl⟩
  | case4 => cases h; exact .inr rfl
  | case5 c cs h₁ h₂ ih =>
    rw [unescape.eq_4 _ _ h₁ h₂] at h
    cases hcs : unescape cs with
    | ok ws => rw [hcs] at h; cases h
    | error e => rw [hcs] at h; cases h; exact ih hcs

theorem isEscapeFault_of_string {text : String} {fault : Fault}
    (h : string text = .error fault) : IsEscapeFault fault := by
  unfold string at h
  cases hi : unescape (text.toList.drop 1).dropLast with
  | ok vs => rw [hi] at h; cases h
  | error e => rw [hi] at h; cases h; exact isEscapeFault_of_unescape hi

end Literal

end Slate
