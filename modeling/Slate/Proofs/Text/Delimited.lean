-- SUMMARY: Numbers and quoted strings in a text show where they end, and what they are can be told from what is written.
import Slate.Value

/-!
# Texts that show where they end

Of two texts that begin with a number, and do not go on with a digit behind it, the numbers
are the same if the texts are. So it is with quoted strings, whatever is behind them:
each character is written so that no written character is the beginning of another, and the
quote at the end is not the beginning of a written character. So a quoted string cannot be
taken for anything else, nor does it go on to another line.
-/

namespace Slate

/-! ## Runs -/

section

variable {α : Type} {p : α → Prop} {w w' rest rest' : List α}

/-- A run of a class is told from what is behind it, if that does not go on with the class. -/
theorem run_append_inj (hw : ∀ x ∈ w, p x) (hw' : ∀ x ∈ w', p x) (hrest : ∀ x ∈ rest.head?, ¬ p x)
    (hrest' : ∀ x ∈ rest'.head?, ¬ p x) (h : w ++ rest = w' ++ rest') : w = w' ∧ rest = rest' := by
  induction w generalizing w' with
  | nil =>
    cases w' with
    | nil => exact ⟨rfl, h⟩
    | cons y w' =>
      rw [List.nil_append] at h
      exact absurd (hw' y List.mem_cons_self) (hrest y (by rw [h]; rfl))
  | cons x w ih =>
    cases w' with
    | nil =>
      rw [List.nil_append] at h
      exact absurd (hw x List.mem_cons_self) (hrest' x (by rw [← h]; rfl))
    | cons y w' =>
      rw [List.cons_append, List.cons_append] at h
      obtain ⟨rfl, htail⟩ := List.cons.inj h
      obtain ⟨rfl, hrest⟩ := ih (fun z hz => hw z (List.mem_cons_of_mem _ hz))
        (fun z hz => hw' z (List.mem_cons_of_mem _ hz)) htail
      exact ⟨rfl, hrest⟩

end

variable {cs cs' rest rest' : List Char}

/-! ## Numbers -/

theorem isDigit_of_mem_repr {n : Nat} {c : Char} (h : c ∈ n.repr.toList) : c.isDigit = true := by
  rw [Nat.toList_repr] at h
  exact Nat.isDigit_of_mem_toDigits (by decide) (by decide) h

theorem repr_injective {n n' : Nat} (h : n.repr = n'.repr) : n = n' := by
  have hdigits := congrArg (fun text : String => Nat.ofDigitChars 10 text.toList 0) h
  simpa [Nat.toList_repr] using hdigits

theorem repr_append_inj {n n' : Nat} (hrest : ∀ c ∈ rest.head?, ¬ c.isDigit = true)
    (hrest' : ∀ c ∈ rest'.head?, ¬ c.isDigit = true)
    (h : n.repr.toList ++ rest = n'.repr.toList ++ rest') : n = n' ∧ rest = rest' := by
  obtain ⟨hn, hr⟩ := run_append_inj (fun _ => isDigit_of_mem_repr) (fun _ => isDigit_of_mem_repr)
    hrest hrest' h
  exact ⟨repr_injective (String.toList_inj.1 hn), hr⟩

/-- The characters of a signed number. -/
def Signed (c : Char) : Prop := c = '-' ∨ c.isDigit = true

theorem signed_of_mem_wordText {w : Int32} {c : Char} (h : c ∈ (wordText w).toList) : Signed c := by
  unfold wordText at h
  split at h
  · exact .inr (isDigit_of_mem_repr h)
  · rw [String.toList_append] at h
    obtain h | h := List.mem_append.1 h
    · exact .inl (List.mem_singleton.1 h)
    · exact .inr (isDigit_of_mem_repr h)

theorem wordText_injective {w w' : Int32} (h : wordText w = wordText w') : w = w' := by
  have hsign : ∀ {n : Nat} {text : String}, n.repr ≠ "-" ++ text := by
    intro n text heq
    have hmem : '-' ∈ n.repr.toList := by
      rw [heq, String.toList_append]
      exact List.mem_cons_self
    exact absurd (isDigit_of_mem_repr hmem) (by decide)
  apply Int32.toInt_inj.1
  unfold wordText at h
  split at h <;> split at h
  · next n hn _ n' hn' => rw [hn, hn', repr_injective h]
  · exact absurd h hsign
  · exact absurd h.symm hsign
  · next n hn _ n' hn' =>
    have hdigits : (n + 1).repr.toList = (n' + 1).repr.toList := by
      have := congrArg String.toList h
      rw [String.toList_append, String.toList_append] at this
      exact List.append_cancel_left this
    rw [hn, hn', Nat.succ.inj (repr_injective (String.toList_inj.1 hdigits))]

theorem wordText_append_inj {w w' : Int32} (hrest : ∀ c ∈ rest.head?, ¬ Signed c)
    (hrest' : ∀ c ∈ rest'.head?, ¬ Signed c)
    (h : (wordText w).toList ++ rest = (wordText w').toList ++ rest') : w = w' ∧ rest = rest' := by
  obtain ⟨hw, hr⟩ := run_append_inj (fun _ => signed_of_mem_wordText)
    (fun _ => signed_of_mem_wordText) hrest hrest' h
  exact ⟨wordText_injective (String.toList_inj.1 hw), hr⟩

namespace Text

/-! ## Hexadecimal numbers -/

/-- The last digit, and the digits before it if there are any. -/
theorem hex_eq (n : Nat) :
    hex n = (if n < 16 then [] else hex (n / 16)) ++ [Nat.digitChar (n % 16)] := by
  split
  · next h => rw [hex, Nat.toDigits_of_lt_base h, Nat.mod_eq_of_lt h, List.nil_append]
  · next h => exact Nat.toDigits_of_base_le (by decide) (Nat.not_lt.1 h)

theorem digitChar_ne : ∀ n, n < 16 → Nat.digitChar n ≠ '\x7d' ∧ Nat.digitChar n ≠ '\n' := by
  decide

theorem digitChar_inj :
    ∀ n, n < 16 → ∀ n', n' < 16 → Nat.digitChar n = Nat.digitChar n' → n = n' := by
  decide

theorem ne_of_mem_hex {n : Nat} {c : Char} (h : c ∈ hex n) : c ≠ '\x7d' ∧ c ≠ '\n' := by
  induction n using Nat.strongRecOn with
  | ind n ih =>
    rw [hex_eq] at h
    obtain h | h := List.mem_append.1 h
    · split at h
      · cases h
      · exact ih (n / 16) (by omega) h
    · exact List.mem_singleton.1 h ▸ digitChar_ne _ (Nat.mod_lt _ (by decide))

theorem hex_injective {n n' : Nat} (h : hex n = hex n') : n = n' := by
  induction n using Nat.strongRecOn generalizing n' with
  | ind n ih =>
    rw [hex_eq n, hex_eq n'] at h
    obtain ⟨hfront, hlast⟩ := List.append_inj' h rfl
    have hdigit := (List.cons.inj hlast).1
    have hmod : n % 16 = n' % 16 :=
      digitChar_inj _ (Nat.mod_lt _ (by decide)) _ (Nat.mod_lt _ (by decide)) hdigit
    -- both have digits before the last one, or neither has
    split at hfront <;> split at hfront
    · omega
    · exact absurd hfront.symm Nat.toDigits_ne_nil
    · exact absurd hfront Nat.toDigits_ne_nil
    · have := ih (n / 16) (by omega) hfront
      omega

/-! ## Characters between quotes -/

/-- The characters that are written as a backslash and a letter or sign, and that letter. -/
def shortEscapes : List (Char × Char) :=
  [('\x00', '0'), ('\t', 't'), ('\r', 'r'), ('\n', 'n'), ('"', '"'), ('\\', '\\')]

/-- The three ways in which a character is written between quotes. -/
inductive Written : Char → List Char → Prop where
  | plain {c : Char} : c ≠ '\\' → c ≠ '"' → c ≠ '\n' → Written c [c]
  | short {c d : Char} : (c, d) ∈ shortEscapes → Written c ['\\', d]
  | codePoint {c : Char} : Written c (escapeCodePoint c)

theorem written_escapeChar (c : Char) : Written c (escapeChar c) := by
  unfold escapeChar
  iterate 6
    split
    · next h =>
      subst h
      exact .short (by decide)
  next hfeed hquote hbackslash =>
    split
    · exact .plain hbackslash hquote hfeed
    · split
      · exact .codePoint
      · exact .plain hbackslash hquote hfeed

theorem shortEscapes_inj :
    ∀ e ∈ shortEscapes, ∀ e' ∈ shortEscapes, e.2 = e'.2 → e.1 = e'.1 := by decide

theorem shortEscapes_letter : ∀ e ∈ shortEscapes, e.2 ≠ 'u' ∧ e.2 ≠ '\n' := by decide

namespace Written

variable {c c' : Char} {w w' : List Char}

/-- No written character is the beginning of another. -/
theorem append_inj (h : Written c w) (h' : Written c' w') (heq : w ++ rest = w' ++ rest') :
    c = c' ∧ rest = rest' := by
  cases h with
  | plain hbackslash =>
    cases h' with
    | plain => simpa using heq
    | short => exact absurd (List.cons.inj heq).1 hbackslash
    | codePoint => exact absurd (List.cons.inj heq).1 hbackslash
  | short he =>
    cases h' with
    | plain hbackslash => exact absurd (List.cons.inj heq).1.symm hbackslash
    | short he' =>
      obtain ⟨-, hd, hrest⟩ : True ∧ _ = _ ∧ rest = rest' := by simpa using heq
      exact ⟨shortEscapes_inj _ he _ he' hd, hrest⟩
    | codePoint =>
      exact absurd (List.cons.inj (List.cons.inj heq).2).1 (shortEscapes_letter _ he).1
  | codePoint =>
    cases h' with
    | plain hbackslash => exact absurd (List.cons.inj heq).1.symm hbackslash
    | short he' =>
      exact absurd (List.cons.inj (List.cons.inj heq).2).1.symm (shortEscapes_letter _ he').1
    | codePoint =>
      have heq : hex c.toNat ++ '\x7d' :: rest = hex c'.toNat ++ '\x7d' :: rest' := by
        simpa [escapeCodePoint] using heq
      obtain ⟨hhex, hrest⟩ := run_append_inj (p := (· ≠ '\x7d')) (fun _ h => (ne_of_mem_hex h).1)
        (fun _ h => (ne_of_mem_hex h).1) (by simp) (by simp) heq
      exact ⟨Char.toNat_inj.1 (hex_injective hhex), (List.cons.inj hrest).2⟩

theorem head_ne_quote (h : Written c w) : ∃ d v, w = d :: v ∧ d ≠ '"' := by
  cases h with
  | plain _ hquote => exact ⟨c, [], rfl, hquote⟩
  | short => exact ⟨'\\', _, rfl, by decide⟩
  | codePoint => exact ⟨'\\', _, rfl, by decide⟩

theorem lineFeed_not_mem (h : Written c w) : '\n' ∉ w := by
  cases h with
  | plain _ _ hfeed => simpa using Ne.symm hfeed
  | short he => simpa using Ne.symm (shortEscapes_letter _ he).2
  | codePoint =>
    simp only [escapeCodePoint, List.mem_append, not_or]
    exact ⟨⟨by decide, fun hmem => (ne_of_mem_hex hmem).2 rfl⟩, by decide⟩

end Written

/-! ## Quoted strings -/

theorem flatMap_escapeChar_inj
    (h : cs.flatMap escapeChar ++ '"' :: rest = cs'.flatMap escapeChar ++ '"' :: rest') :
    cs = cs' ∧ rest = rest' := by
  induction cs generalizing cs' with
  | nil =>
    cases cs' with
    | nil => exact ⟨rfl, (List.cons.inj h).2⟩
    | cons c' cs' =>
      obtain ⟨d, v, hd, hquote⟩ := (written_escapeChar c').head_ne_quote
      rw [List.flatMap_cons, hd] at h
      exact absurd (List.cons.inj h).1.symm hquote
  | cons c cs ih =>
    cases cs' with
    | nil =>
      obtain ⟨d, v, hd, hquote⟩ := (written_escapeChar c).head_ne_quote
      rw [List.flatMap_cons, hd] at h
      exact absurd (List.cons.inj h).1 hquote
    | cons c' cs' =>
      rw [List.flatMap_cons, List.flatMap_cons, List.append_assoc, List.append_assoc] at h
      obtain ⟨rfl, htail⟩ := (written_escapeChar c).append_inj (written_escapeChar c') h
      obtain ⟨rfl, hrest⟩ := ih htail
      exact ⟨rfl, hrest⟩

/-- A quoted string ends where it says, and no other string is quoted alike. -/
theorem quote_append_inj {s s' : String}
    (h : (quote s).toList ++ rest = (quote s').toList ++ rest') : s = s' ∧ rest = rest' := by
  simp only [quote, quoteChars, String.toList_ofList, List.cons_append, List.append_assoc,
    List.cons.injEq, true_and] at h
  obtain ⟨hs, hrest⟩ := flatMap_escapeChar_inj h
  exact ⟨String.toList_inj.1 hs, hrest⟩

/-- A quoted string stays on its line. -/
theorem lineFeed_not_mem_quote (s : String) : '\n' ∉ (quote s).toList := by
  simp only [quote, quoteChars, String.toList_ofList, List.cons_append, List.mem_cons,
    List.mem_append, List.mem_flatMap, List.not_mem_nil, not_or, not_exists, not_and]
  exact ⟨by decide, fun c _ => (written_escapeChar c).lineFeed_not_mem, by decide, not_false⟩

end Text

end Slate
