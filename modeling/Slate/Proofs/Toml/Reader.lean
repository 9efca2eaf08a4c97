-- SUMMARY: What a reader takes off the front of a text, from what its parts take.
import Slate.Toml.Reader

/-!
# What readers take

A reader that is made of others is followed step by step: what its first part takes is what
its second part need not read any more, and a choice goes to its second reader with the text
as it was. A repetition over the written forms of items, one behind the other, gives the items
back, if each is read whatever comes behind it and nothing more is read at the end.
-/

namespace Slate.Toml.Reader

variable {α β ι : Type} {r r' : Reader α} {k : α → Reader β} {a : α} {c d : Char}
  {p : Char → Bool} {cs rest ws : List Char}

/-! ## Sequence and choice -/

theorem bind_apply (r : Reader α) (k : α → Reader β) (cs : List Char) :
    (r >>= k) cs = (r cs).bind fun read => k read.1 read.2 := rfl

theorem orElse_apply (r r' : Reader α) (cs : List Char) : (r <|> r') cs = (r cs).or (r' cs) := by
  change (r cs <|> r' cs) = _
  cases r cs <;> rfl

theorem bind_of_eq (h : r cs = some (a, rest)) : (r >>= k) cs = k a rest := by
  rw [bind_apply, h]
  rfl

theorem bind_of_none (h : r cs = none) : (r >>= k) cs = none := by
  rw [bind_apply, h]
  rfl

theorem orElse_of_eq {read : α × List Char} (h : r cs = some read) : (r <|> r') cs = some read := by
  rw [orElse_apply, h]
  rfl

theorem orElse_of_none (h : r cs = none) : (r <|> r') cs = r' cs := by
  rw [orElse_apply, h]
  rfl

/-! ## Characters -/

theorem satisfy_of_pos (h : p c = true) : satisfy p (c :: cs) = some (c, cs) := by
  simp [satisfy, h]

theorem satisfy_of_neg (h : p c = false) : satisfy p (c :: cs) = none := by
  simp [satisfy, h]

theorem char_self : char c (c :: cs) = some ((), cs) := by simp [char]

theorem char_of_ne (h : d ≠ c) : char c (d :: cs) = none := by simp [char, h]

theorem chars_append (ws rest : List Char) : chars ws (ws ++ rest) = some ((), rest) := by
  induction ws with
  | nil => rfl
  | cons c ws ih => exact (bind_of_eq char_self).trans ih

theorem chars_eq_none (h : ¬ ws <+: cs) : chars ws cs = none := by
  induction ws generalizing cs with
  | nil => exact absurd List.nil_prefix h
  | cons c ws ih =>
    cases cs with
    | nil => rfl
    | cons d cs =>
      by_cases hd : d = c
      · subst hd
        have htail : ¬ ws <+: cs := fun hstart => h (List.cons_prefix_cons.mpr ⟨rfl, hstart⟩)
        exact (bind_of_eq char_self).trans (ih htail)
      · exact bind_of_none (char_of_ne hd)

/-! ## Runs -/

theorem run_append (hws : ∀ c ∈ ws, p c = true) (hrest : ∀ c ∈ rest.head?, p c = false) :
    run p (ws ++ rest) = some (ws, rest) := by
  have hstop : rest.takeWhile p = [] ∧ rest.dropWhile p = rest := by
    cases rest with
    | nil => exact ⟨rfl, rfl⟩
    | cons c rest => simp [hrest c rfl]
  rw [run, List.takeWhile_append_of_pos hws, List.dropWhile_append_of_pos hws, hstop.1, hstop.2,
    List.append_nil]

theorem run_of_head (hrest : ∀ c ∈ rest.head?, p c = false) : run p rest = some ([], rest) :=
  run_append (List.forall_mem_nil _) hrest

theorem run1_append (hne : ws ≠ []) (hws : ∀ c ∈ ws, p c = true)
    (hrest : ∀ c ∈ rest.head?, p c = false) : run1 p (ws ++ rest) = some (ws, rest) := by
  obtain ⟨c, ws, rfl⟩ := List.exists_cons_of_ne_nil hne
  have hrun : run p (ws ++ rest) = some (ws, rest) :=
    run_append (fun d hd => hws d (List.mem_cons_of_mem _ hd)) hrest
  rw [run1, List.cons_append, bind_of_eq (satisfy_of_pos (hws c List.mem_cons_self)),
    bind_of_eq hrun]
  rfl

theorem run1_of_head (hrest : ∀ c ∈ rest.head?, p c = false) : run1 p rest = none := by
  cases rest with
  | nil => rfl
  | cons c rest => exact bind_of_none (satisfy_of_neg (hrest c rfl))

/-- So many characters of a class are read, whatever is behind them. -/
theorem exactly_append (hws : ∀ c ∈ ws, p c = true) :
    exactly p ws.length (ws ++ rest) = some (ws, rest) := by
  induction ws with
  | nil => rfl
  | cons c ws ih =>
    have htail := ih fun d hd => hws d (List.mem_cons_of_mem _ hd)
    rw [List.length_cons, exactly, List.cons_append,
      bind_of_eq (satisfy_of_pos (hws c List.mem_cons_self)), bind_of_eq htail]
    rfl

/-! ## Repetition -/

theorem many_of_none (h : r cs = none) : many r cs = some ([], cs) := by
  rw [many, h]

/-- An item that takes nothing ends a repetition. -/
theorem many_of_stuck (h : r cs = some (a, cs)) : many r cs = some ([], cs) := by
  rw [many, h]
  simp

theorem many_of_eq {as : List α} (h : r cs = some (a, ws)) (hlt : ws.length < cs.length)
    (hmany : many r ws = some (as, rest)) : many r cs = some (a :: as, rest) := by
  rw [many, h]
  change (if ws.length < cs.length then _ else _) = _
  rw [if_pos hlt, hmany]
  rfl

/-- Written items, one behind the other, are read back. -/
theorem many_flatMap {write : ι → List Char} {value : ι → α} {xs : List ι}
    (hread : ∀ x ∈ xs, ∀ rest, r (write x ++ rest) = some (value x, rest))
    (hne : ∀ x ∈ xs, write x ≠ []) (hstop : many r rest = some ([], rest)) :
    many r (xs.flatMap write ++ rest) = some (xs.map value, rest) := by
  induction xs with
  | nil => exact hstop
  | cons x xs ih =>
    have htail := ih (fun y hy => hread y (List.mem_cons_of_mem _ hy))
      (fun y hy => hne y (List.mem_cons_of_mem _ hy))
    have hlt : (xs.flatMap write ++ rest).length <
        (write x ++ (xs.flatMap write ++ rest)).length := by
      have := List.length_pos_iff.mpr (hne x List.mem_cons_self)
      simp only [List.length_append]
      omega
    rw [List.flatMap_cons, List.append_assoc]
    exact many_of_eq (hread x List.mem_cons_self _) hlt htail

end Slate.Toml.Reader
