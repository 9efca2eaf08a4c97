-- SUMMARY: What a table answers after a value is put into it, and what a header and a pair put into the table of a document.
import Slate.Toml.Document

/-!
# Filling tables

A value that is put under a name is the answer for this name, and no other answer changes. A
header with a new name of its own opens an empty table; a pair below it puts a value into this
table, if the table has no value of this name yet.
-/

namespace Slate.Toml

namespace Table

variable {t sub : Table} {n m : String} {v : Value} {entries : List (String × Value)}

/-! ## Answers -/

theorem lookup_cons (k : String) (w : Value) (entries : List (String × Value)) (m : String) :
    ((k, w) :: entries).lookup m = if m = k then some w else entries.lookup m := by
  by_cases h : m = k
  · simp [h]
  · have hbeq : (m == k) = false := beq_eq_false_iff_ne.mpr h
    simp [List.lookup_cons, hbeq, h]

theorem lookup_replace (h : entries.lookup n ≠ none) (m : String) :
    (replace n v entries).lookup m = if m = n then some v else entries.lookup m := by
  induction entries with
  | nil => exact absurd rfl h
  | cons entry entries ih =>
    obtain ⟨k, w⟩ := entry
    by_cases hk : k = n
    · subst hk
      rw [replace, if_pos rfl, lookup_cons, lookup_cons]
      split <;> rfl
    · have htail := ih (by rwa [lookup_cons, if_neg (Ne.symm hk)] at h)
      rw [replace, if_neg hk, lookup_cons, lookup_cons, htail]
      by_cases hm : m = k
      · rw [if_pos hm, if_pos hm, if_neg (hm ▸ hk)]
      · rw [if_neg hm, if_neg hm]

theorem lookup_concat (h : entries.lookup n = none) (m : String) :
    (entries ++ [(n, v)]).lookup m = if m = n then some v else entries.lookup m := by
  rw [List.lookup_append, lookup_cons, List.lookup_nil]
  by_cases hm : m = n
  · rw [if_pos hm, if_pos hm, hm, h]
    rfl
  · rw [if_neg hm, if_neg hm, Option.or_none]

theorem get?_put (t : Table) (n : String) (v : Value) (m : String) :
    (t.put n v).get? m = if m = n then some v else t.get? m := by
  rw [put]
  cases h : t.get? n with
  | some w => exact lookup_replace (by rw [← get?, h]; exact Option.some_ne_none w) m
  | none => exact lookup_concat h m

@[simp] theorem get?_empty (origin : Origin) (n : String) : (empty origin).get? n = none := rfl

@[simp] theorem origin_empty (origin : Origin) : (empty origin).origin = origin := rfl

@[simp] theorem get?_put_self (t : Table) (n : String) (v : Value) :
    (t.put n v).get? n = some v := by
  rw [get?_put, if_pos rfl]

@[simp] theorem origin_put (t : Table) (n : String) (v : Value) :
    (t.put n v).origin = t.origin := by
  rw [put]
  split <;> rfl

end Table

namespace Document

variable {s s' : State} {l : Line} {root sub : Table} {n k : String} {header : List String}
  {v : Value}

/-! ## Lines -/

theorem foldlM_add_cons (h : add s l = some s') (ls : List Line) :
    (l :: ls).foldlM add s = ls.foldlM add s' := by
  rw [List.foldlM_cons, h]
  rfl

theorem add_header (h : root.get? n = none) :
    add { root, header } (.header { path := [], name := n }) =
      some { root := root.put n (.table (Table.empty .header)), header := [n] } := by
  simp [add, Table.openHeader, Table.reach, Key.names, h]

theorem add_pair (hroot : root.get? n = some (.table sub)) (horigin : sub.origin = .header)
    (hsub : sub.get? k = none) :
    add { root, header := [n] } (.pair { path := [], name := k } v) =
      some { root := root.put n (.table (sub.put k v)), header := [n] } := by
  simp [add, Table.insertUnder, Table.insert, Table.reach, hroot, horigin, hsub]

end Document

end Slate.Toml
