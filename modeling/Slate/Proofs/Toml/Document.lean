-- SUMMARY: Headers and pairs with bare names and strings are read back as the lines they are.
import Slate.Proofs.Toml.Quoted
import Slate.Toml.Document

/-!
# Lines that are read back

A document may consist of empty lines, headers and pairs whose names need no quotes and whose
values are strings. Each such line shows where it ends, whatever is behind it, so a document of
them is read back line by line.
-/

namespace Slate.Toml.Document

open Reader Quoted

/-! ## Names -/

/-- Whether a name needs no quotes. -/
def IsBare (name : String) : Prop := name.toList ≠ [] ∧ ∀ c ∈ name.toList, isNamePart c = true

theorem isBare_of_all {name : String} (hne : name.toList ≠ [])
    (hall : name.toList.all isNamePart = true) : IsBare name :=
  ⟨hne, List.all_eq_true.1 hall⟩

/-- Whether a character can be told from a bare name, a blank and a dot. -/
def EndsKey (d : Char) : Prop := isNamePart d = false ∧ isBlank d = false ∧ d ≠ '.'

instance (d : Char) : Decidable (EndsKey d) := inferInstanceAs (Decidable (_ ∧ _ ∧ _))

variable {c d : Char} {cs bs rest : List Char} {n : String}

theorem isNamePart_ne (hc : isNamePart c = true) (hd : isNamePart d = false) : c ≠ d := by
  rintro rfl
  simp [hc] at hd

theorem isBlank_of_isNamePart (hc : isNamePart c = true) : isBlank c = false := by
  have hspace : c ≠ ' ' := isNamePart_ne hc (by decide)
  have htab : c ≠ '\t' := isNamePart_ne hc (by decide)
  simp [isBlank, hspace, htab]

theorem isNamePart_of_isBlank (hc : isBlank c = true) : isNamePart c = false := by
  simp only [isBlank, Bool.or_eq_true, beq_iff_eq] at hc
  rcases hc with rfl | rfl <;> decide

theorem blanks_append (hbs : ∀ c ∈ bs, isBlank c = true)
    (hrest : ∀ c ∈ rest.head?, isBlank c = false) : blanks (bs ++ rest) = some ((), rest) :=
  bind_of_eq (run_append hbs hrest)

theorem blanks_of_head (hrest : ∀ c ∈ rest.head?, isBlank c = false) :
    blanks rest = some ((), rest) :=
  bind_of_eq (run_of_head hrest)

/-- A bare name begins with one of its characters. -/
theorem IsBare.exists_cons (hbare : IsBare n) :
    ∃ c cs, n.toList = c :: cs ∧ isNamePart c = true := by
  obtain ⟨c, cs, heq⟩ := List.exists_cons_of_ne_nil hbare.1
  exact ⟨c, cs, heq, hbare.2 c (heq ▸ List.mem_cons_self)⟩

theorem name_bare (hbare : IsBare n) (hrest : ∀ c ∈ rest.head?, isNamePart c = false) :
    name (n.toList ++ rest) = some (n, rest) := by
  have hquoted (q : Char) (hq : isNamePart q = false) : char q (n.toList ++ rest) = none := by
    obtain ⟨c, cs, heq, hc⟩ := hbare.exists_cons
    rw [heq]
    exact char_of_ne (isNamePart_ne hc hq)
  have hbasic : basic (n.toList ++ rest) = none := bind_of_none (hquoted '"' (by decide))
  have hliteral : literal (n.toList ++ rest) = none := bind_of_none (hquoted '\'' (by decide))
  have hread : (basic <|> literal <|> run1 isNamePart) (n.toList ++ rest) =
      some (n.toList, rest) := by
    rw [orElse_of_none hbasic, orElse_of_none hliteral, run1_append hbare.1 hbare.2 hrest]
  rw [name, bind_of_eq hread, String.ofList_toList]
  rfl

/-- A bare name, perhaps with blanks behind it, is a key of its own. -/
theorem key_bare (hbare : IsBare n) (hbs : ∀ c ∈ bs, isBlank c = true) (hd : EndsKey d) :
    key (n.toList ++ (bs ++ d :: rest)) = some ({ path := [], name := n }, d :: rest) := by
  obtain ⟨hname, hblank, hdot⟩ := hd
  have hstart : blanks (n.toList ++ (bs ++ d :: rest)) =
      some ((), n.toList ++ (bs ++ d :: rest)) := by
    obtain ⟨c, cs, heq, hc⟩ := hbare.exists_cons
    exact blanks_of_head (by simp [heq, isBlank_of_isNamePart hc])
  have hnext : ∀ c ∈ (bs ++ d :: rest).head?, isNamePart c = false := by
    cases bs with
    | nil => simpa using hname
    | cons b bs => simpa using isNamePart_of_isBlank (hbs b List.mem_cons_self)
  have hspaced : spacedName (n.toList ++ (bs ++ d :: rest)) = some (n, d :: rest) := by
    rw [spacedName, bind_of_eq hstart, bind_of_eq (name_bare hbare hnext),
      bind_of_eq (blanks_append hbs (by simpa using hblank))]
    rfl
  have hmore : many (do char '.'; spacedName) (d :: rest) = some ([], d :: rest) :=
    many_of_none (bind_of_none (char_of_ne hdot))
  rw [key, bind_of_eq hspaced, bind_of_eq hmore]
  rfl

/-! ## Lines -/

/-- The lines that need no more than bare names and strings. -/
inductive Plain where
  | blank
  | header (name : String)
  | field (name value : String)

namespace Plain

/-- The written form of a line. -/
def text : Plain → List Char
  | blank => ['\n']
  | header name => '[' :: (name.toList ++ [']', '\n'])
  | field name value => name.toList ++ (" = ".toList ++ (write value.toList ++ ['\n']))

/-- What a line says. -/
def line : Plain → Line
  | blank => .blank
  | header name => .header { path := [], name }
  | field name value => .pair { path := [], name } (.string value)

/-- Whether the names on a line need no quotes. -/
def IsBare : Plain → Prop
  | blank => True
  | header name | field name _ => Document.IsBare name

end Plain

theorem lineRest_lineFeed (rest : List Char) : lineRest ('\n' :: rest) = some ((), rest) := by
  have hblanks : blanks ('\n' :: rest) = some ((), '\n' :: rest) :=
    blanks_of_head (by simp [isBlank])
  have hcomment : (comment <|> pure ()) ('\n' :: rest) = some ((), '\n' :: rest) :=
    orElse_of_none (bind_of_none (char_of_ne (by decide)))
  rw [lineRest, bind_of_eq hblanks, bind_of_eq hcomment]
  exact orElse_of_eq (newline_lineFeed rest)

theorem value_write {depth : Nat} (s : String) (rest : List Char) :
    value depth (write s.toList ++ '\n' :: rest) = some (.string s, '\n' :: rest) := by
  have hread : quoted (write s.toList ++ '\n' :: rest) = some (s, '\n' :: rest) := by
    rw [quoted_write (by simp), String.ofList_toList]
  rw [value.eq_def]
  exact orElse_of_eq (bind_of_eq hread)

theorem pair_field {n s : String} (hbare : IsBare n) (rest : List Char) :
    pair (value (nestingLimit - 1)) ((Plain.field n s).text ++ rest) =
      some (({ path := [], name := n }, .string s), '\n' :: rest) := by
  have htext : (Plain.field n s).text ++ rest =
      n.toList ++ ([' '] ++ '=' :: ([' '] ++ (write s.toList ++ '\n' :: rest))) := by
    simp [Plain.text]
  have hblanks : blanks ([' '] ++ (write s.toList ++ '\n' :: rest)) =
      some ((), write s.toList ++ '\n' :: rest) := by
    obtain ⟨ws, heq⟩ := writeAs_eq_cons (Form.of s.toList) s.toList
    refine blanks_append (by simp [isBlank]) ?_
    rw [write, heq]
    cases Form.of s.toList <;> simp [Form.quote, isBlank]
  rw [htext, pair, bind_of_eq (key_bare hbare (by simp [isBlank]) (by decide)),
    bind_of_eq char_self, bind_of_eq hblanks, bind_of_eq (value_write s rest)]
  rfl

/-- A line without a bracket in front is a pair or blank. -/
theorem line_of_head (hhead : ∀ d ∈ cs.head?, isBlank d = false ∧ d ≠ '[') :
    line cs = (do
      let l ← (do let (k, v) ← pair (value (nestingLimit - 1)); return .pair k v)
        <|> return .blank
      lineRest
      return l : Reader Line) cs := by
  have hbracket : char '[' cs = none := by
    cases cs with
    | nil => rfl
    | cons d cs => exact char_of_ne (hhead d rfl).2
  have helement : text "[[" cs = none := bind_of_none hbracket
  rw [line, bind_of_eq (blanks_of_head fun d hd => (hhead d hd).1), bind_apply,
    orElse_of_none (bind_of_none helement), orElse_of_none (bind_of_none hbracket)]
  rfl

theorem line_blank (rest : List Char) : line (Plain.blank.text ++ rest) = some (.blank, rest) := by
  have hspaced : spacedName ('\n' :: rest) = none := by
    have hblanks : blanks ('\n' :: rest) = some ((), '\n' :: rest) :=
      blanks_of_head (by simp [isBlank])
    have hname : name ('\n' :: rest) = none := by
      refine bind_of_none ?_
      have hbasic : basic ('\n' :: rest) = none := bind_of_none (char_of_ne (by decide))
      have hliteral : literal ('\n' :: rest) = none := bind_of_none (char_of_ne (by decide))
      rw [orElse_of_none hbasic, orElse_of_none hliteral]
      exact run1_of_head (by simp [isNamePart])
    rw [spacedName, bind_of_eq hblanks, bind_of_none hname]
  have hpair : pair (value (nestingLimit - 1)) ('\n' :: rest) = none :=
    bind_of_none (bind_of_none hspaced)
  change line ('\n' :: rest) = _
  rw [line_of_head (by simp [isBlank])]
  refine (bind_of_eq ?_).trans (bind_of_eq (lineRest_lineFeed rest))
  exact orElse_of_none (bind_of_none hpair)

theorem line_header {n : String} (hbare : IsBare n) (rest : List Char) :
    line ((Plain.header n).text ++ rest) =
      some (.header { path := [], name := n }, rest) := by
  have htext : (Plain.header n).text ++ rest =
      '[' :: (n.toList ++ ([] ++ ']' :: '\n' :: rest)) := by
    simp [Plain.text]
  have hstart (cs : List Char) : blanks ('[' :: cs) = some ((), '[' :: cs) :=
    blanks_of_head (by simp [isBlank])
  have helement : text "[[" ('[' :: (n.toList ++ ([] ++ ']' :: '\n' :: rest))) = none := by
    obtain ⟨c, cs, heq, hc⟩ := hbare.exists_cons
    refine (bind_of_eq char_self).trans (bind_of_none ?_)
    rw [heq]
    exact char_of_ne (isNamePart_ne hc (by decide))
  rw [htext, line, bind_of_eq (hstart _)]
  refine (bind_of_eq ?_).trans (bind_of_eq (lineRest_lineFeed rest))
  rw [orElse_of_none (bind_of_none helement)]
  refine orElse_of_eq ((bind_of_eq char_self).trans ?_)
  rw [bind_of_eq (key_bare hbare (by simp) (by decide)), bind_of_eq char_self]
  rfl

theorem line_field {n s : String} (hbare : IsBare n) (rest : List Char) :
    line ((Plain.field n s).text ++ rest) =
      some (.pair { path := [], name := n } (.string s), rest) := by
  have hhead : ∀ d ∈ ((Plain.field n s).text ++ rest).head?, isBlank d = false ∧ d ≠ '[' := by
    obtain ⟨c, cs, heq, hc⟩ := hbare.exists_cons
    rw [Plain.text, heq]
    rintro d ⟨⟩
    exact ⟨isBlank_of_isNamePart hc, isNamePart_ne hc (by decide)⟩
  rw [line_of_head hhead]
  refine (bind_of_eq ?_).trans (bind_of_eq (lineRest_lineFeed rest))
  exact orElse_of_eq (bind_of_eq (pair_field hbare rest))

theorem line_text {l : Plain} (hbare : l.IsBare) (rest : List Char) :
    line (l.text ++ rest) = some (l.line, rest) := by
  cases l with
  | blank => exact line_blank rest
  | header n => exact line_header hbare rest
  | field n s => exact line_field hbare rest

/-- A line has a first character, which is no byte order mark. -/
theorem Plain.text_eq_cons {l : Plain} (hbare : l.IsBare) :
    ∃ c cs, l.text = c :: cs ∧ c ≠ '\ufeff' := by
  cases l with
  | blank => exact ⟨_, _, rfl, by decide⟩
  | header n => exact ⟨_, _, rfl, by decide⟩
  | field n s =>
    obtain ⟨c, cs, heq, hc⟩ := Document.IsBare.exists_cons hbare
    exact ⟨c, _, by rw [text, heq]; rfl, isNamePart_ne hc (by decide)⟩

/-- A document of plain lines is read back. -/
theorem lines_flatMap {ls : List Plain} (hbare : ∀ l ∈ ls, l.IsBare) :
    lines (ls.flatMap Plain.text) = some (ls.map Plain.line, []) := by
  have hmark : (char '\ufeff' <|> pure ()) (ls.flatMap Plain.text) =
      some ((), ls.flatMap Plain.text) := by
    refine orElse_of_none ?_
    cases ls with
    | nil => rfl
    | cons l ls =>
      obtain ⟨c, cs, heq, hc⟩ := Plain.text_eq_cons (hbare l List.mem_cons_self)
      rw [List.flatMap_cons, heq]
      exact char_of_ne hc
  have hne : ∀ l ∈ ls, l.text ≠ [] := by
    intro l hl
    obtain ⟨c, cs, heq, -⟩ := Plain.text_eq_cons (hbare l hl)
    simp [heq]
  have hend : many line [] = some ([], []) := many_of_stuck (a := .blank) (by rfl)
  have hread := many_flatMap (fun l hl => line_text (hbare l hl)) hne hend
  rw [List.append_nil] at hread
  rw [lines, bind_of_eq hmark, bind_of_eq hread]
  rfl

end Slate.Toml.Document
