-- SUMMARY: A manifest that is written and read again is the manifest it was.
import Slate.Manifest
import Slate.Proofs.Toml.Document
import Slate.Proofs.Toml.Table

/-!
# Manifests that are read back

Name, version and entry of a manifest may be any strings. Its text is a document of two headers
with pairs below them, and each string on it is in a quoted form that holds it. So the text is
read as these lines, the lines make up two tables, and the tables give the manifest.
-/

namespace Slate.Manifest

open Toml Document

variable {m : Manifest}

/-- The lines of a manifest. -/
def plain (m : Manifest) : List Plain :=
  [.header "package", .field "name" m.name, .field "version" m.version, .blank,
    .header "build", .field "entry" m.entry]

theorem isBare_plain : ∀ l ∈ m.plain, l.IsBare := by
  have hpackage : Document.IsBare "package" := isBare_of_all (by decide) (by decide)
  have hname : Document.IsBare "name" := isBare_of_all (by decide) (by decide)
  have hversion : Document.IsBare "version" := isBare_of_all (by decide) (by decide)
  have hbuild : Document.IsBare "build" := isBare_of_all (by decide) (by decide)
  have hentry : Document.IsBare "entry" := isBare_of_all (by decide) (by decide)
  simp [plain, Plain.IsBare, hpackage, hname, hversion, hbuild, hentry]

theorem field_eq (key value : String) : field key value = (Plain.field key value).text := by
  rw [field, Plain.text, List.append_assoc, List.append_assoc]

theorem chars_eq (m : Manifest) :
    m.chars = "[package]\n".toList ++ field "name" m.name ++ field "version" m.version ++
      "\n[build]\n".toList ++ field "entry" m.entry := by
  rfl

theorem chars_eq_flatMap (m : Manifest) : m.chars = m.plain.flatMap Plain.text := by
  have hpackage : "[package]\n".toList = (Plain.header "package").text := by rfl
  have hbuild : "\n[build]\n".toList = Plain.blank.text ++ (Plain.header "build").text := by rfl
  rw [chars_eq, field_eq, field_eq, field_eq, hpackage, hbuild]
  simp only [plain, List.flatMap_cons, List.flatMap_nil, List.append_assoc, List.append_nil]

/-- The tables that the lines of a manifest make up. -/
theorem assemble_plain (m : Manifest) :
    ∃ root, assemble (m.plain.map Plain.line) = some root ∧
      root.get? "package" = some (.table
        (((Table.empty .header).put "name" (.string m.name)).put "version" (.string m.version))) ∧
      root.get? "build" = some (.table ((Table.empty .header).put "entry" (.string m.entry))) := by
  -- One step for each line; a pair finds the table that the header above it has opened.
  have hfold := calc (m.plain.map Plain.line).foldlM add ⟨Table.empty .header, []⟩
    _ = _ := foldlM_add_cons (add_header (by simp)) _
    _ = _ := foldlM_add_cons (add_pair (Table.get?_put_self _ _ _) (by simp) (by simp)) _
    _ = _ :=
      foldlM_add_cons (add_pair (Table.get?_put_self _ _ _) (by simp) (by simp [Table.get?_put])) _
    _ = _ := foldlM_add_cons (show add _ Plain.blank.line = some _ from rfl) _
    _ = _ := foldlM_add_cons (add_header (by simp [Table.get?_put])) _
    _ = _ := foldlM_add_cons (add_pair (Table.get?_put_self _ _ _) (by simp) (by simp)) _
  have hassemble := congrArg (fun s => s.bind fun s => some s.root) hfold
  exact ⟨_, hassemble, by simp [Table.get?_put], by simp⟩

/-- Whatever its name, version and entry, a manifest is read back from its text, and what is
read is written as the same text. -/
theorem read?_text (m : Manifest) :
    read? m.text = some m ∧ (read? m.text).map text = some m.text := by
  obtain ⟨root, hassemble, hpackage, hbuild⟩ := assemble_plain m
  have hdocument : Toml.read? m.chars = some root := by
    rw [Toml.read?, chars_eq_flatMap, lines_flatMap isBare_plain]
    exact hassemble
  have htable : ofTable? root = some m := by
    simp [ofTable?, hpackage, hbuild, package?, entry?, string?, Table.get?_put]
  have hread : read? m.text = some m := by
    rw [read?, text, String.toList_ofList, hdocument]
    exact htable
  exact ⟨hread, by rw [hread]; rfl⟩

end Slate.Manifest
