-- SUMMARY: Project manifests: what they say, how they are read from TOML and how they are written.
import Slate.Toml.Document
import Slate.Toml.Quoted.Writer

/-!
# Manifests

A manifest names a project, its version and its entry file. It is a TOML
document with a table `package`, which must give name and version, and a table
`build`, which may give the entry. An array may stand for either table; its items
are then the values in that order. What else a document says has no meaning here.
-/

namespace Slate

/-- The manifest of a project. -/
structure Manifest where
  name : String
  version : String
  entry : String
deriving DecidableEq, Repr

namespace Manifest

/-- The name of the file that holds a manifest. -/
def fileName : String := "slate.toml"

/-- The entry of a project whose manifest does not give one. -/
def defaultEntry : String := "src/main.slate"

/-- The manifest of a fresh project. -/
def new (name : String) : Manifest := { name, version := "0.1.0", entry := defaultEntry }

/-! ## Reading -/

/-- The string that a value is. -/
def string? : Toml.Value → Option String
  | .string s => some s
  | _ => none

/-- Name and version, from the value of `package`. -/
def package? : Toml.Value → Option (String × String)
  | .table t => do
    let name ← t.get? "name"
    let version ← t.get? "version"
    return (← string? name, ← string? version)
  | .array (name :: version :: _) => do return (← string? name, ← string? version)
  | _ => none

/-- The entry, from the value of `build`. A moment is taken for a table without an
entry. -/
def entry? : Toml.Value → Option String
  | .table t =>
    match t.get? "entry" with
    | some v => string? v
    | none => some defaultEntry
  | .array (entry :: _) => string? entry
  | .array [] => some defaultEntry
  | .moment _ => some defaultEntry
  | _ => none

/-- The manifest that a document holds. -/
def ofTable? (t : Toml.Table) : Option Manifest := do
  let (name, version) ← package? (← t.get? "package")
  let entry ←
    match t.get? "build" with
    | some v => entry? v
    | none => some defaultEntry
  return ⟨name, version, entry⟩

/-- The manifest that a text holds. -/
def read? (text : String) : Option Manifest := do
  ofTable? (← Toml.read? text.toList)

/-! ## Writing -/

/-- A line that gives a string to a key. -/
def field (key value : String) : List Char :=
  key.toList ++ " = ".toList ++ Toml.Quoted.write value.toList ++ ['\n']

/-- A manifest as a document. -/
def chars (m : Manifest) : List Char :=
  "[package]\n".toList ++ field "name" m.name ++ field "version" m.version ++
    "\n[build]\n".toList ++ field "entry" m.entry

/-- The text of a manifest. -/
def text (m : Manifest) : String := String.ofList m.chars

end Manifest

end Slate
