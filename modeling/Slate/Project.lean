-- SUMMARY: Finding the project around a directory, and the ways in which that and an analysis can fail.
import Slate.Analysis
import Slate.Files
import Slate.Manifest

/-!
# Projects

A project is a directory with a manifest. The project around a directory is found
by walking up: the first directory that has something by the name of a manifest
decides, whether that can be read or not.
-/

namespace Slate

/-! ## Failures -/

/-- Why a command does not come to its end. -/
inductive Failure where
  /-- A file cannot be read, for the reason that its owner gives. -/
  | unreadable (path : Path) (reason : String)
  /-- A file holds no manifest. -/
  | malformed (path : Path)
  /-- No directory on the way up has a manifest. -/
  | noManifest
  /-- A command that needs a project has found none. -/
  | outsideProject (why : Failure)
  /-- The source text has an error. -/
  | rejected (error : StageError)
deriving DecidableEq, Repr

namespace Failure

/-- What is said of a failure. -/
def message : Failure → String
  | unreadable path _ => s!"Failed to read {path.text}"
  | malformed path => s!"Failed to parse {path.text}"
  | noManifest =>
    s!"Could not find {Manifest.fileName} in current directory or any parent directory"
  | outsideProject _ => "Not in a Slate project directory"
  | rejected error =>
    match error.stage with
    | .lexing => "Lexical analysis failed"
    | .parsing => "Parsing failed"
    | .checking => "Semantic analysis failed"

/-- A failure and what lies behind it, the outermost first. -/
def causes : Failure → List Failure
  | outsideProject why => outsideProject why :: why.causes
  | f => [f]

end Failure

/-! ## Projects -/

/-- The entry file of a project whose root is `root`. -/
def Manifest.entryPath (m : Manifest) (root : Path) : Path := root.join ⟨m.entry⟩

/-- A manifest and the directory that it stands in. -/
structure Project where
  manifest : Manifest
  root : Path
deriving DecidableEq, Repr

namespace Project

/-- The entry file of a project. -/
def entryPath (p : Project) : Path := p.manifest.entryPath p.root

/-- A project on one line: name, version, entry file and root. -/
def summary (p : Project) : String :=
  s!"{p.manifest.name} {p.manifest.version} {p.entryPath.text} {p.root.text}"

end Project

variable {m : Type → Type} [Monad m] [Files m]

/-- The text of a file. -/
def readText (path : Path) : ExceptT Failure m String := do
  match ← (Files.read path : m _) with
  | .ok text => return text
  | .error reason => throw (.unreadable path reason)

/-- The manifest that a file holds. -/
def Manifest.load (path : Path) : ExceptT Failure m Manifest := do
  match Manifest.read? (← readText path) with
  | some manifest => return manifest
  | none => throw (.malformed path)

/-- The project whose root is the first of some directories with a manifest. -/
def Project.firstOf : List Path → ExceptT Failure m Project
  | [] => throw .noManifest
  | dir :: dirs => do
    let path := dir.join ⟨Manifest.fileName⟩
    if ← (Files.isPresent path : m Bool) then
      return { manifest := ← Manifest.load path, root := dir }
    else firstOf dirs

/-- The project around a path, which is read from the working directory, or around
the working directory itself. -/
def Project.around (path : Option Path) : ExceptT Failure m Project := do
  let dir ← (Files.workingDirectory : m Path)
  firstOf (path.elim dir dir.join).upward

end Slate
