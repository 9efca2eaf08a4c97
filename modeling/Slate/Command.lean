-- SUMMARY: The commands on a source file or project: checking it, and showing its symbols.
import Slate.Project

/-!
# Commands

A command works on the file that it is given, or else on the entry file of the
project around the working directory. It announces what it does and ends in what
it has found, or in a failure after what it has announced so far.
-/

namespace Slate

/-! ## Targets -/

/-- What a command works on. -/
inductive Target where
  | file (path : Path)
  | project (p : Project)
deriving DecidableEq, Repr

namespace Target

/-- The source file of a target. -/
def source : Target → Path
  | file path => path
  | project p => p.entryPath

/-- The name under which the source file is spoken of. -/
def sourceName (t : Target) : String := t.source.fileName?.getD t.source.text

/-- A target as it is announced. -/
def text : Target → String
  | file path => path.text
  | project p => s!"{p.manifest.name} v{p.manifest.version} ({p.root.text})"

end Target

/-! ## Notices -/

/-- What a command tells. -/
inductive Notice where
  | checking (target : Target)
  | finished (target : Target)
  | symbols (table : Table)

/-- The text of a notice, with its line ends. The time that a check has taken is
for the caller to say. -/
def Notice.text (time : String) : Notice → String
  | checking target => s!"Checking {target.text}\n"
  | finished target => s!"    Finished {target.sourceName} checked in {time}\n"
  | symbols table => table.dump

/-- What comes of a command: what it tells, and why it fails if it does. -/
structure Report where
  notices : List Notice
  failure : Option Failure

/-- The text of all notices of a command. -/
def Report.text (time : String) (r : Report) : String :=
  String.join (r.notices.map (·.text time))

/-! ## Commands -/

/-- The commands. -/
inductive Command where
  | check (file : Option Path)
  | symbols (file : Option Path)
deriving DecidableEq, Repr

/-- The file of a command. -/
def Command.file : Command → Option Path
  | check file => file
  | symbols file => file

variable {m : Type → Type} [Monad m] [Files m]

/-- The given file, or the project around the working directory. -/
def locate : Option Path → ExceptT Failure m Target
  | some path => return .file path
  | none => do
    let p ← (Project.around none).adapt .outsideProject
    return .project p

/-- The symbol table of a target's source file. -/
def Target.analyze (t : Target) : ExceptT Failure m Table := do
  let source ← readText t.source
  match analyzeSource source with
  | .ok table => return table
  | .error e => throw (.rejected e)

/-- Run a command. -/
def Command.run (c : Command) : m Report := do
  match ← (locate c.file).run with
  | .error f => return { notices := [], failure := some f }
  | .ok target =>
    let opening := match c with
      | .check _ => [.checking target]
      | .symbols _ => []
    match ← target.analyze.run with
    | .error f => return { notices := opening, failure := some f }
    | .ok table =>
      let closing := match c with
        | .check _ => .finished target
        | .symbols _ => .symbols table
      return { notices := opening ++ [closing], failure := none }

end Slate
