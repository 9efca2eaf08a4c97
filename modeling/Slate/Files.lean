-- SUMMARY: Access to files as a class, and a tree of files in memory that provides it.
import Slate.Path

/-!
# Files

What looks at files asks for no more than the three questions of `Files`, so that
it runs on a disk and on a tree in memory alike. In a tree every path is followed
part by part: each part must be sought in a directory, and two dots lead back to
the directory above.
-/

namespace Slate

/-- A monad in which files can be looked at. -/
class Files (m : Type → Type) where
  /-- The directory from which relative paths are read. -/
  workingDirectory : m Path
  /-- Whether there is a file or a directory at a path. -/
  isPresent : Path → m Bool
  /-- The text of a file, or the reason why it cannot be had. -/
  read : Path → m (Except String String)

/-! ## File trees -/

/-- A place in a file tree: the names that lead to it from the root. -/
abbrev Place := List String

/-- What stands at a place. -/
inductive FileTree.Entry where
  | file (text : String)
  | directory
deriving DecidableEq, Repr

/-- A tree of files in memory. A file makes its directories; others are listed. -/
structure FileTree where
  files : List (Place × String)
  directories : List Place
  workingDirectory : Place
deriving Repr

namespace FileTree

/-- A tree with nothing in it. -/
def empty : FileTree := { files := [], directories := [[]], workingDirectory := [] }

/-- What stands at a place. -/
def entry? (t : FileTree) (place : Place) : Option Entry :=
  match t.files.lookup place with
  | some text => some (.file text)
  | none => if place ∈ t.directories then some .directory else none

/-- The place to which one part of a path leads. -/
def step (place : Place) (part : String) : Place :=
  if part = ".." then place.dropLast else place ++ [part]

/-- The place to which the parts of a path lead, where each has to be sought in a
directory. An idle part leads nowhere but must have a directory too. -/
def follow (t : FileTree) : List (List Char) → Place → Option Place
  | [], place => some place
  | part :: rest, place =>
    if t.entry? place = some .directory then
      t.follow rest (if Path.isIdle part then place else step place (String.ofList part))
    else none

/-- What stands at a path. There is nothing at the empty path. -/
def at? (t : FileTree) (p : Path) : Option Entry :=
  if p.text.isEmpty then none
  else do
    let start := if p.isAbsolute then [] else t.workingDirectory
    t.entry? (← t.follow (Path.split p.text.toList) start)

/-! ## Making files -/

/-- The places on the way along the parts of a path, with the last. -/
def passed (place : Place) : List String → List Place
  | [] => [place]
  | part :: parts => place :: passed (step place part) parts

/-- Make a directory and all directories on the way to it. -/
def makeDirectory (t : FileTree) (start : Place) (parts : List String) : FileTree :=
  { t with directories := passed start parts ++ t.directories }

/-- Write a file and make the directories on the way to it. -/
def write (t : FileTree) (start : Place) (parts : List String) (text : String) : FileTree :=
  let t := t.makeDirectory start parts.dropLast
  { t with files := (parts.foldl step start, text) :: t.files }

/-- Make a directory and take it for the working directory. -/
def enter (t : FileTree) (start : Place) (parts : List String) : FileTree :=
  { t.makeDirectory start parts with workingDirectory := parts.foldl step start }

end FileTree

/-! ## A tree as files -/

/-- Programs that look at a file tree. -/
abbrev InTree := ReaderM FileTree

instance : Files InTree where
  workingDirectory := do
    return ⟨"/" ++ "/".intercalate (← read).workingDirectory⟩
  isPresent p := do
    return ((← read).at? p).isSome
  read p := do
    match (← read).at? p with
    | some (.file text) => return .ok text
    | some .directory => return .error "is a directory"
    | none => return .error "no such file or directory"

end Slate
