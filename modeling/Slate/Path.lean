-- SUMMARY: Paths of files: joining, the directories above a path, and the name at its end.

/-!
# Paths

A path is a text of parts with slashes between them; one that begins with a slash
is absolute. A part that is empty or a single dot changes nothing, except that a
dot at the very front of a relative path is kept. Nothing here looks at files, so
two dots are a part like any other.
-/

namespace Slate

/-- The path of a file or a directory. -/
structure Path where
  text : String
deriving DecidableEq, Repr

namespace Path

/-! ## Joining -/

/-- Whether a path is absolute. -/
def isAbsolute (p : Path) : Bool := p.text.startsWith "/"

/-- A path read from a directory: an absolute one stands for itself, and a slash
is put in between unless the directory is empty or brings one. -/
def join (dir p : Path) : Path :=
  if p.isAbsolute then p
  else if dir.text.isEmpty || dir.text.endsWith "/" then ⟨dir.text ++ p.text⟩
  else ⟨dir.text ++ "/" ++ p.text⟩

/-! ## Parts -/

/-- The parts between the slashes of a text. -/
def split : List Char → List (List Char)
  | [] => [[]]
  | c :: cs =>
    if c = '/' then [] :: split cs
    else match split cs with
      | part :: parts => (c :: part) :: parts
      | [] => [[c]]

/-- Whether a part changes nothing. -/
def isIdle (part : List Char) : Bool := part.isEmpty || part == ['.']

/-- The parts of a path that lead somewhere. -/
def parts (p : Path) : List String :=
  ((split p.text.toList).filter (!isIdle ·)).map String.ofList

/-- The last part of a path, unless there is none or it is two dots. -/
def fileName? (p : Path) : Option String :=
  p.parts.getLast?.filter (· ≠ "..")

/-! ## Directories above -/

/-- What is left of reversed parts each time the last part that leads somewhere is
taken away, together with the idle parts around it. -/
def climb : List (List Char) → List (List (List Char))
  | [] => []
  | part :: rest => if isIdle part then climb rest else rest.dropWhile isIdle :: climb rest

/-- The part of a path that no climbing takes away piece by piece: the slash of an
absolute path, or the dot at the front of a relative one. -/
def anchor (p : Path) : List Char :=
  match split p.text.toList with
  | [] :: _ :: _ => ['/']
  | ['.'] :: _ => ['.']
  | _ => []

/-- The directories above a path, from the nearest one. Above a dot at the front
there is the empty path. -/
def above (p : Path) : List Path :=
  let body := p.text.toList.drop p.anchor.length
  let dirs := (climb (split body).reverse).map fun parts =>
    ⟨String.ofList (p.anchor ++ ['/'].intercalate parts.reverse)⟩
  if p.anchor = ['.'] then dirs ++ [⟨""⟩] else dirs

/-- A path and the directories above it. -/
def upward (p : Path) : List Path := p :: p.above

end Path

end Slate
