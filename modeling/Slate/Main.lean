-- SUMMARY: The command line: reading the arguments, looking at the disk, and printing what a command reports.
import Slate.Command

/-!
# Command line

`slate check [FILE]` checks a source file or the project around the working
directory, and `slate symbols [FILE]` shows its symbol table. With `-v` the events
of the analysis go to the error output, with `-vv` the lesser ones too.
-/

namespace Slate

/-- The disk. Only a missing file counts as absent; one that cannot be read is
present. -/
instance : Files IO where
  workingDirectory := do return ⟨(← IO.currentDir).toString⟩
  isPresent path := do
    match ← (IO.FS.readFile path.text).toBaseIO with
    | .error (.noFileOrDirectory ..) => return false
    | _ => return true
  read path := do
    match ← (IO.FS.readFile path.text).toBaseIO with
    | .ok text => return .ok text
    | .error e => return .error (toString e)

namespace CommandLine

/-- How the program is used. -/
def usage : String := "Usage: slate [-v] (check | symbols) [FILE]"

/-- The command that arguments without flags ask for. -/
def command? : List String → Option Command
  | ["check"] | ["c"] => some (.check none)
  | ["check", file] | ["c", file] => some (.check (some ⟨file⟩))
  | ["symbols"] => some (.symbols none)
  | ["symbols", file] => some (.symbols (some ⟨file⟩))
  | _ => none

/-- How many levels of events a flag adds. -/
def verbosity (flag : String) : Nat :=
  if flag = "-v" ∨ flag = "--verbose" then 1 else if flag = "-vv" then 2 else 0

/-- The levels of events that are shown. -/
def isShown (verbose : Nat) : Event.Level → Bool
  | .warning => true
  | .debug => 1 ≤ verbose
  | .trace => 2 ≤ verbose
  | .span => false

/-- An event on one line. -/
def eventLine (e : Event) : String :=
  e.fields.foldl (fun line field => line ++ " " ++ field.1 ++ "=" ++ field.2)
    (e.level.text ++ " " ++ e.message)

/-- What a failure adds to its message: the reason, or where the error is. -/
def detail : Failure → List String
  | .unreadable _ reason => [reason]
  | .malformed _ => ["not a manifest"]
  | .rejected error =>
    let place := match error.diagnostic.span with
      | some span => span.start.text ++ ": "
      | none => ""
    [place ++ error.diagnostic.message]
  | _ => []

/-- The lines that tell of a failure. -/
def failureLines (f : Failure) : List String :=
  f.causes.flatMap fun cause => ("error: " ++ cause.message) :: (detail cause).map ("  " ++ ·)

/-- A time in seconds with two places. -/
def seconds (milliseconds : Nat) : String :=
  let hundredths := (milliseconds + 5) / 10
  let places := Nat.repr (hundredths % 100)
  Nat.repr (hundredths / 100) ++ "." ++ (if hundredths % 100 < 10 then "0" else "") ++ places ++ "s"

/-- Show the events of the analysis of a file. -/
def showEvents (verbose : Nat) (path : Path) : IO Unit := do
  let .ok source ← (Files.read path : IO (Except String String)) | return
  let .ok program := readSource source | return
  for event in program.trace do
    if isShown verbose event.level then IO.eprintln (eventLine event)

/-- Run a command, print its report, and give the exit code. -/
def execute (verbose : Nat) (c : Command) : IO UInt32 := do
  let start ← IO.monoMsNow
  let report : Report ← c.run
  let elapsed := (← IO.monoMsNow) - start
  if let .ok target ← (locate c.file : ExceptT Failure IO Target).run then
    showEvents verbose target.source
  IO.print (report.text (seconds elapsed))
  match report.failure with
  | none => return 0
  | some f =>
    for line in failureLines f do IO.eprintln line
    return 1

end CommandLine

end Slate

open Slate CommandLine in
def main (args : List String) : IO UInt32 := do
  let (flags, rest) := args.partition fun a => verbosity a != 0
  match command? rest with
  | some c => execute (flags.foldl (fun n a => n + verbosity a) 0) c
  | none =>
    IO.eprintln usage
    return 2
