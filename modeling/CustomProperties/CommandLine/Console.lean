import CustomProperties.CommandLine.Command
import CustomProperties.CommandLine.Folder
import CustomProperties.Json.Reader

/-!
# Running a command

A run changes the files it can see and writes to two streams.  It ends by itself, by an exit with
a code, or by a crash: a text that has no UTF-8 form, a path that the system cannot be asked for, a
document beyond the limits of the JSON reader, or a file that cannot be opened for writing or
filled.

* `say`, `tell`: text to the two streams, without terminal control sequences.
* `report`: log records to the error stream, as they are.
* `Run.outcome`: what a run leaves behind.
-/

namespace CustomProperties.CommandLine

/-- A failure that no command deals with. -/
inductive Crash
  | unencodable (place : Utf8.Unencodable)
  | nullByte
  | excess (e : Json.Excess)
  | cannotOpen (fault : PathFault) (path : Text)
  | cannotWrite
deriving DecidableEq

def Crash.ofFlaw : FilePath.Flaw → Crash
  | .unencodable place => unencodable place
  | .nullByte => nullByte

def Crash.message : Crash → Text
  | unencodable place =>
    let what : Text :=
      if place.count = 1 then
        "character '" ++ Text.hexEscape place.first ++ "' in position " ++ Text.ofNat place.offset
      else "characters in position " ++ Text.ofNat place.offset ++ "-"
        ++ Text.ofNat (place.offset + place.count - 1)
    "'utf-8' codec can't encode " ++ what ++ ": surrogates not allowed"
  | nullByte => "embedded null byte"
  | excess e => e.message
  | cannotOpen fault path =>
    "[Errno " ++ Text.ofNat fault.number ++ "] " ++ fault.reason ++ ": " ++ path.quoted
  | cannotWrite => "[Errno 5] " ++ Folder.deviceFault

inductive Stop
  | exit (code : Nat)
  | crash (crash : Crash)
deriving DecidableEq

structure Console where
  folder : Folder
  stdout : Text := []
  stderr : Text := []
deriving DecidableEq

/-- A computation that reads and writes files and streams. -/
abbrev Run (α : Type) := ExceptT Stop (StateM Console) α

def exit {α : Type} (code : Nat) : Run α := throw (.exit code)

/-- Text to the output stream, which holds strict UTF-8. -/
def say (t : Text) : Run Unit :=
  match Utf8.unencodable? t.plain with
  | none => modify fun c => { c with stdout := c.stdout ++ t.plain }
  | some place => throw (.crash (.unencodable place))

def escapeSurrogates (t : Text) : Text :=
  t.flatMap fun c => if c.isSurrogate then Text.hexEscape c else [c]

/-- Text to the error stream, as it is. -/
def writeError (t : Text) : Run Unit :=
  modify fun c => { c with stderr := c.stderr ++ escapeSurrogates t }

def tell (t : Text) : Run Unit := writeError t.plain

def report (verbose : Bool) (records : List Log.Record) : Run Unit :=
  if verbose then writeError (records.flatMap fun r => r.line ++ "\n") else pure ()

def readFile (path : Text) : Run (Except Text (List UInt8)) := do
  return (← get).folder.read path

def fileKind (path : Text) : Run Folder.Kind := do
  match FilePath.flaw? path with
  | some flaw => throw (.crash (.ofFlaw flaw))
  | none => return (← get).folder.kind path

/-- Fills a file with a text.  Opening empties the file, before the text is known to have bytes. -/
def putText (path t : Text) : Run Unit := do
  match (← get).folder.create path with
  | .error fault => throw (.crash (.cannotOpen fault path))
  | .ok (place, folder) =>
    modify fun c => { c with folder }
    match Utf8.unencodable? t with
    | some place => throw (.crash (.unencodable place))
    | none =>
      match folder.fill place (Utf8.encode t) with
      | some folder => modify fun c => { c with folder }
      | none => throw (.crash .cannotWrite)

def fail {α : Type} (code : Nat) (message : Text) : Run α := do
  tell ("Error: " ++ message ++ "\n")
  exit code

def failUsage {α : Type} (context : Context) (message : Text) : Run α := do
  tell (context.hint ++ "\n")
  fail 2 message

structure Outcome where
  exitCode : Nat
  stdout : Text
  stderr : Text
  folder : Folder
  crash : Option Crash
deriving DecidableEq

def Run.outcome (run : Run Unit) (folder : Folder) : Outcome :=
  let (result, console) := run.run.run { folder }
  let (exitCode, crash) := match result with
    | .ok () => (0, none)
    | .error (.exit code) => (code, none)
    | .error (.crash crash) => (1, some crash)
  { exitCode, crash, stdout := console.stdout, stderr := console.stderr, folder := console.folder }

end CustomProperties.CommandLine
