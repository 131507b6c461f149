import CustomProperties.CommandLine.Basic

/-!
# The program

Looks at the files that the arguments may name, runs the command line on them, and carries out
what it left behind: the files written, the two streams, and the exit code.
-/

namespace CustomProperties.Main

/-- The paths that an argument may name: the argument itself, what follows an equals sign, and what
follows a joined letter. -/
def possiblePaths (argument : Text) : List Text :=
  [argument, (argument.dropWhile (· ≠ ('=' : CodePoint))).drop 1, argument.drop 2].filter (· ≠ [])

def lookAt (path : String) : IO (Option FolderItem) := do
  let real ← try IO.FS.realPath path catch _ => return none
  if ← real.isDir then return some .directory
  else if ← real.pathExists then
    try
      let bytes ← IO.FS.readBinFile path
      return some (.file bytes.toList)
    catch _ => return some .unreadable
  else return none

def pathOf (place : List Text) : String :=
  match place with
  | [] => "."
  | first :: rest =>
    if first = "/" then "/" ++ (Text.joinWith "/" rest).toString
    else (Text.joinWith "/" place).toString

def explore (folder : Folder) : (place : List Text) → List Text → IO Folder
  | _, [] => return folder
  | place, part :: parts => do
    let next := Folder.down place part
    match ← lookAt (pathOf next) with
    | some item => explore (folder.put next item) next parts
    | none => return folder

def look (arguments : List Text) : IO Folder :=
  (arguments.flatMap possiblePaths).foldlM (fun folder path =>
    explore folder (if FilePath.isAbsolute path then Folder.root else [])
      (FilePath.steps path)) []

/-- Writes the files that differ. -/
def carryOut (before after : Folder) : IO Unit :=
  after.forM fun (place, item) => do
    match item with
    | .file bytes =>
      if before.get? place ≠ some item then IO.FS.writeBinFile (pathOf place) ⟨bytes.toArray⟩
    | _ => pure ()

/-- The brackets that the call stack has room for when a document is read. -/
def stackRoom : Nat := 980

end CustomProperties.Main

open CustomProperties in
def main (args : List String) : IO UInt32 := do
  let arguments := args.map Text.ofString
  let folder ← Main.look arguments
  let outcome := CommandLine.run {} (.standard Main.stackRoom) folder arguments
  Main.carryOut folder outcome.folder
  IO.print outcome.stdout.toString
  IO.eprint outcome.stderr.toString
  if let some crash := outcome.crash then IO.eprintln crash.message.toString
  return outcome.exitCode.toUInt32
