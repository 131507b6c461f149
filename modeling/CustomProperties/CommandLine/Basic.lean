import CustomProperties.CommandLine.Console
import CustomProperties.CommandLine.EditRequest
import CustomProperties.EditDocument
import CustomProperties.Record

/-!
# The command line

The program as a function from the files it can see and its arguments to what it leaves behind.

* `list` prints the declarations of a stylesheet, one a line or as JSON.
* `set` puts values into a stylesheet and prints it or writes it to a file.
* `diff` prints what `set` would change.
-/

namespace CustomProperties.CommandLine

/-! ## Arguments -/

def takeApart (context : Context) (table : List OptionSpec) (optionsAnywhere : Bool)
    (arguments : List Text) : Run Arguments :=
  match readArguments table optionsAnywhere arguments with
  | .ok a => pure a
  | .error (.unknown name) => failUsage context ("No such option " ++ name.quoted ++ ".")
  | .error (.needsValue name) => fail 2 ("Option " ++ name.quoted ++ " requires an argument.")
  | .error (.takesNoValue name) => fail 2 ("Option " ++ name.quoted ++ " does not take a value.")

/-- Shows the help text or the version, whichever was asked for first, and ends the run. -/
def answerQuestions (context : Context) (a : Arguments) : Run Unit :=
  match a.given.find? fun g => g.key = .help || g.key = .version with
  | none => pure ()
  | some g => do
    say (if g.key = .help then context.help else versionLine)
    exit 0

/-- Ends the run unless a path leads to a file; `mayBeNew` lets it lead to nothing. -/
def checkPath (context : Context) (parameter path : Text) (mayBeNew : Bool) : Run Unit := do
  let complain (what : Text) : Run Unit :=
    failUsage context ("Invalid value for " ++ parameter ++ ": File "
      ++ (FilePath.shown path).quoted ++ what)
  match ← fileKind path with
  | .file => pure ()
  | .directory => complain " is a directory."
  | .absent => if mayBeNew then pure () else complain " does not exist."

def checkOption (context : Context) (a : Arguments) (key : OptionKey) : Run Unit :=
  match key, a.value? key with
  | .edits, some path => checkPath context "'--edits'" path false
  | .output, some path => checkPath context "'--output' / '-o'" path true
  | _, _ => pure ()

def takeStylesheet (context : Context) (a : Arguments) : Run Text :=
  match a.operands with
  | [] => failUsage context "Missing argument 'CSSFILE'."
  | path :: surplus => do
    checkPath context "'CSSFILE'" path false
    match surplus with
    | [] => return path
    | _ => failUsage context ("Got unexpected extra argument"
        ++ (if surplus.length = 1 then "" else "s") ++ " (" ++ Text.joinWith " " surplus ++ ")")

/-! ## Files -/

/-- The text of a stylesheet, line ends as they are. -/
def readStylesheet (path : Text) : Run Text := do
  let complain (reason : Text) : Run Text :=
    fail 1 ("Could not open file " ++ (FilePath.shown path).quoted ++ ": " ++ reason)
  match ← readFile path with
  | .error reason => complain reason
  | .ok bytes =>
    match Utf8.decode bytes with
    | .ok t => return t
    | .error reason => complain ("not valid UTF-8 (" ++ reason.message ++ ")")

def decodeEdits (limits : Json.Limits) (bytes : Except Text (List UInt8)) :
    Except (Json.Failure EditError) (Entries Text Text) :=
  match bytes with
  | .error reason => .error (.refused (.unreadable reason))
  | .ok bytes =>
    match Utf8.decode bytes with
    | .error reason => .error (.refused (.notUtf8 reason))
    | .ok t => EditDocument.read limits t.unifyLineEnds

/-- The edits of a document, or none if there is no document.  What is wrong with a document is
told; a document beyond the limits takes the run down. -/
def readEdits (limits : Json.Limits) (path : Option Text) : Run (Entries Text Text) :=
  match path with
  | none => pure []
  | some path => do
    match decodeEdits limits (← readFile path) with
    | .ok edits => return edits
    | .error (.refused e) => fail 1 (EditError.about (some path) e.message)
    | .error (.excess e) => throw (.crash (.excess e))

/-! ## Commands -/

/-- What holds for a whole run: how stylesheets and documents are read, and whether the log is
shown. -/
structure Settings where
  config : Config
  limits : Json.Limits
  verbose : Bool

def openSession (settings : Settings) (path : Text) : Run Session := do
  let source ← readStylesheet path
  report settings.verbose ((Scan.trace settings.config source).log (some path))
  return Session.start settings.config source (some path)

/-- The line that shows a declaration: where its value stands, its selector, name and trimmed
value. -/
def listLine (source : Text) (d : Declaration) : Text :=
  let l := d.location source none
  Text.ofInt l.line ++ ":" ++ Text.ofInt l.column ++ "  " ++ d.selector ++ "  " ++ d.name ++ ": "
    ++ d.value.trim ++ "\n"

def sayAll (texts : List Text) : Run Unit := texts.forM say

def runList (settings : Settings) (a : Arguments) (path : Text) : Run Unit := do
  let session ← openSession settings path
  let ds := session.matching ((a.value? .filter).getD [])
  if a.has .json then say (Declaration.listToJson ds (.indented 2) ++ "\n")
  else if ds.isEmpty then say "No custom properties found.\n"
  else sayAll (ds.map (listLine session.source))

def editSession (context : Context) (settings : Settings) (a : Arguments) (path : Text) :
    Run Session := do
  let document ← readEdits settings.limits (a.value? .edits)
  match Assignment.readAll (a.values .assign) with
  | .error m => failUsage context ("Invalid value for '--set': " ++ m.message)
  | .ok assignments =>
    let request : EditRequest :=
      { values := EditRequest.collect document assignments
        selector := a.value? .selector
        raw := a.has .raw }
    if request.values.isEmpty then
      failUsage context "Nothing to apply: pass --set NAME=VALUE or --edits FILE."
    else do
      let session ← openSession settings path
      (request.unmatched session).forM fun name =>
        tell ("Warning: no declaration named " ++ name ++ " in " ++ path ++ "\n")
      return request.apply session

def countChanges (s : Session) : Text := Text.ofNat s.changes.length ++ " change(s)"

def runSet (settings : Settings) (a : Arguments) (path : Text) : Run Unit := do
  let session ← editSession (some .set) settings a path
  report settings.verbose [session.patched.record session.edits]
  match a.value? .output with
  | none => say session.render
  | some output => do
    putText output session.render
    tell ("Wrote " ++ FilePath.name output ++ " (" ++ countChanges session ++ ")\n")

def diffLine (c : Change) : Text :=
  c.declaration.selector ++ "  " ++ c.declaration.name ++ ": " ++ c.declaration.value.trim ++ " -> "
    ++ c.newValue.trim ++ "\n"

def runDiff (settings : Settings) (a : Arguments) (path : Text) : Run Unit := do
  let session ← editSession (some .diff) settings a path
  if session.changes.isEmpty then say "No changes.\n"
  else do
    sayAll (session.changes.map diffLine)
    say "\n"
    say ("Summary: " ++ countChanges session ++ "\n")

def runCommand (settings : Settings) (c : Command) (arguments : List Text) : Run Unit := do
  let a ← takeApart (some c) c.options true arguments
  answerQuestions (some c) a
  a.keys.forM (checkOption (some c) a)
  let path ← takeStylesheet (some c) a
  match c with
  | .list => runList settings a path
  | .set => runSet settings a path
  | .diff => runDiff settings a path

/-- Ends the run because there is no such command.  What stands in the command's place may still be
options, after two hyphens alone. -/
def rejectCommand (name : Text) (operands : List Text) : Run Unit := do
  answerQuestions none (← takeApart none programOptions false operands)
  failUsage none ("No such command " ++ name.quoted ++ ".")

def program (config : Config) (limits : Json.Limits) (arguments : List Text) : Run Unit :=
  if arguments.isEmpty then do
    tell programHelp
    exit 2
  else do
    let a ← takeApart none programOptions false arguments
    answerQuestions none a
    match a.operands with
    | [] => failUsage none "Missing command."
    | name :: rest =>
      match Command.ofName? name with
      | some c => runCommand { config, limits, verbose := a.has .verbose } c rest
      | none => rejectCommand name a.operands

def run (config : Config) (limits : Json.Limits) (folder : Folder) (arguments : List Text) :
    Outcome :=
  (program config limits arguments).outcome folder

end CustomProperties.CommandLine
