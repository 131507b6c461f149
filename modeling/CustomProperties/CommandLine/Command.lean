import CustomProperties.Declaration

/-!
# Arguments and commands

How a list of arguments is taken apart.  A long option has its value after an equals sign or in
the next argument; short options are one letter each, may be joined after one hyphen, and have
their value in the rest of the argument or in the next one.  Two hyphens alone end the options.

Then the three commands, the options that each takes, and the texts that describe them.
-/

namespace CustomProperties.CommandLine

/-! ## Options and operands -/

inductive OptionKey
  | help
  | version
  | verbose
  | filter
  | json
  | assign
  | edits
  | selector
  | raw
  | output
deriving DecidableEq

/-- An option: its long name, its letter if it has one, and whether it takes a value. -/
structure OptionSpec where
  key : OptionKey
  long : Text
  short : Option CodePoint := none
  takesValue : Bool := false

/-- An option as it was given; a switch has an empty value. -/
structure Given where
  key : OptionKey
  value : Text
deriving DecidableEq

inductive OptionFault
  | unknown (name : Text)
  | needsValue (name : Text)
  | takesNoValue (name : Text)
deriving DecidableEq

/-- What one argument gives: options, and perhaps one that takes the next argument for its value. -/
structure OptionReading where
  given : List Given := []
  pending : Option (OptionKey × Text) := none

def readLetters (table : List OptionSpec) : Text → Except OptionFault OptionReading
  | [] => .ok {}
  | c :: rest =>
    let name : Text := [('-' : CodePoint), c]
    match table.find? (·.short = some c) with
    | none => .error (.unknown name)
    | some spec =>
      if spec.takesValue then
        .ok (if rest.isEmpty then { pending := some (spec.key, name) }
          else { given := [⟨spec.key, rest⟩] })
      else (readLetters table rest).map fun r => { r with given := ⟨spec.key, []⟩ :: r.given }

/-- What long names start with; alone it ends the options. -/
def longMark : Text := "--"

def readOption (table : List OptionSpec) (argument : Text) : Except OptionFault OptionReading :=
  let name := argument.takeWhile (· ≠ ('=' : CodePoint))
  let attached := argument.drop name.length
  match table.find? (·.long = name) with
  | some spec =>
    if spec.takesValue then
      .ok (if attached.isEmpty then { pending := some (spec.key, name) }
        else { given := [⟨spec.key, attached.drop 1⟩] })
    else if attached.isEmpty then .ok { given := [⟨spec.key, []⟩] }
    else .error (.takesNoValue name)
  | none =>
    if longMark.isPrefixOf argument then .error (.unknown name)
    else readLetters table (argument.drop 1)

structure Arguments where
  given : List Given := []
  operands : List Text := []
deriving DecidableEq

def Arguments.after (a : Arguments) (given : List Given) : Arguments :=
  { a with given := given ++ a.given }

/-- A list of arguments taken apart.  Unless options may follow operands, the first operand and
all that comes after it are operands. -/
def readArguments (table : List OptionSpec) (optionsAnywhere : Bool) :
    List Text → Except OptionFault Arguments
  | [] => .ok {}
  | argument :: rest =>
    if argument = longMark then .ok { operands := rest }
    else if argument.head? = some ('-' : CodePoint) ∧ 1 < argument.length then
      match readOption table argument with
      | .error fault => .error fault
      | .ok ⟨given, none⟩ => (readArguments table optionsAnywhere rest).map (·.after given)
      | .ok ⟨given, some (key, name)⟩ =>
        match rest with
        | [] => .error (.needsValue name)
        | value :: rest =>
          (readArguments table optionsAnywhere rest).map (·.after (given ++ [⟨key, value⟩]))
    else if optionsAnywhere then
      (readArguments table optionsAnywhere rest).map fun a =>
        { a with operands := argument :: a.operands }
    else .ok { operands := argument :: rest }

namespace Arguments

def has (a : Arguments) (key : OptionKey) : Bool := a.given.any (·.key = key)

def values (a : Arguments) (key : OptionKey) : List Text :=
  a.given.filterMap fun g => if g.key = key then some g.value else none

/-- The value of an option: the last one given. -/
def value? (a : Arguments) (key : OptionKey) : Option Text := (a.values key).getLast?

/-- The keys that were given, each at its first place. -/
def keys (a : Arguments) : List OptionKey := (a.given.map (·.key)).eraseDups

end Arguments

/-! ## Commands and their help -/

inductive Command
  | list
  | set
  | diff
deriving DecidableEq

def helpOption : OptionSpec := { key := .help, long := "--help" }

def programOptions : List OptionSpec :=
  [{ key := .version, long := "--version" },
    { key := .verbose, long := "--verbose", short := some 'v' }, helpOption]

def editOptions : List OptionSpec :=
  [{ key := .assign, long := "--set", takesValue := true },
    { key := .edits, long := "--edits", takesValue := true },
    { key := .selector, long := "--selector", takesValue := true },
    { key := .raw, long := "--raw" }]

namespace Command

def ofName? (name : Text) : Option Command :=
  if name = "list" then some list
  else if name = "set" then some set
  else if name = "diff" then some diff
  else none

def name : Command → Text
  | list => "list"
  | set => "set"
  | diff => "diff"

def options : Command → List OptionSpec
  | list =>
    [{ key := .filter, long := "--filter", takesValue := true }, { key := .json, long := "--json" },
      helpOption]
  | set =>
    editOptions ++ [{ key := .output, long := "--output", short := some 'o', takesValue := true },
      helpOption]
  | diff => editOptions ++ [helpOption]

def usage (c : Command) : Text := "Usage: cssvars " ++ c.name ++ " [OPTIONS] CSSFILE\n"

def help (c : Command) : Text :=
  c.usage ++ match c with
  | list => "
  List every custom-property declaration in CSSFILE.

  Each line shows the value position, the enclosing selector and the declaration
  with its value trimmed for display.

Options:
  --filter TEXT  Only names or selectors containing TERM.
  --json         Print declarations as JSON.
  --help         Show this message and exit.
"
  | set => "
  Apply edits to CSSFILE and emit the patched stylesheet.

  Only the edited values change; everything else is copied verbatim.

Options:
  --set NAME=VALUE   New value for a custom property (repeatable).
  --edits FILE       JSON object mapping property names to values.
  --selector TEXT    Only edit declarations under SELECTOR.
  --raw              Use values verbatim instead of keeping original padding.
  -o, --output FILE  Write the patched stylesheet here instead of stdout.
  --help             Show this message and exit.
"
  | diff => "
  Show which declarations in CSSFILE the edits would change.

Options:
  --set NAME=VALUE  New value for a custom property (repeatable).
  --edits FILE      JSON object mapping property names to values.
  --selector TEXT   Only edit declarations under SELECTOR.
  --raw             Use values verbatim instead of keeping original padding.
  --help            Show this message and exit.
"

end Command

def programUsage : Text := "Usage: cssvars [OPTIONS] COMMAND [ARGS]...\n"

def programHelp : Text :=
  programUsage ++ "
  cssvars - list and edit CSS custom properties without reformatting.

Options:
  --version      Show the version and exit.
  -v, --verbose  Enable debug logging.
  --help         Show this message and exit.

Commands:
  diff  Show which declarations in CSSFILE the edits would change.
  list  List every custom-property declaration in CSSFILE.
  set   Apply edits to CSSFILE and emit the patched stylesheet.
"

def versionLine : Text := "cssvars, version 0.1.0\n"

/-- Where a wrong use was noticed: before a command or in one. -/
abbrev Context := Option Command

def Context.hint : Context → Text
  | none => programUsage ++ "Try 'cssvars --help' for help.\n"
  | some c => c.usage ++ "Try 'cssvars " ++ c.name ++ " --help' for help.\n"

def Context.help : Context → Text
  | none => programHelp
  | some c => c.help

end CustomProperties.CommandLine
