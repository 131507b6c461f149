import CustomProperties.Text.Quoted

/-!
# Declarations

A custom-property declaration `--name: value` found in a stylesheet.  The value is kept as it
stands in the source, blanks included, with the offsets of its first character and of the
character after it.  A custom property's name is `--` followed by at least one ASCII letter, digit,
hyphen or underscore.

* `Location`: the place of a span in a source, with the lines and columns of its two ends.
* `Declaration.location`: the place of a declaration's value.
* `Log.Record`: what the parts of the library report while they work, a message on a channel.  Every
  channel lies under the program's own name.
-/

namespace CustomProperties

def CodePoint.isNameChar (c : CodePoint) : Bool := c.isLetter || c.isDigit || c = '-' || c = '_'

namespace PropertyName

def mark : Text := "--"

def isValid (t : Text) : Bool :=
  2 < t.length && mark.isPrefixOf t && (t.drop 2).all CodePoint.isNameChar

/-- A name as a user may give it: trimmed, and with the two hyphens in front if they are missing. -/
def normalize (t : Text) : Text :=
  if mark.isPrefixOf t.trim then t.trim else mark ++ t.trim

end PropertyName

/-! ## Locations -/

/-- A place in a source; lines and columns count from one. -/
structure Location where
  line : Int
  column : Int
  offset : Int := 0
  endOffset : Int := 0
  endLine : Option Int := none
  endColumn : Option Int := none
  file : Option Text := none
deriving DecidableEq

namespace Location

/-- The location of a span.  The start is clamped to the source, the end to what follows the
start. -/
def ofSpan (source : Text) (start stop : Int) (file : Option Text) : Location :=
  let first := (max 0 (min start source.length)).toNat
  let last := (max (first : Int) (min stop source.length)).toNat
  { line := source.lineAt first
    column := source.columnAt first
    offset := first
    endOffset := last
    endLine := some (source.lineAt last)
    endColumn := some (source.columnAt last)
    file }

def shown (l : Location) : Text :=
  let place := Text.ofInt l.line ++ ":" ++ Text.ofInt l.column
  match l.file with
  | some file => if file.isEmpty then place else file ++ ":" ++ place
  | none => place

end Location

/-! ## Declarations -/

structure Declaration where
  id : Text
  name : Text
  value : Text
  start : Int
  stop : Int
  selector : Text
deriving DecidableEq

namespace Declaration

def defaultSelector : Text := "Global"

/-- The id of a declaration whose name starts at `name` and whose value starts at `value`. -/
def idAt (name value : Int) : Text := Text.ofInt name ++ "-" ++ Text.ofInt value

def location (d : Declaration) (source : Text) (file : Option Text) : Location :=
  .ofSpan source d.start d.stop file

/-- A value as a summary shows it: at most twenty characters, a longer one cut after seventeen. -/
def shortValue (value : Text) : Text :=
  if value.length ≤ 20 then value else value.take 17 ++ "..."

def summary (d : Declaration) : Text :=
  "Declaration(" ++ d.name ++ ", " ++ (shortValue d.value).quoted ++ ", " ++ Text.ofInt d.start
    ++ ":" ++ Text.ofInt d.stop ++ ", " ++ d.selector.quoted ++ ")"

end Declaration

/-! ## Log records -/

namespace Log

/-- The program's name, which is also the channel above all others. -/
def program : Text := "cssvars"

/-- The channel of a name: names under the program's name stay, others are put under it. -/
def channel (name : Text) : Text :=
  if name = program || (program ++ ".").isPrefixOf name then name else program ++ "." ++ name

structure Record where
  channel : Text
  message : Text
deriving DecidableEq

def Record.line (r : Record) : Text := r.channel ++ ": " ++ r.message

/-- The name of a source in messages: its file, or a placeholder when it has none. -/
def sourceName (file : Option Text) : Text :=
  match file with
  | some file => if file.isEmpty then "<string>" else file
  | none => "<string>"

end Log

end CustomProperties
