import CustomProperties.Decimal
import CustomProperties.Entries
import CustomProperties.Text.Quoted

/-!
# JSON values

A number without fraction and exponent is an integer of any size; every other number is a double.
The members of an object keep their order.

* `Json.kind`, `Json.shown`: the word for a value's kind in messages, and the value itself.
* `Json.render`: the text of a value, in ASCII.  A layout is either one line, with a space after
  every comma and colon, or one item a line, indented by a number of spaces for every level.
-/

namespace CustomProperties

inductive Json
  | null
  | bool (b : Bool)
  | int (i : Int)
  | real (x : Double)
  | str (t : Text)
  | arr (items : List Json)
  | obj (members : List (Text × Json))

namespace Json

def kind : Json → Text
  | null => "NoneType"
  | bool _ => "bool"
  | int _ => "int"
  | real _ => "float"
  | str _ => "str"
  | arr _ => "list"
  | obj _ => "dict"

mutual

def shown : Json → Text
  | null => "None"
  | bool true => "True"
  | bool false => "False"
  | int i => Text.ofInt i
  | real x => x.text "inf" "nan"
  | str t => t.quoted
  | arr items => "[" ++ Text.joinWith ", " (shownItems items) ++ "]"
  | obj members => "\x7b" ++ Text.joinWith ", " (shownMembers members) ++ "\x7d"

def shownItems : List Json → List Text
  | [] => []
  | item :: items => shown item :: shownItems items

def shownMembers : List (Text × Json) → List Text
  | [] => []
  | (name, value) :: members => (name.quoted ++ ": " ++ shown value) :: shownMembers members

end

def member? (name : Text) : Json → Option Json
  | obj members => Entries.get? members name
  | _ => none

/-! ## Writing -/

/-- How the items of arrays and objects are set. -/
inductive Layout
  | oneLine
  | indented (width : Nat)
deriving DecidableEq

/-- The layout for an optional indent: none is one line, and an indent below zero counts as zero. -/
def Layout.ofIndent : Option Int → Layout
  | none => oneLine
  | some width => indented width.toNat

/-- The two surrogates that stand for a code point past U+FFFF. -/
def surrogatePair (c : CodePoint) : Nat × Nat :=
  (0xD800 + (c.val - 0x10000) / 0x400, 0xDC00 + (c.val - 0x10000) % 0x400)

def writeChar (c : CodePoint) : Text :=
  if c = '"' then "\\\""
  else if c = '\\' then "\\\\"
  else if c = '\n' then "\\n"
  else if c = '\r' then "\\r"
  else if c = '\t' then "\\t"
  else if c.val = 0x8 then "\\b"
  else if c.val = 0xC then "\\f"
  else if 0x20 ≤ c.val ∧ c.val ≤ 0x7E then [c]
  else if c.val < 0x10000 then "\\u" ++ Text.hex 4 c.val
  else "\\u" ++ Text.hex 4 (surrogatePair c).1 ++ ("\\u" ++ Text.hex 4 (surrogatePair c).2)

def writeString (t : Text) : Text := "\"" ++ t.flatMap writeChar ++ "\""

/-- What stands before an item at a level: nothing on one line, else a line feed and the indent. -/
def Layout.lineBreak (layout : Layout) (level : Nat) : Text :=
  match layout with
  | oneLine => []
  | indented width => ('\n' : CodePoint) :: List.replicate (width * level) ' '

def Layout.separator (layout : Layout) (level : Nat) : Text :=
  match layout with
  | oneLine => ", "
  | indented _ => "," ++ layout.lineBreak level

/-- Written items between an opening and a closing bracket, at the level above the items. -/
def enclose (layout : Layout) (level : Nat) (opening closing : Text) (items : List Text) : Text :=
  if items.isEmpty then opening ++ closing
  else opening ++ layout.lineBreak (level + 1)
    ++ Text.joinWith (layout.separator (level + 1)) items ++ layout.lineBreak level ++ closing

mutual

def write (layout : Layout) (level : Nat) : Json → Text
  | null => "null"
  | bool true => "true"
  | bool false => "false"
  | int i => Text.ofInt i
  | real x => x.text "Infinity" "NaN"
  | str t => writeString t
  | arr items => enclose layout level "[" "]" (writeItems layout (level + 1) items)
  | obj members => enclose layout level "\x7b" "\x7d" (writeMembers layout (level + 1) members)

def writeItems (layout : Layout) (level : Nat) : List Json → List Text
  | [] => []
  | item :: items => write layout level item :: writeItems layout level items

def writeMembers (layout : Layout) (level : Nat) : List (Text × Json) → List Text
  | [] => []
  | (name, value) :: members =>
    (writeString name ++ ": " ++ write layout level value) :: writeMembers layout level members

end

def render (layout : Layout) (value : Json) : Text := write layout 0 value

end Json

end CustomProperties
