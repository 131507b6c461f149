import CustomProperties.Declaration
import CustomProperties.Json.Reader

/-!
# Declarations as JSON

A declaration is written as an object with its members in alphabetical order, marked by the member
`_type`.  Reading takes members in any order, ignores others, and may leave out the selector.

Records whose fields are of the wrong kind are outside the program: it checks that the members are
there and takes their values as they come.  A `Declaration` has typed fields, so here such a record
is refused (`RecordError.badField`), and nothing is claimed of it.
-/

namespace CustomProperties

inductive RecordError
  | badJson (complaint : Json.Complaint)
  | notArray (value : Json)
  | notObject (value : Json)
  | noType
  | unknownType (value : Json)
  /-- Fields that a declaration must have; at least one. -/
  | missingFields (first : Text) (others : List Text)
  | badField (name : Text)

namespace RecordError

/-- Words in quotes as a list: with `and` before the last, and commas when there are more than
two. -/
def enumerate (first : Text) (others : List Text) : Text :=
  match others with
  | [] => first.quoted
  | [second] => first.quoted ++ " and " ++ second.quoted
  | _ =>
    let words := (first :: others).map Text.quoted
    Text.joinWith ", " words.dropLast ++ ", and " ++ words.getLastD []

def message : RecordError → Text
  | badJson complaint => complaint.message
  | notArray value => "Expected a JSON array, got " ++ value.kind
  | notObject value => "'" ++ value.kind ++ "' object has no attribute 'get'"
  | noType => "Missing '_type' field in serialized declaration"
  | unknownType value => "Unknown record type: " ++ value.shown
  | missingFields first others =>
    "Declaration.__init__() missing " ++ Text.ofNat (others.length + 1)
      ++ " required positional argument" ++ (if others.isEmpty then "" else "s") ++ ": "
      ++ enumerate first others
  | badField name => "Declaration field " ++ name.quoted ++ " has the wrong type"

end RecordError

namespace Declaration

/-! ## Writing -/

def toJson (d : Declaration) : Json :=
  .obj [("_type", .str "Declaration"), ("end_index", .int d.stop), ("id", .str d.id),
    ("name", .str d.name), ("selector", .str d.selector), ("start_index", .int d.start),
    ("value", .str d.value)]

def listToJson (ds : List Declaration) (layout : Json.Layout) : Text :=
  (Json.arr (ds.map toJson)).render layout

/-! ## Reading -/

/-- The members that a declaration must have, in the order in which messages name them. -/
def requiredFields : List Text := ["id", "name", "value", "start_index", "end_index"]

def textField (members : Entries Text Json) (name : Text) : Except RecordError Text :=
  match members.get? name with
  | some (.str t) => .ok t
  | _ => .error (.badField name)

def intField (members : Entries Text Json) (name : Text) : Except RecordError Int :=
  match members.get? name with
  | some (.int i) => .ok i
  | _ => .error (.badField name)

def selectorField (members : Entries Text Json) : Except RecordError Text :=
  match members.get? "selector" with
  | none => .ok defaultSelector
  | some _ => textField members "selector"

def checkType (members : Entries Text Json) : Except RecordError Unit :=
  match members.get? "_type" with
  | none | some .null => .error .noType
  | some (.str t) => if t = "Declaration" then .ok () else .error (.unknownType (.str t))
  | some value => .error (.unknownType value)

def checkFields (members : Entries Text Json) : Except RecordError Unit :=
  match requiredFields.filter fun name => (members.get? name).isNone with
  | [] => .ok ()
  | first :: others => .error (.missingFields first others)

def ofMembers (members : Entries Text Json) : Except RecordError Declaration := do
  checkType members
  checkFields members
  let id ← textField members "id"
  let name ← textField members "name"
  let value ← textField members "value"
  let start ← intField members "start_index"
  let stop ← intField members "end_index"
  let selector ← selectorField members
  return { id, name, value, start, stop, selector }

def ofJson : Json → Except RecordError Declaration
  | .obj members => ofMembers members
  | value => .error (.notObject value)

def listOfJson (limits : Json.Limits) (t : Text) :
    Except (Json.Failure RecordError) (List Declaration) :=
  match Json.parse limits t with
  | .error failure => .error (failure.map .badJson)
  | .ok (.arr items) => (items.mapM ofJson).mapError .refused
  | .ok value => .error (.refused (.notArray value))

end Declaration

end CustomProperties
