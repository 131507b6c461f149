import CustomProperties.Json.Reader
import CustomProperties.Text.Utf8

/-!
# Edit documents

An edit document is a JSON object from property names to new values.  The object may stand under a
member `edits` of an outer object, whose other members are ignored.

* `EditDocument.read`: the edits of a document, in its order.
* `EditError`: why there are none, with the wording of each reason.  A document beyond a limit of
  the JSON reader has no such reason: the reader's own failure goes through to whoever asked.
-/

namespace CustomProperties

inductive EditError
  | badJson (complaint : Json.Complaint)
  | notObject (value : Json)
  | notText (name : Text) (value : Json)
  | notUtf8 (reason : Utf8.Refusal)
  | unreadable (reason : Text)

namespace EditError

def message : EditError → Text
  | badJson complaint => "Invalid JSON: " ++ complaint.message
  | notObject value => "Expected a JSON object, got " ++ value.kind
  | notText name value => "Value for " ++ name.quoted ++ " must be a string, got " ++ value.kind
  | notUtf8 reason => "Not valid UTF-8: " ++ reason.message
  | unreadable reason => "Cannot read file: " ++ reason

/-- A message about a file: the file's name, if it has one, goes in front. -/
def about (file : Option Text) (message : Text) : Text :=
  match file with
  | some file => if file.isEmpty then message else file ++ ": " ++ message
  | none => message

end EditError

namespace EditDocument

/-- The value whose members are the edits: the member `edits` if it is an object, else the whole. -/
def body (value : Json) : Json :=
  match value.member? "edits" with
  | some (.obj members) => .obj members
  | _ => value

/-- The members of an object as texts; the first one that is none is an error. -/
def texts : List (Text × Json) → Except EditError (List (Text × Text))
  | [] => .ok []
  | (name, .str t) :: members => (texts members).map ((name, t) :: ·)
  | (name, value) :: _ => .error (.notText name value)

def ofJson (value : Json) : Except EditError (Entries Text Text) :=
  match body value with
  | .obj members => texts members
  | other => .error (.notObject other)

def read (limits : Json.Limits) (t : Text) :
    Except (Json.Failure EditError) (Entries Text Text) :=
  match Json.parse limits t with
  | .error failure => .error (failure.map .badJson)
  | .ok value => (ofJson value).mapError .refused

end EditDocument

end CustomProperties
