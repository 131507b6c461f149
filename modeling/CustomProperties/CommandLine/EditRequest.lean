import CustomProperties.Session

/-!
# Requested edits

What a user asks to change: values under property names, from a document and from assignments
`NAME=VALUE`, for all declarations or for those under one selector.  A name may leave out its two
hyphens.  Unless values are to be taken as they are, each keeps the blanks that stood around the
value it replaces.

* `Assignment.readAll`: a list of assignments; of several for one name the last counts.
* `Padding.keep`: a new value between the blanks that stood around the old one.
* `EditRequest.collect`: the values of a document and of assignments under normalized names.
* `EditRequest.apply`: a session with the values proposed, and the names that no declaration has.
-/

namespace CustomProperties

namespace Assignment

structure Malformed where
  item : Text
deriving DecidableEq

def Malformed.message (m : Malformed) : Text := "expected NAME=VALUE, got " ++ m.item.quoted

/-- The name and value of an item: the text before and after its first equals sign. -/
def read (item : Text) : Except Malformed (Text × Text) :=
  let given := item.takeWhile (· ≠ ('=' : CodePoint))
  let name := PropertyName.normalize given
  match item.drop given.length with
  | [] => .error ⟨item⟩
  | _ :: value => if PropertyName.isValid name then .ok (name, value) else .error ⟨item⟩

/-- The values of a list of items; the first malformed one is an error. -/
def readAll (items : List Text) : Except Malformed (Entries Text Text) :=
  (items.mapM read).map Entries.ofPairs

end Assignment

namespace Padding

/-- A value between what stands around the trimmed text of `old`, which is looked for in `old` from
the left; a blank `old` has nothing to stand around. -/
def keep (old value : Text) : Text :=
  let core := old.trim
  if core.isEmpty then value
  else
    let leading := old.take (old.indexOf core)
    let trailing := old.drop (leading.length + core.length)
    leading ++ value.trim ++ trailing

end Padding

/-- New values under property names, and which declarations they are for. -/
structure EditRequest where
  values : Entries Text Text
  selector : Option Text
  raw : Bool

namespace EditRequest

/-- The values of a document under normalized names, then those of the assignments. -/
def collect (document assignments : Entries Text Text) : Entries Text Text :=
  Entries.putAll (Entries.ofPairs (document.map fun (name, value) =>
    (PropertyName.normalize name, value))) assignments

def valueFor (r : EditRequest) (d : Declaration) (value : Text) : Text :=
  if r.raw then value else Padding.keep d.value value

def applyTo (r : EditRequest) (s : Session) (name value : Text) : Session :=
  (s.targets name r.selector).foldl (fun s d => s.put d.id (r.valueFor d value)) s

def apply (r : EditRequest) (s : Session) : Session :=
  r.values.foldl (fun s entry => r.applyTo s entry.1 entry.2) s

/-- The names that no declaration has that the request is for. -/
def unmatched (r : EditRequest) (s : Session) : List Text :=
  (r.values.map (·.1)).filter fun name => (s.targets name r.selector).isEmpty

end EditRequest

end CustomProperties
