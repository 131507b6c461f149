import CustomProperties.Patch
import CustomProperties.Scan.Basic
import CustomProperties.Text.Casing

/-!
# Editing sessions

A session scans a source once and keeps a proposed value for every declaration, which at first is
the declaration's own.  Setting and resetting values changes the proposals only; rendering patches
them into the source.
-/

namespace CustomProperties

/-- A source, its declarations, and a proposed value under the id of each. -/
structure Session where
  source : Text
  file : Option Text
  declarations : List Declaration
  values : Entries Text Text
deriving DecidableEq

structure UnknownDeclaration where
  id : Text
deriving DecidableEq

def UnknownDeclaration.message (u : UnknownDeclaration) : Text :=
  "Unknown declaration id: " ++ u.id.quoted

namespace Session

def seed (ds : List Declaration) : Entries Text Text :=
  Entries.ofPairs (ds.map fun d => (d.id, d.value))

def start (config : Config) (source : Text) (file : Option Text) : Session :=
  let ds := Scan.scan config source
  { source, file, declarations := ds, values := seed ds }

/-- The declaration with an id.  The ids of a source are all different, so the first declaration
with one is also the last. -/
def find? (s : Session) (id : Text) : Option Declaration := s.declarations.find? (·.id = id)

def lookup (s : Session) (id : Text) : Except UnknownDeclaration Declaration :=
  match s.find? id with
  | some d => .ok d
  | none => .error ⟨id⟩

/-- The proposed value of a declaration.  There always is one under its id: a session starts with
all ids and never drops any. -/
def valueOf (s : Session) (d : Declaration) : Text := (s.values.get? d.id).getD d.value

def proposal (s : Session) (id : Text) : Except UnknownDeclaration Text :=
  (s.lookup id).map s.valueOf

/-- The session with a value put under an id, whatever the id. -/
def put (s : Session) (id value : Text) : Session := { s with values := s.values.put id value }

def propose (s : Session) (id value : Text) : Except UnknownDeclaration Session :=
  (s.lookup id).map fun _ => s.put id value

def isTarget (name : Text) (selector : Option Text) (d : Declaration) : Bool :=
  d.name = name && (selector = none || selector = some d.selector)

def targets (s : Session) (name : Text) (selector : Option Text) : List Declaration :=
  s.declarations.filter (isTarget name selector)

/-- The session with a value proposed for every declaration with a name, and the number of them. -/
def proposeAll (s : Session) (name value : Text) (selector : Option Text) : Session × Nat :=
  let ds := s.targets name selector
  (ds.foldl (fun s d => s.put d.id value) s, ds.length)

def restore (s : Session) (id : Text) : Except UnknownDeclaration Session :=
  (s.lookup id).map fun d => s.put id d.value

def restoreAll (s : Session) : Session := { s with values := seed s.declarations }

def differs (s : Session) (d : Declaration) : Bool := s.valueOf d ≠ d.value

def isChanged (s : Session) (id : Text) : Except UnknownDeclaration Bool :=
  (s.lookup id).map s.differs

def anyChanged (s : Session) : Bool := s.declarations.any s.differs

def edits (s : Session) : Edits := s.values.map fun (id, value) => (id, some value)

def changes (s : Session) : List Change := CustomProperties.changes s.declarations s.edits

def patched (s : Session) : Patched := patch s.source s.declarations s.edits

def render (s : Session) : Text := s.patched.text

/-- The declarations whose name or selector contains a term, letter case aside. -/
def matching (s : Session) (term : Text) : List Declaration :=
  s.declarations.filter fun d =>
    Text.occursIn term.lower d.name.lower || Text.occursIn term.lower d.selector.lower

def summary (s : Session) : Text :=
  "EditSession(" ++ Text.ofNat s.declarations.length ++ " declaration(s), "
    ++ Text.ofNat s.changes.length ++ " change(s))"

end Session

end CustomProperties
