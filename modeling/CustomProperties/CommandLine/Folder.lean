import CustomProperties.Entries
import CustomProperties.Text.Utf8

/-!
# Paths and folders

A path is a text whose parts stand between slashes, and to the system it is a sequence of bytes.
Bytes that are no UTF-8 are kept in the text as surrogates from U+DC80 to U+DCFF, one for each byte.

A folder holds the files that a command can see, under their places.  A place is the list of names
that lead to it from the working folder; a path that starts with a slash leads down from the root.
A path is followed part by part, and every part but the last must lead to a folder.

* `FilePath.bytes`, `FilePath.ofBytes`: the bytes of a path and the text of bytes.
* `FilePath.flaw?`: why the system cannot be asked for a path at all.
* `FilePath.steps`: the names that lead to the end of a path.
* `Folder.kind`, `Folder.read`: what a path leads to, and the bytes of a file.
* `Folder.create`: the folder after a file has been opened for writing, which empties it.
* `Folder.fill`: the folder after bytes have been written to an opened file.
-/

namespace CustomProperties

/-! ## Paths -/

namespace FilePath

/-! ### Bytes -/

/-- A surrogate that stands for a byte from 80 to FF. -/
def standsForByte (c : CodePoint) : Bool := 0xDC80 ≤ c.val && c.val ≤ 0xDCFF

def bytes (path : Text) : List UInt8 :=
  path.flatMap fun c => if standsForByte c then [.ofNat (c.val - 0xDC00)] else Utf8.encodeChar c

def ofBytes (bytes : List UInt8) : Text :=
  Utf8.decodeMending (·.map fun b => .ofNat (0xDC00 + b.toNat)) bytes

/-- A path as messages show it: bytes that are no UTF-8 become the replacement character. -/
def shown (path : Text) : Text := Utf8.decodeMending (fun _ => [.ofNat 0xFFFD]) (bytes path)

inductive Flaw
  | unencodable (place : Utf8.Unencodable)
  | nullByte
deriving DecidableEq

/-- What keeps a path from the system: a surrogate that stands for no byte, or else a null byte. -/
def flaw? (path : Text) : Option Flaw :=
  match Utf8.surrogates? (fun c => c.isSurrogate && !standsForByte c) path with
  | some place => some (.unencodable place)
  | none => if path.any (·.val = 0) then some .nullByte else none

/-! ### Limits -/

def isLongName (name : Text) : Bool := 255 < (bytes name).length

def isLong (path : Text) : Bool := 4095 < (bytes path).length

/-! ### Parts -/

def split : Text → List Text
  | [] => [[]]
  | c :: rest =>
    match split rest with
    | [] => [[c]]
    | part :: parts => if c = '/' then [] :: part :: parts else (c :: part) :: parts

/-- The steps of a path: its parts without the empty ones. -/
def steps (path : Text) : List Text := (split path).filter (· ≠ [])

def isAbsolute (path : Text) : Bool := path.head? = some ('/' : CodePoint)

/-- A path that asks for a folder, by a slash at its end. -/
def asksForFolder (path : Text) : Bool := path.getLast? = some ('/' : CodePoint)

/-- The step that stays where it is. -/
def here : Text := "."

def name (path : Text) : Text := (((steps path).filter (· ≠ here)).getLast?).getD []

end FilePath

/-! ## Folders -/

inductive FolderItem
  | file (bytes : List UInt8)
  | directory
  /-- A file that opens and then fails to be read or written. -/
  | unreadable
deriving DecidableEq

/-- Items under their places. -/
abbrev Folder := Entries (List Text) FolderItem

inductive PathFault
  | missing
  | notDirectory
  | isDirectory
  | tooLong
deriving DecidableEq

namespace PathFault

def number : PathFault → Nat
  | missing => 2
  | notDirectory => 20
  | isDirectory => 21
  | tooLong => 36

def reason : PathFault → Text
  | missing => "No such file or directory"
  | notDirectory => "Not a directory"
  | isDirectory => "Is a directory"
  | tooLong => "File name too long"

end PathFault

namespace Folder

inductive Kind
  | absent
  | file
  | directory
deriving DecidableEq

def root : List Text := ["/"]

/-- A place that is a folder in any case: the working folder, one above it, or the root. -/
def isGround (place : List Text) : Bool := place = root || place.all (· = "..")

/-- What stands at a place.  A folder need not be listed itself when something inside it is. -/
def kindAt (folder : Folder) (place : List Text) : Kind :=
  match folder.get? place with
  | some .directory => .directory
  | some _ => .file
  | none => if isGround place || folder.any (place.isPrefixOf ·.1) then .directory else .absent

/-- The place one step on: a point stays, two points go up, and any other name goes down. -/
def down (place : List Text) (part : Text) : List Text :=
  if part = FilePath.here then place
  else if part = ".." then
    if place = root then root
    else if place.all (· = "..") then place ++ [part]
    else place.dropLast
  else place ++ [part]

def follow (folder : Folder) : (place : List Text) → List Text → Except PathFault (List Text)
  | place, [] => .ok place
  | place, part :: parts =>
    match folder.kindAt place with
    | .directory =>
      if FilePath.isLongName part then .error .tooLong else follow folder (down place part) parts
    | .file => .error .notDirectory
    | .absent => .error .missing

/-- The place at the end of steps that a path is turned into.  Paths with the same bytes lead to
the same place. -/
def followPath (folder : Folder) (path : Text) (turn : List Text → List Text) :
    Except PathFault (List Text) :=
  if path.isEmpty then .error .missing
  else if FilePath.isLong path then .error .tooLong
  else
    folder.follow (if FilePath.isAbsolute path then root else [])
      (turn (FilePath.steps (FilePath.ofBytes (FilePath.bytes path))))

/-- The place that a path leads to.  A slash at its end is one more step, on the spot. -/
def locate (folder : Folder) (path : Text) : Except PathFault (List Text) :=
  folder.followPath path fun steps =>
    if FilePath.asksForFolder path then steps ++ [FilePath.here] else steps

def kind (folder : Folder) (path : Text) : Kind :=
  match folder.locate path with
  | .ok place => folder.kindAt place
  | .error _ => .absent

/-- The system's wording for a file that opens and then fails. -/
def deviceFault : Text := "Input/output error"

def read (folder : Folder) (path : Text) : Except Text (List UInt8) :=
  match folder.locate path with
  | .error fault => .error fault.reason
  | .ok place =>
    match folder.get? place with
    | some (.file bytes) => .ok bytes
    | some .unreadable => .error deviceFault
    | some .directory => .error PathFault.isDirectory.reason
    | none => .error PathFault.missing.reason

/-- The place of a file to be written.  A path that asks for a folder is refused as one as soon as
the folder above it is found, whatever lies at its end. -/
def locateTarget (folder : Folder) (path : Text) : Except PathFault (List Text) := do
  if FilePath.asksForFolder path then
    let _ ← folder.followPath path fun steps => steps.dropLast ++ [FilePath.here]
    throw .isDirectory
  else
    let place ← folder.followPath path id
    if folder.kindAt place = .directory then throw .isDirectory else return place

/-- The place of a file opened for writing, and the folder in which it is empty. -/
def create (folder : Folder) (path : Text) : Except PathFault (List Text × Folder) := do
  let place ← folder.locateTarget path
  if folder.get? place = some .unreadable then return (place, folder)
  else return (place, folder.put place (.file []))

def fill (folder : Folder) (place : List Text) (bytes : List UInt8) : Option Folder :=
  if bytes.isEmpty then some folder
  else if folder.get? place = some .unreadable then none
  else some (folder.put place (.file bytes))

end Folder

end CustomProperties
