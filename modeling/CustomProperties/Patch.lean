import CustomProperties.Declaration
import CustomProperties.Entries

/-!
# Patching

Edits put new values under the ids of declarations.  A patch replaces the span of every
declaration whose edit changes it, from the last span to the first, so that the offsets of the
spans still to come stay right.  Everything outside the spans is copied.

* `stableSort`: insertion sort by any test of which of two elements may stand first.  Elements that
  may stand in either order keep the order they came in.
* `Edits.newValue?`: the value that an edit gives a declaration, if it changes it.
* `patch`: the patched text and the number of spans replaced.
* `changes`: the same edits as a list of changes in source order.
-/

namespace CustomProperties

/-! ## Stable sorting -/

section

variable {α : Type}

/-- Puts an element in front of the first element that it may stand before. -/
def insertSorted (le : α → α → Bool) (a : α) : List α → List α
  | [] => [a]
  | b :: rest => if le a b then a :: b :: rest else b :: insertSorted le a rest

def stableSort (le : α → α → Bool) : List α → List α
  | [] => []
  | a :: rest => insertSorted le a (stableSort le rest)

end

/-! ## Edits -/

/-- Proposed values under declaration ids; `none` proposes nothing. -/
abbrev Edits := Entries Text (Option Text)

/-- The new value of a declaration, if its edit gives one that differs from its value. -/
def Edits.newValue? (edits : Edits) (d : Declaration) : Option Text :=
  match (edits.get? d.id).join with
  | some value => if value = d.value then none else some value
  | none => none

structure Change where
  declaration : Declaration
  newValue : Text
deriving DecidableEq

/-- A patched text and the number of spans replaced in it. -/
structure Patched where
  text : Text
  applied : Nat
deriving DecidableEq

def Text.replaceSpan (t : Text) (start stop : Int) (value : Text) : Text :=
  t.upTo start ++ value ++ t.since stop

/-- The declarations with the later starts first; equal starts keep their order. -/
def Declaration.sortDescending (ds : List Declaration) : List Declaration :=
  stableSort (fun a b => b.start ≤ a.start) ds

def Declaration.sortAscending (ds : List Declaration) : List Declaration :=
  stableSort (fun a b => a.start ≤ b.start) ds

def Patched.apply (edits : Edits) (p : Patched) (d : Declaration) : Patched :=
  match edits.newValue? d with
  | some value => ⟨p.text.replaceSpan d.start d.stop value, p.applied + 1⟩
  | none => p

def patch (source : Text) (ds : List Declaration) (edits : Edits) : Patched :=
  (Declaration.sortDescending ds).foldl (Patched.apply edits) ⟨source, 0⟩

def changes (ds : List Declaration) (edits : Edits) : List Change :=
  (Declaration.sortAscending ds).filterMap fun d => (edits.newValue? d).map (⟨d, ·⟩)

def Patched.record (p : Patched) (edits : Edits) : Log.Record :=
  ⟨"cssvars.patcher",
    "Applied " ++ Text.ofNat p.applied ++ " of " ++ Text.ofNat edits.length ++ " edit(s)"⟩

end CustomProperties
