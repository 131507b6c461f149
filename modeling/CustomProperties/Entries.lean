/-!
# Ordered entries

A list of key and value pairs in the order in which the keys were first put in.  Putting a value
under a key that is already there keeps the key's place.
-/

namespace CustomProperties

/-- Values under keys, in the order in which the keys were first put in. -/
abbrev Entries (κ α : Type) := List (κ × α)

namespace Entries

variable {κ α : Type} [DecidableEq κ]

def get? : (entries : Entries κ α) → (key : κ) → Option α
  | [], _ => none
  | (k, a) :: rest, key => if k = key then some a else get? rest key

def put : (entries : Entries κ α) → (key : κ) → (value : α) → Entries κ α
  | [], key, value => [(key, value)]
  | (k, a) :: rest, key, value =>
    if k = key then (k, value) :: rest else (k, a) :: put rest key value

def putAll (entries : Entries κ α) (pairs : List (κ × α)) : Entries κ α :=
  pairs.foldl (fun entries pair => entries.put pair.1 pair.2) entries

/-- The entries that a list of pairs makes: each key at its first place with its last value. -/
def ofPairs (pairs : List (κ × α)) : Entries κ α := putAll [] pairs

end Entries

end CustomProperties
