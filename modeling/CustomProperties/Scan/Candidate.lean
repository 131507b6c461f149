import CustomProperties.Declaration

/-!
# Candidates

Two hyphens inside a block are a candidate for a declaration.  The name runs up to the first colon
outside quotes; the value runs from there up to the first semicolon or closing brace outside
quotes, parentheses and, if the configuration says so, comments.

Strings stand between single or double quotes.  A quote right after a backslash neither opens nor
closes a string.

* `nameEnd`: where the name ends, or what stands in its way.
* `valueEnd`: the length of the value, if it ends at all.
* `readCandidate`: both, with the reason when the candidate is abandoned.
-/

namespace CustomProperties

structure Config where
  /-- The selector of declarations that stand under an empty one. -/
  fallbackSelector : Text := Declaration.defaultSelector
  /-- Comments inside values are passed over, so that nothing in them ends the value. -/
  skipComments : Bool := false
  /-- Quoted strings are part of a selector. -/
  keepStrings : Bool := false
deriving DecidableEq

inductive Quote
  | single
  | double
deriving DecidableEq

namespace Quote

def char : Quote → CodePoint
  | single => '\''
  | double => '"'

def ofChar? (c : CodePoint) : Option Quote :=
  if c = '\'' then some single else if c = '"' then some double else none

/-- The character before this one is a backslash. -/
def escaped (previous : Option CodePoint) : Bool := previous = some ('\\' : CodePoint)

/-- The quote that stays open after a character, when `current` was open before it. -/
def after (current : Option Quote) (previous : Option CodePoint) (c : CodePoint) : Option Quote :=
  if escaped previous then current
  else match ofChar? c, current with
    | none, _ => current
    | some q, none => some q
    | some q, some p => if q = p then none else some p

end Quote

end CustomProperties

namespace CustomProperties.Scan

def isTerminator (c : CodePoint) : Bool := c = ';' || c = '}'

/-! ## Names -/

/-- How the search for a name's colon ends; the length counts the characters before that place. -/
inductive NameEnd
  | colon (length : Nat)
  | terminator (length : Nat)
  | endOfText
deriving DecidableEq

def NameEnd.back : NameEnd → NameEnd
  | colon length => colon (length + 1)
  | terminator length => terminator (length + 1)
  | endOfText => endOfText

/-- The first colon or terminator outside quotes. -/
def nameEnd (quote : Option Quote) (previous : Option CodePoint) : Text → NameEnd
  | [] => .endOfText
  | c :: rest =>
    if quote = none ∧ c = ':' then .colon 0
    else if quote = none ∧ isTerminator c then .terminator 0
    else (nameEnd (Quote.after quote previous c) (some c) rest).back

/-! ## Values -/

structure ValueState where
  quote : Option Quote := none
  /-- Opening less closing parentheses so far; it may be negative. -/
  depth : Int := 0
  comment : Bool := false
  /-- Characters of a comment's opening or closing mark that are still to pass. -/
  mark : Nat := 0
deriving DecidableEq

namespace ValueState

def isClear (s : ValueState) : Bool :=
  s.quote = none && s.depth = 0 && !s.comment && s.mark = 0

/-- The state after a character; `previous` stands before it and `next` after it. -/
def advance (skipComments : Bool) (s : ValueState) (previous : Option CodePoint) (c : CodePoint)
    (next : Option CodePoint) : ValueState :=
  if 0 < s.mark then { s with mark := s.mark - 1 }
  else if s.comment then
    if c = '*' ∧ next = some ('/' : CodePoint) then { s with comment := false, mark := 1 } else s
  else
    match Quote.after s.quote previous c with
    | some q => { s with quote := some q }
    | none =>
      if skipComments ∧ c = '/' ∧ next = some ('*' : CodePoint) then
        { s with quote := none, comment := true, mark := 1 }
      else if c = '(' then { s with quote := none, depth := s.depth + 1 }
      else if c = ')' then { s with quote := none, depth := s.depth - 1 }
      else { s with quote := none }

end ValueState

/-- The number of characters before the first terminator at which nothing is open. -/
def valueEnd (skipComments : Bool) (s : ValueState) (previous : Option CodePoint) :
    Text → Option Nat
  | [] => none
  | c :: rest =>
    if s.isClear ∧ isTerminator c then some 0
    else (valueEnd skipComments (s.advance skipComments previous c rest.head?) (some c) rest).map
      (· + 1)

/-! ## Candidates -/

inductive Abandonment
  /-- A terminator comes before any colon, at the given distance, or the text ends first. -/
  | noColon (terminator : Option Nat)
  /-- The text before the colon, which stands at the given distance, is no name. -/
  | invalidName (name : Text) (colon : Nat)
  /-- The value runs to the end of the text. -/
  | unterminated (name : Text)
deriving DecidableEq

structure Reading where
  name : Text
  /-- The distance from the candidate's start to its colon. -/
  colon : Nat
  value : Text
deriving DecidableEq

/-- The distance from the candidate's start to the terminator of its value. -/
def Reading.length (r : Reading) : Nat := r.colon + 1 + r.value.length

def readCandidate (config : Config) (t : Text) : Except Abandonment Reading :=
  match nameEnd none none t with
  | .endOfText => .error (.noColon none)
  | .terminator n => .error (.noColon (some n))
  | .colon n =>
    let name := Text.trim (t.take n)
    if PropertyName.isValid name then
      match valueEnd config.skipComments {} (some ':') (t.drop (n + 1)) with
      | some length => .ok { name, colon := n, value := (t.drop (n + 1)).take length }
      | none => .error (.unterminated name)
    else .error (.invalidName name n)

end CustomProperties.Scan
