import CustomProperties.Scan.Candidate

/-!
# Scanning a stylesheet

The scan walks over the source once, character by character, and keeps a small state: whether it
stands in a comment or a string, how many braces are open, the text since the last brace at top
level, and the selector of the block it is in.  Two hyphens inside a block are a candidate; a
candidate that is a declaration is passed over as a whole, and an abandoned one is passed over by
a single character.

* `State.step`: what happens at one place.
* `walk`: the whole source, from any state.
* `Trace`: the state at the end and every candidate in the order it was met.
* `scan`: the declarations of a source.
* `Scoped`: a computation that scans under an active configuration and may change it.  A scope puts
  a configuration in place for its body and brings back the one before, whether the body ends or
  fails.
-/

namespace CustomProperties.Scan

inductive Mode
  | normal
  | comment
  | string (quote : Quote)
deriving DecidableEq

structure State where
  mode : Mode := .normal
  /-- The number of open braces. -/
  depth : Nat := 0
  /-- The text since the last brace, outside every block. -/
  prelude : Text := []
  /-- The selector of the outermost open block. -/
  selector : Text := []
deriving DecidableEq

inductive Event
  | found (offset : Nat) (declaration : Declaration)
  | abandoned (offset : Nat) (cause : Abandonment)
deriving DecidableEq

/-- What one place of the source brings about: the next state, how many of the following
characters are passed over, and the candidate that was met. -/
structure Step where
  state : State
  skip : Nat := 0
  event : Option Event := none
deriving DecidableEq

namespace State

/-- A character of a string: part of the prelude if selectors keep their strings. -/
def keepQuoted (config : Config) (s : State) (c : CodePoint) : State :=
  if s.depth = 0 ∧ config.keepStrings then { s with prelude := s.prelude ++ [c] } else s

/-- A brace opens a block; the outermost one takes the prelude for its selector. -/
def openBlock (s : State) : State :=
  { s with
    selector := if s.depth = 0 then s.prelude.trim else s.selector
    prelude := []
    depth := s.depth + 1 }

/-- A brace closes a block; one that closes nothing only ends the prelude. -/
def closeBlock (s : State) : State :=
  { s with
    selector := if s.depth = 1 then [] else s.selector
    prelude := []
    depth := s.depth - 1 }

def declare (config : Config) (s : State) (offset : Nat) (r : Reading) : Declaration :=
  let start := offset + r.colon + 1
  { id := Declaration.idAt offset start
    name := r.name
    value := r.value
    start := start
    stop := (start + r.value.length : Nat)
    selector := if s.selector.isEmpty then config.fallbackSelector else s.selector }

/-- A candidate at `offset`, where `t` is the text from there on.  A semicolon at its end is
passed over with it, a closing brace is not. -/
def candidate (config : Config) (s : State) (offset : Nat) (t : Text) : Step :=
  match readCandidate config t with
  | .error cause => { state := s, event := some (.abandoned offset cause) }
  | .ok r =>
    { state := s
      skip := if t[r.length]? = some ('}' : CodePoint) then r.length - 1 else r.length
      event := some (.found offset (s.declare config offset r)) }

def step (config : Config) (s : State) (offset : Nat) (previous : Option CodePoint) (c : CodePoint)
    (rest : Text) : Step :=
  match s.mode with
  | .comment =>
    if c = '*' ∧ rest.head? = some ('/' : CodePoint) then
      { state := { s with mode := .normal }, skip := 1 }
    else { state := s }
  | .string q =>
    if c = q.char ∧ ¬ Quote.escaped previous then
      { state := { s with mode := .normal }.keepQuoted config c }
    else { state := s.keepQuoted config c }
  | .normal =>
    if c = '/' ∧ rest.head? = some ('*' : CodePoint) then
      { state := { s with mode := .comment }, skip := 1 }
    else match if Quote.escaped previous then none else Quote.ofChar? c with
      | some q => { state := { s with mode := .string q }.keepQuoted config c }
      | none =>
        if c = '{' then { state := s.openBlock }
        else if c = '}' then { state := s.closeBlock }
        else if s.depth = 0 then { state := { s with prelude := s.prelude ++ [c] } }
        else if c = '-' ∧ rest.head? = some ('-' : CodePoint) then
          s.candidate config offset (c :: rest)
        else { state := s }

end State

/-- How a walk over a source went: the state at its end, and the candidates in the order met. -/
structure Trace where
  state : State
  events : List Event
deriving DecidableEq

def Trace.after (trace : Trace) (event : Option Event) : Trace :=
  { trace with events := event.toList ++ trace.events }

/-- The walk over the text from `offset` on, whose first `skip` characters are passed over. -/
def walk (config : Config) :
    (skip : Nat) → State → (offset : Nat) → (previous : Option CodePoint) → Text → Trace
  | _, s, _, _, [] => ⟨s, []⟩
  | skip + 1, s, offset, _, c :: rest => walk config skip s (offset + 1) (some c) rest
  | 0, s, offset, previous, c :: rest =>
    let step := s.step config offset previous c rest
    (walk config step.skip step.state (offset + 1) (some c) rest).after step.event

def walkFrom (config : Config) (s : State) (source : Text) : Trace := walk config 0 s 0 none source

/-! ## Results -/

def Event.declaration? : Event → Option Declaration
  | found _ d => some d
  | abandoned _ _ => none

def Trace.declarations (trace : Trace) : List Declaration :=
  trace.events.filterMap Event.declaration?

def trace (config : Config) (source : Text) : Trace := walkFrom config {} source

/-- The declarations of a source, in source order. -/
def scan (config : Config) (source : Text) : List Declaration := (trace config source).declarations

/-- The declarations of each of several scans of one source, where every scan goes on from the
state in which the one before it ended. -/
def scanRepeatedly (config : Config) (source : Text) :
    (times : Nat) → State → List (List Declaration)
  | 0, _ => []
  | times + 1, s =>
    let trace := walkFrom config s source
    trace.declarations :: scanRepeatedly config source times trace.state

/-! ## Log -/

def Abandonment.message (offset : Nat) : Abandonment → Text
  | noColon _ =>
    "Abandoned candidate at " ++ Text.ofNat offset ++ ": no colon before terminator"
  | invalidName name _ =>
    "Abandoned candidate at " ++ Text.ofNat offset ++ ": invalid name " ++ name.quoted
  | unterminated name =>
    "Abandoned " ++ name ++ " at " ++ Text.ofNat offset ++ ": value has no terminator"

def Event.record? : Event → Option Log.Record
  | found _ _ => none
  | abandoned offset cause => some ⟨"cssvars.scanner.declaration", cause.message offset⟩

/-- The log of a walk: the abandoned candidates, then the number of declarations. -/
def Trace.log (trace : Trace) (file : Option Text) : List Log.Record :=
  trace.events.filterMap Event.record?
    ++ [⟨"cssvars.scanner.core", "Scanned " ++ Text.ofNat trace.declarations.length
        ++ " declaration(s) from " ++ Log.sourceName file⟩]

/-! ## The active configuration -/

/-- A computation under an active configuration that may fail with an `ε`. -/
abbrev Scoped (ε α : Type) := ExceptT ε (StateM Config) α

namespace Scoped

variable {ε α : Type}

def active : Scoped ε Config := get

def activate (config : Config) : Scoped ε Unit := set config

def reset : Scoped ε Unit := activate {}

def scan (source : Text) : Scoped ε (List Declaration) := return Scan.scan (← active) source

def within (config : Config) (body : Scoped ε α) : Scoped ε α :=
  fun saved => ((body config).1, saved)

end Scoped

end CustomProperties.Scan
