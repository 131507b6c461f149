import CustomProperties.Json.Basic

/-!
# Reading JSON

The value of a JSON text, or the first fault in it with its line and column, or the first place
where it goes beyond what the runtime can take: integers have a limited number of digits, and
brackets can be nested only as deep as the call stack allows (`Limits`).  A text beyond a limit may
well be JSON, so this is an outcome of its own (`Failure`), and callers that deal with faults need
not deal with it.

Each reader takes the text from where it stands and gives what it read together with the rest.  A
fault carries the text from the place of the fault on, so that readers need not count;
`Json.parse` turns it into a place of the whole text.

* Beyond the standard, `NaN`, `Infinity` and `-Infinity` are numbers, and lone surrogate escapes
  are kept.
* A name given twice keeps its first place and takes its last value.
* `readValue` ends by a budget that twice the length of the text always covers: an array or object
  spends one on itself and one on every item, and each item takes at least a character of text.
-/

namespace CustomProperties.Json

/-! ## Outcomes -/

/-- How far a reader goes.  Nothing is too long or too deep for a limit that is not set. -/
structure Limits where
  /-- The most digits that an integer may have. -/
  digits : Option Nat := none
  /-- The most brackets that may be open at once. -/
  depth : Option Nat := none
deriving DecidableEq

/-- The limits of a run whose call stack has room for `depth` brackets. -/
def Limits.standard (depth : Nat) : Limits := { digits := some 4300, depth := some depth }

/-- The limits inside one more bracket, if it may be opened. -/
def Limits.inner? (limits : Limits) : Option Limits :=
  match limits.depth with
  | none => some limits
  | some 0 => none
  | some (depth + 1) => some { limits with depth := some depth }

inductive Excess
  | digits (limit count : Nat)
  | depth (inObject : Bool)
deriving DecidableEq

def Excess.message : Excess → Text
  | digits limit count =>
    "Exceeds the limit (" ++ Text.ofNat limit
      ++ " digits) for integer string conversion: value has " ++ Text.ofNat count
      ++ " digits; use sys.set_int_max_str_digits() to increase the limit"
  | depth inObject =>
    "maximum recursion depth exceeded while decoding a JSON "
      ++ (if inObject then "object" else "array") ++ " from a unicode string"

/-- Why nothing comes of a text: it is refused for a reason, or it goes beyond a limit. -/
inductive Failure (ε : Type)
  | refused (reason : ε)
  | excess (e : Excess)
deriving DecidableEq

def Failure.map {ε δ : Type} (f : ε → δ) : Failure ε → Failure δ
  | refused reason => refused (f reason)
  | excess e => excess e

inductive FaultKind
  | byteOrderMark
  | noValue
  | noName
  | noColon
  | noComma
  | unterminated
  | controlCharacter
  | badEscape
  | badUnicodeEscape
  | extraData
deriving DecidableEq

def FaultKind.message : FaultKind → Text
  | byteOrderMark => "Unexpected UTF-8 BOM (decode using utf-8-sig)"
  | noValue => "Expecting value"
  | noName => "Expecting property name enclosed in double quotes"
  | noColon => "Expecting ':' delimiter"
  | noComma => "Expecting ',' delimiter"
  | unterminated => "Unterminated string starting at"
  | controlCharacter => "Invalid control character at"
  | badEscape => "Invalid \\escape"
  | badUnicodeEscape => "Invalid \\uXXXX escape"
  | extraData => "Extra data"

/-- A fault and the text from its place on. -/
structure Fault where
  kind : FaultKind
  rest : Text

/-- What a reader gives: what it read and the text after it, or an error. -/
abbrev Outcome (ε α : Type) := Except ε (α × Text)

def isSpace (c : CodePoint) : Bool := c = ' ' || c = '\t' || c = '\n' || c = '\r'

def skipSpaces (t : Text) : Text := t.dropWhile isSpace

/-! ## Strings -/

/-- A character of a string as it was written: itself, or the number of a `\u` escape. -/
inductive Written
  | plain (c : CodePoint)
  | escaped (n : Nat)

def letterEscape? (c : CodePoint) : Option CodePoint :=
  if c = '"' ∨ c = '\\' ∨ c = '/' then some c
  else if c = 'b' then some (.ofNat 0x8)
  else if c = 'f' then some (.ofNat 0xC)
  else if c = 'n' then some '\n'
  else if c = 'r' then some '\r'
  else if c = 't' then some '\t'
  else none

def fourDigits? (a b c d : CodePoint) : Option Nat := do
  let a ← Text.hexDigit? a
  let b ← Text.hexDigit? b
  let c ← Text.hexDigit? c
  let d ← Text.hexDigit? d
  return ((a * 16 + b) * 16 + c) * 16 + d

def pushWritten (w : Written) : Outcome Fault (List Written) → Outcome Fault (List Written)
  | .ok (ws, rest) => .ok (w :: ws, rest)
  | .error fault => .error fault

/-- The characters of a string up to its closing quote.  `start` is the text from the opening
quote on. The digits of a `\u` escape must be followed by at least one more character. -/
def readChars (start : Text) : Text → Outcome Fault (List Written)
  | [] => .error ⟨.unterminated, start⟩
  | c :: rest =>
    if c = '"' then .ok ([], rest)
    else if c = '\\' then
      match rest with
      | [] => .error ⟨.unterminated, start⟩
      | e :: after =>
        if e = 'u' then
          match after with
          | p :: q :: r :: s :: tail =>
            if tail.isEmpty then .error ⟨.badUnicodeEscape, rest⟩
            else match fourDigits? p q r s with
              | some n => pushWritten (.escaped n) (readChars start tail)
              | none => .error ⟨.badUnicodeEscape, rest⟩
          | _ => .error ⟨.badUnicodeEscape, rest⟩
        else match letterEscape? e with
          | some d => pushWritten (.plain d) (readChars start after)
          | none => .error ⟨.badEscape, c :: rest⟩
    else if c.val < 0x20 then .error ⟨.controlCharacter, c :: rest⟩
    else pushWritten (.plain c) (readChars start rest)

def joinPair (high low : Nat) : CodePoint :=
  .ofNat (0x10000 + (high - 0xD800) * 0x400 + (low - 0xDC00))

/-- The text of a string's characters: the escapes of a high and a low surrogate next to each
other make one code point. -/
def joinEscapes : List Written → Text
  | [] => []
  | .plain c :: ws => c :: joinEscapes ws
  | [.escaped n] => [.ofNat n]
  | .escaped n :: .plain c :: ws => .ofNat n :: c :: joinEscapes ws
  | .escaped n :: .escaped m :: ws =>
    if 0xD800 ≤ n ∧ n ≤ 0xDBFF ∧ 0xDC00 ≤ m ∧ m ≤ 0xDFFF then joinPair n m :: joinEscapes ws
    else .ofNat n :: joinEscapes (.escaped m :: ws)

def readString (start rest : Text) : Outcome Fault Text :=
  (readChars start rest).map fun read => (joinEscapes read.1, read.2)

/-! ## Numbers -/

/-- The length of a fraction: a point and at least one digit. -/
def fractionLength : Text → Nat
  | [] => 0
  | c :: rest =>
    let digits := rest.takeWhile CodePoint.isDigit
    if c = '.' ∧ digits ≠ [] then digits.length + 1 else 0

def signLength : Text → Nat
  | [] => 0
  | c :: _ => if c = '+' ∨ c = '-' then 1 else 0

/-- The length of an exponent: its letter, an optional sign and at least one digit. -/
def exponentLength : Text → Nat
  | [] => 0
  | c :: rest =>
    let digits := (rest.drop (signLength rest)).takeWhile CodePoint.isDigit
    if (c = 'e' ∨ c = 'E') ∧ digits ≠ [] then digits.length + signLength rest + 1 else 0

/-- The digits of a number's integer part: a zero alone, or a run that does not start with one. -/
def integerDigits : Text → Text
  | [] => []
  | c :: rest => if c = '0' then [c] else (c :: rest).takeWhile CodePoint.isDigit

def signed (negative : Bool) (n : Nat) : Int := if negative then -(n : Int) else n

def exponentValue (t : Text) : Int :=
  let body := t.drop 1
  signed (body.head? = some ('-' : CodePoint)) (Text.readDecimal (body.drop (signLength body)))

/-- A number as it is written: the fraction with its point, the exponent with its letter. -/
structure Numeral where
  negative : Bool
  digits : Text
  fraction : Text
  exponent : Text
deriving DecidableEq

/-- A number, as long as the text allows. -/
def readNumeral? (t : Text) : Option (Numeral × Text) :=
  let negative := t.head? = some ('-' : CodePoint)
  let body := if negative then t.drop 1 else t
  let digits := integerDigits body
  if digits.isEmpty then none
  else
    let afterDigits := body.drop digits.length
    let fraction := afterDigits.take (fractionLength afterDigits)
    let afterFraction := afterDigits.drop fraction.length
    let exponent := afterFraction.take (exponentLength afterFraction)
    some (⟨negative, digits, fraction, exponent⟩, afterFraction.drop exponent.length)

namespace Numeral

def isInteger (n : Numeral) : Bool := n.fraction.isEmpty && n.exponent.isEmpty

def value (n : Numeral) : Json :=
  if n.isInteger then .int (signed n.negative (Text.readDecimal n.digits))
  else
    let places := n.fraction.drop 1
    let size : Decimal :=
      ⟨Text.readDecimal (n.digits ++ places), exponentValue n.exponent - places.length⟩
    .real (.ofDecimal n.negative size)

/-- The limit on digits is for integers alone; doubles are read from any number of them. -/
def excess? (limits : Limits) (n : Numeral) : Option Excess :=
  match limits.digits with
  | none => none
  | some limit =>
    if n.isInteger ∧ limit < n.digits.length then some (.digits limit n.digits.length) else none

end Numeral

/-! ## Values -/

def words : List (Text × Json) :=
  [("null", .null), ("true", .bool true), ("false", .bool false), ("NaN", .real .notANumber),
    ("Infinity", .real (.infinite false)), ("-Infinity", .real (.infinite true))]

def readScalar (limits : Limits) (t : Text) : Outcome (Failure Fault) Json :=
  match words.find? fun word => word.1.isPrefixOf t with
  | some (word, value) => .ok (value, t.drop word.length)
  | none =>
    match readNumeral? t with
    | none => .error (.refused ⟨.noValue, t⟩)
    | some (n, rest) =>
      match n.excess? limits with
      | some e => .error (.excess e)
      | none => .ok (n.value, rest)

/-- The text after an expected character and the spaces that follow it. -/
def expect (c : CodePoint) (kind : FaultKind) (t : Text) : Except Fault Text :=
  if t.head? = some c then .ok (skipSpaces (t.drop 1)) else .error ⟨kind, t⟩

/-- A member's name and its colon, with the spaces around the colon. -/
def readName (t : Text) : Outcome Fault Text :=
  if t.head? = some ('"' : CodePoint) then
    match readString t (t.drop 1) with
    | .error fault => .error fault
    | .ok (name, rest) => (expect ':' .noColon (skipSpaces rest)).map fun next => (name, next)
  else .error ⟨.noName, t⟩

mutual

/-- A value, with a budget for its nesting and its items. -/
def readValue (limits : Limits) : (budget : Nat) → Text → Outcome (Failure Fault) Json
  | 0, t => .error (.refused ⟨.noValue, t⟩)
  | _, [] => .error (.refused ⟨.noValue, []⟩)
  | budget + 1, c :: rest =>
    if c = '"' then
      match readString (c :: rest) rest with
      | .error fault => .error (.refused fault)
      | .ok (t, rest) => .ok (.str t, rest)
    else if c = '[' then
      match limits.inner? with
      | none => .error (.excess (.depth false))
      | some inner =>
        if (skipSpaces rest).head? = some (']' : CodePoint) then
          .ok (.arr [], (skipSpaces rest).drop 1)
        else (readItems inner budget (skipSpaces rest)).map fun read => (.arr read.1, read.2)
    else if c = '{' then
      match limits.inner? with
      | none => .error (.excess (.depth true))
      | some inner =>
        if (skipSpaces rest).head? = some ('}' : CodePoint) then
          .ok (.obj [], (skipSpaces rest).drop 1)
        else (readMembers inner budget (skipSpaces rest)).map fun read =>
          (.obj (Entries.ofPairs read.1), read.2)
    else readScalar limits (c :: rest)

def readItems (limits : Limits) : (budget : Nat) → Text → Outcome (Failure Fault) (List Json)
  | 0, t => .error (.refused ⟨.noValue, t⟩)
  | budget + 1, t =>
    match readValue limits budget t with
    | .error failure => .error failure
    | .ok (item, rest) =>
      if (skipSpaces rest).head? = some (']' : CodePoint) then
        .ok ([item], (skipSpaces rest).drop 1)
      else match expect ',' .noComma (skipSpaces rest) with
        | .error fault => .error (.refused fault)
        | .ok next => (readItems limits budget next).map fun read => (item :: read.1, read.2)

def readMembers (limits : Limits) :
    (budget : Nat) → Text → Outcome (Failure Fault) (List (Text × Json))
  | 0, t => .error (.refused ⟨.noName, t⟩)
  | budget + 1, t =>
    match readName t with
    | .error fault => .error (.refused fault)
    | .ok (name, rest) =>
      match readValue limits budget rest with
      | .error failure => .error failure
      | .ok (value, rest) =>
        if (skipSpaces rest).head? = some ('}' : CodePoint) then
          .ok ([(name, value)], (skipSpaces rest).drop 1)
        else match expect ',' .noComma (skipSpaces rest) with
          | .error fault => .error (.refused fault)
          | .ok next =>
            (readMembers limits budget next).map fun read => ((name, value) :: read.1, read.2)

end

/-- A whole text: a value between spaces and nothing else. -/
def readText (limits : Limits) (t : Text) : Except (Failure Fault) Json :=
  if t.head? = some (.ofNat 0xFEFF) then .error (.refused ⟨.byteOrderMark, t⟩)
  else match readValue limits (2 * t.length + 2) (skipSpaces t) with
    | .error failure => .error failure
    | .ok (value, rest) =>
      if (skipSpaces rest).isEmpty then .ok value
      else .error (.refused ⟨.extraData, skipSpaces rest⟩)

structure Complaint where
  kind : FaultKind
  line : Nat
  column : Nat
  offset : Nat
deriving DecidableEq

def Complaint.message (c : Complaint) : Text :=
  c.kind.message ++ ": line " ++ Text.ofNat c.line ++ " column " ++ Text.ofNat c.column ++ " (char "
    ++ Text.ofNat c.offset ++ ")"

def Fault.complaint (whole : Text) (fault : Fault) : Complaint :=
  let offset := whole.length - fault.rest.length
  ⟨fault.kind, whole.lineAt offset, whole.columnAt offset, offset⟩

/-- The value of a JSON text, or the first thing that is in its way. -/
def parse (limits : Limits) (t : Text) : Except (Failure Complaint) Json :=
  (readText limits t).mapError (Failure.map (Fault.complaint t))

end CustomProperties.Json
