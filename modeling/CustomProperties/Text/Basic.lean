/-!
# Code points and text

A text is a list of Unicode code points.  Unlike `Char`, a `CodePoint` may be a surrogate: a text
read from an escape such as `\ud800` holds a lone surrogate, and offsets count it like any other
code point.  String and character literals coerce.

* `Text.index`: a signed index, counted from the end when negative, and clamped to the text;
  `Text.slice`, `Text.upTo` and `Text.since` are the parts that signed indices cut out.
* `Text.trim`: a text without the blanks at its two ends.  The blank characters are the Unicode
  spaces together with the control characters that separate lines and records; zero-width
  characters and the byte order mark are not blank.
* `Text.ofInt`, `Text.hex`: numbers as text; `Text.readDecimal` is the value of a run of digits.
* `Text.lineAt`, `Text.columnAt`: the place of an offset.  Lines end at line feeds only; lines and
  columns count from one.
* `Text.unifyLineEnds`: one line feed for every carriage return, line feed, or the two in this
  order.
* `Text.plain`: a text without terminal control sequences.  Such a sequence is an escape character
  and an opening bracket, then parameter characters from `0` to `?`, then intermediate characters
  from the space to `/`, then one final character from `@` to `~`.
-/

namespace CustomProperties

/-- A Unicode code point, surrogates included. -/
structure CodePoint where
  val : Nat
  val_lt : val < 0x110000
deriving DecidableEq

namespace CodePoint

instance : Inhabited CodePoint := ⟨⟨0, by decide⟩⟩

def ofNat? (n : Nat) : Option CodePoint :=
  if h : n < 0x110000 then some ⟨n, h⟩ else none

/-- The code point with a given number; numbers out of range give the replacement character. -/
def ofNat (n : Nat) : CodePoint :=
  (ofNat? n).getD ⟨0xFFFD, by decide⟩

theorem toNat_char_lt (c : Char) : c.toNat < 0x110000 := by
  have h : c.toNat.isValidChar := c.valid
  rcases h with h | ⟨_, h⟩
  · exact Nat.lt_trans h (by decide)
  · exact h

def ofChar (c : Char) : CodePoint := ⟨c.toNat, toNat_char_lt c⟩

instance : Coe Char CodePoint := ⟨ofChar⟩

/-- The character of a code point; a surrogate, which is no character, becomes the replacement
character. -/
def toChar (c : CodePoint) : Char :=
  if h : c.val.isValidChar then Char.ofNatAux c.val h else Char.ofNat 0xFFFD

def isHighSurrogate (c : CodePoint) : Bool := 0xD800 ≤ c.val && c.val ≤ 0xDBFF

def isLowSurrogate (c : CodePoint) : Bool := 0xDC00 ≤ c.val && c.val ≤ 0xDFFF

def isSurrogate (c : CodePoint) : Bool := 0xD800 ≤ c.val && c.val ≤ 0xDFFF

def isAscii (c : CodePoint) : Bool := c.val < 0x80

def isDigit (c : CodePoint) : Bool := 0x30 ≤ c.val && c.val ≤ 0x39

def isLetter (c : CodePoint) : Bool :=
  (0x41 ≤ c.val && c.val ≤ 0x5A) || (0x61 ≤ c.val && c.val ≤ 0x7A)

/-- The code point lies in one of the closed ranges. -/
def inRanges (c : CodePoint) (ranges : List (Nat × Nat)) : Bool :=
  ranges.any fun r => r.1 ≤ c.val && c.val ≤ r.2

end CodePoint

def blankRanges : List (Nat × Nat) :=
  [(0x9, 0xD), (0x1C, 0x20), (0x85, 0x85), (0xA0, 0xA0), (0x1680, 0x1680), (0x2000, 0x200A),
    (0x2028, 0x2029), (0x202F, 0x202F), (0x205F, 0x205F), (0x3000, 0x3000)]

def CodePoint.isBlank (c : CodePoint) : Bool := c.inRanges blankRanges

/-- A text: a list of code points. -/
abbrev Text := List CodePoint

namespace Text

def ofString (s : String) : Text := s.toList.map CodePoint.ofChar

instance : Coe String Text := ⟨ofString⟩

/-- The string of a text, with the replacement character for every surrogate. -/
def toString (t : Text) : String := String.ofList (t.map CodePoint.toChar)

/-! ## Signed indices -/

/-- A signed index into a text: a negative one counts from the end, and both ends are clamped. -/
def index (t : Text) (i : Int) : Nat :=
  min (if i < 0 then i + t.length else i).toNat t.length

def upTo (t : Text) (stop : Int) : Text := t.take (t.index stop)

def since (t : Text) (start : Int) : Text := t.drop (t.index start)

/-- The part of a text between two signed indices, empty when they are out of order. -/
def slice (t : Text) (start stop : Int) : Text :=
  (t.take (t.index stop)).drop (t.index start)

/-! ## Parts of a text -/

/-- The text stands somewhere inside `whole`. -/
def occursIn (part : Text) : Text → Bool
  | [] => part.isEmpty
  | c :: rest => part.isPrefixOf (c :: rest) || occursIn part rest

/-- The first offset at which a part stands in the text, or the text's length if there is none. -/
def indexOf : (t part : Text) → Nat
  | [], _ => 0
  | c :: rest, part => if part.isPrefixOf (c :: rest) then 0 else indexOf rest part + 1

def joinWith (separator : Text) (parts : List Text) : Text := (parts.intersperse separator).flatten

/-! ## Blanks -/

def trimStart (t : Text) : Text := t.dropWhile CodePoint.isBlank

def trimEnd (t : Text) : Text := (t.reverse.dropWhile CodePoint.isBlank).reverse

def trim (t : Text) : Text := trimEnd (trimStart t)

/-! ## Numerals -/

def ofNat (n : Nat) : Text := (Nat.toDigits 10 n).map CodePoint.ofChar

def ofInt : Int → Text
  | .ofNat n => ofNat n
  | .negSucc n => ('-' : CodePoint) :: ofNat (n + 1)

def hexDigit? (c : CodePoint) : Option Nat :=
  if 0x30 ≤ c.val ∧ c.val ≤ 0x39 then some (c.val - 0x30)
  else if 0x41 ≤ c.val ∧ c.val ≤ 0x46 then some (c.val - 0x41 + 10)
  else if 0x61 ≤ c.val ∧ c.val ≤ 0x66 then some (c.val - 0x61 + 10)
  else none

/-- The lower-case hexadecimal digits of `n`, the last `width` of them, padded with zeros. -/
def hex : (width : Nat) → (n : Nat) → Text
  | 0, _ => []
  | width + 1, n => hex width (n / 16) ++ [CodePoint.ofChar (Nat.digitChar (n % 16))]

def readDecimal (digits : Text) : Nat :=
  digits.foldl (fun value c => 10 * value + (c.val - 0x30)) 0

/-! ## Lines -/

def lineAt (t : Text) (offset : Nat) : Nat := (t.take offset).count ('\n' : CodePoint) + 1

/-- The column of an offset: one more than the characters between it and the last line feed
before. -/
def columnAt (t : Text) (offset : Nat) : Nat :=
  ((t.take offset).reverse.takeWhile (· ≠ ('\n' : CodePoint))).length + 1

/-- The text with one line feed for every line end; `returned` says that a carriage return, which
has got its line feed, stands right before. -/
def unifyFrom (returned : Bool) : Text → Text
  | [] => []
  | c :: rest =>
    if c = '\r' then ('\n' : CodePoint) :: unifyFrom true rest
    else if returned ∧ c = '\n' then unifyFrom false rest
    else c :: unifyFrom false rest

def unifyLineEnds (t : Text) : Text := unifyFrom false t

/-! ## Control sequences -/

def isParameter (c : CodePoint) : Bool := 0x30 ≤ c.val && c.val ≤ 0x3F

def isIntermediate (c : CodePoint) : Bool := 0x20 ≤ c.val && c.val ≤ 0x2F

def isFinal (c : CodePoint) : Bool := 0x40 ≤ c.val && c.val ≤ 0x7E

/-- The number of characters after an escape character that complete a control sequence with it. -/
def controlTail? (t : Text) : Option Nat :=
  if t.head? = some ('[' : CodePoint) then
    let parameters := ((t.drop 1).takeWhile isParameter).length
    let intermediates := ((t.drop (1 + parameters)).takeWhile isIntermediate).length
    let length := 1 + parameters + intermediates
    if (t.drop length).head?.any isFinal then some (length + 1) else none
  else none

/-- A text without its control sequences; the first `skip` characters belong to one already met. -/
def plainAfter : (skip : Nat) → Text → Text
  | _, [] => []
  | skip + 1, _ :: rest => plainAfter skip rest
  | 0, c :: rest =>
    if c.val = 0x1B then
      match controlTail? rest with
      | some n => plainAfter n rest
      | none => c :: plainAfter 0 rest
    else c :: plainAfter 0 rest

def plain (t : Text) : Text := plainAfter 0 t

end Text

end CustomProperties
