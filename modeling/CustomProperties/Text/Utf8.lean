import CustomProperties.Text.Basic

/-!
# UTF-8

Bytes of a text and back.

* `Utf8.encode`: every code point in one to four bytes; a surrogate takes three, like its
  neighbours.
* `Utf8.unencodable?`: where a text first holds surrogates, which strict UTF-8 has no bytes for.
* `Utf8.decode`: the text of a byte sequence, or the reason why its first bad sequence is refused.
  Overlong forms, surrogates and numbers past the last code point are bad at their second byte.
* `Utf8.decodeMending`: the text of a byte sequence, with something else for every bad sequence.
-/

namespace CustomProperties.Utf8

/-! ## Encoding -/

/-- The byte that carries six bits after the first byte of a sequence. -/
def continuation (n : Nat) : UInt8 := .ofNat (0x80 + n % 64)

def encodeChar (c : CodePoint) : List UInt8 :=
  if c.val < 0x80 then [.ofNat c.val]
  else if c.val < 0x800 then [.ofNat (0xC0 + c.val / 64), continuation c.val]
  else if c.val < 0x10000 then
    [.ofNat (0xE0 + c.val / 4096), continuation (c.val / 64), continuation c.val]
  else
    [.ofNat (0xF0 + c.val / 262144), continuation (c.val / 4096), continuation (c.val / 64),
      continuation c.val]

def encode (t : Text) : List UInt8 := t.flatMap encodeChar

/-- A run of neighbouring surrogates in a text. -/
structure Unencodable where
  /-- The offset of the first one. -/
  offset : Nat
  first : CodePoint
  /-- How many stand next to each other. -/
  count : Nat
deriving DecidableEq

def surrogates? (refused : CodePoint → Bool) (t : Text) : Option Unencodable :=
  match t.dropWhile (!refused ·) with
  | [] => none
  | c :: rest =>
    some {
      offset := (t.takeWhile (!refused ·)).length
      first := c
      count := (rest.takeWhile (·.isSurrogate)).length + 1 }

/-- The first run of surrogates, which have no strict encoding. -/
def unencodable? (t : Text) : Option Unencodable := surrogates? (·.isSurrogate) t

/-! ## Decoding -/

inductive Refusal
  | invalidStart
  | invalidContinuation
  | unexpectedEnd
deriving DecidableEq

def Refusal.message : Refusal → Text
  | .invalidStart => "invalid start byte"
  | .invalidContinuation => "invalid continuation byte"
  | .unexpectedEnd => "unexpected end of data"

/-- The number carried by a first byte with the value `value` and `count` more bytes, the next of
which lies between `low` and `high`. -/
def finish : (count : Nat) → (low high value : Nat) → List UInt8 → Except Refusal Nat
  | 0, _, _, value, _ => .ok value
  | _ + 1, _, _, _, [] => .error .unexpectedEnd
  | count + 1, low, high, value, b :: rest =>
    if low ≤ b.toNat ∧ b.toNat ≤ high then
      finish count 0x80 0xBF (64 * value + (b.toNat - 0x80)) rest
    else .error .invalidContinuation

/-- What a first byte announces: how many bytes follow, the bounds of the next one, and its own
bits. -/
structure Announced where
  count : Nat
  low : Nat
  high : Nat
  bits : Nat

def announced? (b : Nat) : Option Announced :=
  if b < 0x80 then some ⟨0, 0x80, 0xBF, b⟩
  else if b < 0xC2 then none
  else if b < 0xE0 then some ⟨1, 0x80, 0xBF, b - 0xC0⟩
  else if b < 0xF0 then
    some ⟨2, if b = 0xE0 then 0xA0 else 0x80, if b = 0xED then 0x9F else 0xBF, b - 0xE0⟩
  else if b < 0xF5 then
    some ⟨3, if b = 0xF0 then 0x90 else 0x80, if b = 0xF4 then 0x8F else 0xBF, b - 0xF0⟩
  else none

/-- The text of a byte sequence whose first `skip` bytes have been read with the one before. -/
def decodeAfter : (skip : Nat) → List UInt8 → Except Refusal Text
  | _, [] => .ok []
  | skip + 1, _ :: rest => decodeAfter skip rest
  | 0, b :: rest =>
    match announced? b.toNat with
    | none => .error .invalidStart
    | some a => do
      let n ← finish a.count a.low a.high a.bits rest
      let t ← decodeAfter a.count rest
      return .ofNat n :: t

def decode (bytes : List UInt8) : Except Refusal Text := decodeAfter 0 bytes

/-! ## Mending -/

/-- How many bytes go on with a sequence of which `count` more are to come, the next of them between
`low` and `high`. -/
def continuing : (count : Nat) → (low high : Nat) → List UInt8 → Nat
  | count + 1, low, high, b :: rest =>
    if low ≤ b.toNat ∧ b.toNat ≤ high then continuing count 0x80 0xBF rest + 1 else 0
  | _, _, _, _ => 0

def decodeMendingAfter (mend : List UInt8 → Text) : (skip : Nat) → List UInt8 → Text
  | _, [] => []
  | skip + 1, _ :: rest => decodeMendingAfter mend skip rest
  | 0, b :: rest =>
    match announced? b.toNat with
    | none => mend [b] ++ decodeMendingAfter mend 0 rest
    | some a =>
      match finish a.count a.low a.high a.bits rest with
      | .ok n => .ofNat n :: decodeMendingAfter mend a.count rest
      | .error _ =>
        let more := continuing a.count a.low a.high rest
        mend (b :: rest.take more) ++ decodeMendingAfter mend more rest

/-- The text of a byte sequence, with what `mend` makes of every bad sequence.  A bad sequence is a
first byte with the bytes that go on with it, up to the one that does not fit. -/
def decodeMending (mend : List UInt8 → Text) (bytes : List UInt8) : Text :=
  decodeMendingAfter mend 0 bytes

end CustomProperties.Utf8
