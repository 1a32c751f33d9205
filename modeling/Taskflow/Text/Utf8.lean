set_option autoImplicit false

/-!
# Decoding UTF-8

A byte machine for UTF-8. Between two bytes it is either between characters or inside one, and
inside one it knows how many bytes are still owed and in which range the next one has to lie.
Lossy decoding puts one replacement character for every maximal run of bytes that starts a
character and is broken off, and for every byte that starts none.

## Main definitions

* `Utf8.Decoder` — where the machine stands between two bytes.
* `Utf8.decodeLossy` — decode, with U+FFFD for what is not UTF-8.
* `Utf8.decode?` — decode, refusing what is not UTF-8.
* `Utf8.encode` — the bytes of a string.
-/

namespace Taskflow.Utf8

/-- The character that stands for undecodable bytes. -/
def replacement : Char := '\ufffd'

/-- The machine between two bytes: between characters, or inside a character of which `owed + 1`
bytes are still to come, the next of them between `low` and `high`; `bits` holds the code point
read so far. -/
inductive Decoder where
  | between
  | inside (owed : Nat) (low high : UInt8) (bits : Nat)
  deriving Repr, DecidableEq

/-- What one byte does: the characters that it completes or breaks off, and the machine after it. -/
structure Fed where
  emitted : List Char
  next : Decoder
  deriving Repr, DecidableEq

/-- A byte that stands where a character starts. -/
def start (b : UInt8) : Fed :=
  let inside (owed : Nat) (low high : UInt8) (bits : Nat) : Fed :=
    ⟨[], .inside owed low high bits⟩
  if b < 0x80 then ⟨[Char.ofNat b.toNat], .between⟩
  else if b < 0xC2 then ⟨[replacement], .between⟩
  else if b < 0xE0 then inside 0 0x80 0xBF (b.toNat - 0xC0)
  else if b = 0xE0 then inside 1 0xA0 0xBF 0
  else if b = 0xED then inside 1 0x80 0x9F 0xD
  else if b < 0xF0 then inside 1 0x80 0xBF (b.toNat - 0xE0)
  else if b = 0xF0 then inside 2 0x90 0xBF 0
  else if b < 0xF4 then inside 2 0x80 0xBF (b.toNat - 0xF0)
  else if b = 0xF4 then inside 2 0x80 0x8F 4
  else ⟨[replacement], .between⟩

/-- One byte. A byte out of range breaks the open character off and starts afresh. -/
def feed : Decoder → UInt8 → Fed
  | .between, b => start b
  | .inside owed low high bits, b =>
    if low ≤ b ∧ b ≤ high then
      let bits := bits * 64 + (b.toNat - 0x80)
      match owed with
      | 0 => ⟨[Char.ofNat bits], .between⟩
      | owed + 1 => ⟨[], .inside owed 0x80 0xBF bits⟩
    else
      let fed := start b
      { fed with emitted := replacement :: fed.emitted }

/-- The end of the input: an open character is broken off. -/
def finish : Decoder → List Char
  | .between => []
  | .inside .. => [replacement]

/-- The characters of the rest of the input. -/
def run : Decoder → List UInt8 → List Char
  | d, [] => finish d
  | d, b :: bs => (feed d b).emitted ++ run (feed d b).next bs

/-- Every maximal ill-formed piece becomes one replacement character. -/
def decodeLossy (bytes : List UInt8) : List Char := run .between bytes

/-- Reads the rest of the input, refusing the first byte that is not UTF-8. -/
def runStrict : Decoder → List UInt8 → Option (List Char)
  | .between, [] => some []
  | .inside .., [] => none
  | .between, b :: bs =>
    let fed := start b
    if b ≥ 0x80 ∧ fed.next = .between then none
    else (runStrict fed.next bs).map (fed.emitted ++ ·)
  | .inside owed low high bits, b :: bs =>
    if low ≤ b ∧ b ≤ high then
      let fed := feed (.inside owed low high bits) b
      (runStrict fed.next bs).map (fed.emitted ++ ·)
    else none

/-- The characters that `bytes` encodes, if they are UTF-8. -/
def decode? (bytes : List UInt8) : Option (List Char) := runStrict .between bytes

/-- The bytes of a character. -/
def encodeChar (c : Char) : List UInt8 := String.utf8EncodeChar c

/-- The bytes of a string. -/
def encode (s : String) : List UInt8 := s.toList.flatMap encodeChar

/-- Lossy decoding as a string. -/
def toStringLossy (bytes : List UInt8) : String := String.ofList (decodeLossy bytes)

end Taskflow.Utf8
