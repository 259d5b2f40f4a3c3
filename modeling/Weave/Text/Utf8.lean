import Weave.Text.Basic

/-!
# Texts as bytes

The encoding of a text in UTF-8 and the decoding of any bytes. In decoding, every maximal part that
starts a character but does not complete one becomes a single replacement character, and so does
every byte that starts no character.

## Main definitions

* `Weave.Bytes`: byte strings.
* `Weave.Utf8.encode`, `Weave.Utf8.decode`, `Weave.Utf8.decode?`, `Weave.Utf8.size`.
-/

namespace Weave

/-- A byte string. -/
abbrev Bytes := List UInt8

namespace Utf8

/-- The bytes of a text. -/
def encode (t : Text) : Bytes := t.flatMap String.utf8EncodeChar

/-- The number of bytes of a text. -/
def size (t : Text) : Nat := (encode t).length

/-- The character that stands for bytes that encode nothing. -/
def replacement : Char := '\uFFFD'

/-- A character whose first bytes have been read. -/
structure Pending where
  /-- The bits read so far. -/
  bits : Nat
  /-- The number of bytes still to come, less one. -/
  more : Nat
  /-- The least value that the next byte may have. -/
  low : UInt8
  /-- The greatest value that the next byte may have. -/
  high : UInt8

/-- What one byte does: the characters it completes or spoils, and the character it leaves open. -/
abbrev Decoded := Text × Option Pending

/-- The effect of a byte between characters. -/
def lead (b : UInt8) : Decoded :=
  let n := b.toNat
  if n < 0x80 then ([Char.ofNat n], none)
  else if n < 0xC2 then ([replacement], none)
  else if n < 0xE0 then ([], some ⟨n % 32, 0, 0x80, 0xBF⟩)
  else if n < 0xF0 then
    ([], some ⟨n % 16, 1, if n = 0xE0 then 0xA0 else 0x80, if n = 0xED then 0x9F else 0xBF⟩)
  else if n < 0xF5 then
    ([], some ⟨n % 8, 2, if n = 0xF0 then 0x90 else 0x80, if n = 0xF4 then 0x8F else 0xBF⟩)
  else ([replacement], none)

/-- The effect of a byte within a character. A byte that does not continue the character spoils it
and is then taken as the start of the next one. -/
def advance (p : Pending) (b : UInt8) : Decoded :=
  if p.low ≤ b ∧ b ≤ p.high then
    let bits := p.bits * 64 + b.toNat % 64
    match p.more with
    | 0 => ([Char.ofNat bits], none)
    | more + 1 => ([], some ⟨bits, more, 0x80, 0xBF⟩)
  else
    let (chars, pending) := lead b
    (replacement :: chars, pending)

/-- The decoding of bytes that follow a character that may still be open. -/
def decodeFrom : Option Pending → Bytes → Text
  | none, [] => []
  | some _, [] => [replacement]
  | none, b :: bs => (lead b).1 ++ decodeFrom (lead b).2 bs
  | some p, b :: bs => (advance p b).1 ++ decodeFrom (advance p b).2 bs

/-- The text of any bytes, with replacement characters for the parts that encode nothing. -/
def decode (bytes : Bytes) : Text := decodeFrom none bytes

/-- The text of bytes that encode one. -/
def decode? (bytes : Bytes) : Option Text :=
  let t := decode bytes
  if encode t = bytes then some t else none

end Utf8

end Weave
