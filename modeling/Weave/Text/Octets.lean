import Weave.Text.Search
import Weave.Text.Utf8

/-!
# Octets

Commands and the data that passes between them are strings of bytes. They are held as characters
with numbers below 256, so that the bytes of ASCII text read as that text.

## Main definitions

* `Weave.Octets`, `Weave.Octets.ofText`, `Weave.Octets.toText`, `Weave.Octets.toBytes`.

## Main results

* `Weave.Octets.toBytes_ofBytes`: bytes are kept.
-/

namespace Weave

/-- A string of bytes, each held as the character of its number. -/
abbrev Octets := List Char

namespace Octets

/-- Bytes as octets. -/
def ofBytes (bytes : Bytes) : Octets := bytes.map fun b ↦ Char.ofNat b.toNat

/-- Octets as bytes. -/
def toBytes (octets : Octets) : Bytes := octets.map fun c ↦ UInt8.ofNat c.toNat

/-- The encoding of a text. -/
def ofText (t : Text) : Octets := ofBytes (Utf8.encode t)

/-- The text that octets encode. -/
def toText (octets : Octets) : Text := Utf8.decode (toBytes octets)

/-- Bytes are kept. -/
theorem toBytes_ofBytes (bytes : Bytes) : toBytes (ofBytes bytes) = bytes := by
  have h (b : UInt8) : UInt8.ofNat (Char.ofNat b.toNat).toNat = b := by
    have hlt : b.toNat < 256 := b.toNat_lt
    have hvalid : b.toNat.isValidChar := Or.inl (by omega)
    have hc : (Char.ofNat b.toNat).toNat = b.toNat := by
      rw [Char.ofNat, dif_pos hvalid]
      rfl
    rw [hc]
    exact UInt8.ofNat_toNat
  simp only [toBytes, ofBytes, List.map_map]
  exact List.map_id'' h bytes

/-- A number in decimal digits. -/
def ofNat (n : Nat) : Octets := Nat.toDigits 10 n

/-- A number in decimal digits, with a minus sign if it is below zero. -/
def ofInt : Int → Octets
  | .ofNat n => ofNat n
  | .negSucc n => '-' :: ofNat (n + 1)

/-- The number that decimal digits stand for. -/
def toNat? (octets : Octets) : Option Nat :=
  if octets.isEmpty then none
  else octets.foldlM (fun n c ↦ if c.isDigit then some (n * 10 + (c.toNat - 48)) else none) 0

/-- The number that decimal digits with a sign stand for. -/
def toInt? : Octets → Option Int
  | '-' :: digits => (toNat? digits).map fun n ↦ -(n : Int)
  | '+' :: digits => (toNat? digits).map Int.ofNat
  | digits => (toNat? digits).map Int.ofNat

/-- A blank as it separates words. -/
def isBlank (c : Char) : Bool := c = ' ' || c = '\t' || c = '\n'

/-- A character that can stand in a name. -/
def isNameChar (c : Char) : Bool := c.isAlphanum || c = '_'

/-- Whether octets are a name. -/
def isName : Octets → Bool
  | [] => false
  | c :: cs => !c.isDigit && isNameChar c && cs.all isNameChar

end Octets

end Weave
