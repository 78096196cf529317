/-!
# Byte strings

Everything that is hashed, signed or encoded is a `Bytes`: a list of octets. A list rather than a
byte array, because every law about what gets hashed is a law about concatenation.

## Main definitions

* `Bytes` — a byte string.
* `utf8` — the bytes of a text.
* `Bytes.ofNatBE`, `Bytes.toNatBE`, `Bytes.ofNatLE`, `Bytes.toNatLE` — numbers as bytes, most or
  least significant byte first.

## Main results

* `utf8_append` and `utf8_inj` — a text's bytes are those of its pieces in order, and no two texts
  share their bytes.
-/

namespace SelectiveDisclosure

/-- A byte string. -/
abbrev Bytes := List UInt8

/-- The bytes of a text in UTF-8. -/
def utf8 (s : String) : Bytes := s.toByteArray.data.toList

@[simp] theorem utf8_append (s t : String) : utf8 (s ++ t) = utf8 s ++ utf8 t := by
  simp [utf8]

theorem utf8_ofList (cs : List Char) :
    utf8 (String.ofList cs) = cs.flatMap String.utf8EncodeChar := by
  simp [utf8, List.utf8Encode]

theorem utf8_inj {s t : String} (h : utf8 s = utf8 t) : s = t := by
  refine String.toByteArray_inj.1 (ByteArray.ext ?_)
  exact Array.toList_inj.1 h

namespace Bytes

/-- The number a byte string spells, most significant byte first. -/
def toNatBE (bs : Bytes) : Nat := bs.foldl (fun n b => 256 * n + b.toNat) 0

/-- The number a byte string spells, least significant byte first. -/
def toNatLE (bs : Bytes) : Nat := bs.foldr (fun b n => b.toNat + 256 * n) 0

/-- The lowest `width` bytes of a number, least significant byte first. -/
def ofNatLE : (width : Nat) → (n : Nat) → Bytes
  | 0, _ => []
  | width + 1, n => UInt8.ofNat n :: ofNatLE width (n / 256)

/-- The lowest `width` bytes of a number, most significant byte first. -/
def ofNatBE (width n : Nat) : Bytes := (ofNatLE width n).reverse

@[simp] theorem length_ofNatLE (width n : Nat) : (ofNatLE width n).length = width := by
  induction width generalizing n with
  | zero => rfl
  | succ width ih => simp [ofNatLE, ih]

@[simp] theorem length_ofNatBE (width n : Nat) : (ofNatBE width n).length = width := by
  simp [ofNatBE]

/-- The first `count` pieces of `size` bytes each; a piece past the end is short or empty. -/
def firstPieces (size : Nat) : (count : Nat) → Bytes → List Bytes
  | 0, _ => []
  | count + 1, bs => bs.take size :: firstPieces size count (bs.drop size)

/-- The byte string cut into pieces of `size` bytes, the last of which may be shorter. The empty
string has no pieces. -/
def pieces (size : Nat) (bs : Bytes) : List Bytes :=
  firstPieces size ((bs.length + (size - 1)) / size) bs

end Bytes

end SelectiveDisclosure
