import SelectiveDisclosure.Radix
import SelectiveDisclosure.Text.Quoted

/-!
# Base58 text

A byte string is read as one big number, which is written in base 58 with an alphabet that leaves
out the look-alikes `0`, `O`, `I` and `l`. Leading zero bytes do not change the number, so each is
written as one leading `1`, the digit zero.

Reading reports the first byte of the text that cannot stand there, by its position in bytes.

## Main definitions

* `Base58.encode`, `Base58.decode` — between byte strings and their texts.
* `Base58.Problem` — what can be wrong with a text.
-/

namespace SelectiveDisclosure.Base58

/-- The digits from zero to fifty-seven. -/
def alphabet : List Char :=
  "123456789ABCDEFGHJKLMNPQRSTUVWXYZabcdefghijkmnopqrstuvwxyz".toList

/-- What can be wrong with a text that should be Base58. -/
inductive Problem where
  /-- The ASCII character at this byte position is no digit. -/
  | badDigit (character : Char) (position : Nat)
  /-- A character outside ASCII starts at this byte position. -/
  | nonAscii (position : Nat)
  deriving DecidableEq, Repr

/-- The text of a problem. -/
def Problem.message : Problem → String
  | .badDigit character position =>
    "provided string contained invalid character " ++ Text.quotedChar character ++ " at byte " ++
      toString position
  | .nonAscii position =>
    "provided string contained non-ascii character starting at byte " ++ toString position

/-- The digit of a number below 58. -/
def digit (n : Nat) : Char := alphabet.getD n '1'

/-- The characters of a byte string. -/
def chars (bs : Bytes) : List Char :=
  (bs.takeWhile (· = 0)).map (fun _ => '1') ++
    (Radix.digits 58 (2 * bs.length) bs.toNatBE).reverse.map digit

/-- The Base58 text of a byte string. -/
def encode (bs : Bytes) : String := String.ofList (chars bs)

/-- The values of the digits of a text, given as UTF-8 bytes; `position` is that of the first. -/
def digitValues : (position : Nat) → Bytes → Except Problem (List Nat)
  | _, [] => .ok []
  | position, b :: rest =>
    if 128 ≤ b then .error (.nonAscii position)
    else
      match alphabet.idxOf? (Char.ofNat b.toNat) with
      | none => .error (.badDigit (Char.ofNat b.toNat) position)
      | some value => (digitValues (position + 1) rest).map (value :: ·)

/-- The bytes that digits spell, most significant digit first. -/
def spelled (values : List Nat) : Bytes :=
  (values.takeWhile (· = 0)).map (fun _ => 0) ++
    (Radix.digits 256 values.length (Radix.value 58 values.reverse)).reverse.map UInt8.ofNat

/-- Reads a Base58 text. -/
def decode (s : String) : Except Problem Bytes := (digitValues 0 (utf8 s)).map spelled

example : chars [0, 0, 255] = ['1', '1', '5', 'Q'] := by decide

end SelectiveDisclosure.Base58
