import SelectiveDisclosure.Bytes
import SelectiveDisclosure.Text.Quoted

/-!
# Hexadecimal text

Bytes are written as two lowercase digits each and read in either letter case.

Reading works on the UTF-8 bytes of the text, not on its characters: a position in a report counts
bytes, and an odd number of *bytes* is reported before any bad digit, wherever that digit stands.

## Main definitions

* `Hex.encode` — the lowercase digits of a byte string.
* `Hex.decode` — reads digits of either case, or says why it cannot.
* `Hex.Problem` — the two things that can be wrong with a text.

## Main results

* `Hex.decode_encode` — what is written is read back.
-/

namespace SelectiveDisclosure.Hex

/-- What can be wrong with a text that should be hexadecimal. -/
inductive Problem where
  /-- The text has an odd number of bytes. -/
  | oddLength
  /-- The byte at this position is no hexadecimal digit. -/
  | badDigit (byte : UInt8) (position : Nat)
  deriving DecidableEq, Repr

/-- The text of a problem. -/
def Problem.message : Problem → String
  | .oddLength => "Odd number of digits"
  | .badDigit byte position =>
    "Invalid character " ++ Text.quotedChar (Char.ofNat byte.toNat) ++ " at position " ++
      toString position

/-- The lowercase digit of a number below 16. -/
def digit (n : Nat) : Char := if n < 10 then Char.ofNat (48 + n) else Char.ofNat (87 + n)

/-- The two digits of a byte. -/
def digits (b : UInt8) : List Char := [digit (b.toNat / 16), digit (b.toNat % 16)]

/-- The digits of a byte string, as characters. -/
def chars (bs : Bytes) : List Char := bs.flatMap digits

theorem chars_cons (b : UInt8) (bs : Bytes) : chars (b :: bs) = digits b ++ chars bs := rfl

/-- The lowercase digits of a byte string. -/
def encode (bs : Bytes) : String := String.ofList (chars bs)

/-- The value of a digit, given as its ASCII byte. -/
def digitValue? (b : UInt8) : Option Nat :=
  if 48 ≤ b ∧ b ≤ 57 then some (b.toNat - 48)
  else if 97 ≤ b ∧ b ≤ 102 then some (b.toNat - 87)
  else if 65 ≤ b ∧ b ≤ 70 then some (b.toNat - 55)
  else none

/-- Reads pairs of digits; `position` is that of the first byte at hand. A single byte left over is
an odd length. -/
def decodePairs : (position : Nat) → Bytes → Except Problem Bytes
  | _, [] => .ok []
  | _, [_] => .error .oddLength
  | position, high :: low :: rest =>
    match digitValue? high, digitValue? low with
    | none, _ => .error (.badDigit high position)
    | some _, none => .error (.badDigit low (position + 1))
    | some h, some l => (decodePairs (position + 2) rest).map (UInt8.ofNat (16 * h + l) :: ·)

/-- Reads the ASCII bytes of hexadecimal digits. -/
def decodeBytes (text : Bytes) : Except Problem Bytes :=
  if text.length % 2 = 1 then .error .oddLength else decodePairs 0 text

/-- Reads hexadecimal digits of either case. -/
def decode (s : String) : Except Problem Bytes := decodeBytes (utf8 s)

/-! ### What is written is read back -/

theorem digit_spells : ∀ n < 16,
    ∃ b, String.utf8EncodeChar (digit n) = [b] ∧ digitValue? b = some n := by
  have : ∀ n < 16, String.utf8EncodeChar (digit n) = [(digit n).toNat.toUInt8] ∧
      digitValue? (digit n).toNat.toUInt8 = some n := by decide
  exact fun n h => ⟨_, this n h⟩

theorem utf8_digits (b : UInt8) :
    ∃ high low, (digits b).flatMap String.utf8EncodeChar = [high, low] ∧
      digitValue? high = some (b.toNat / 16) ∧ digitValue? low = some (b.toNat % 16) := by
  have hb := b.toNat_lt
  obtain ⟨high, hh, hv⟩ := digit_spells (b.toNat / 16) (by omega)
  obtain ⟨low, hl, hw⟩ := digit_spells (b.toNat % 16) (by omega)
  exact ⟨high, low, by simp [digits, hh, hl], hv, hw⟩

theorem length_utf8_encode (bs : Bytes) : (utf8 (encode bs)).length = 2 * bs.length := by
  rw [encode, utf8_ofList]
  induction bs with
  | nil => rfl
  | cons b rest ih =>
    obtain ⟨high, low, h, -⟩ := utf8_digits b
    rw [chars_cons, List.flatMap_append, List.length_append, ih, h]
    simp; omega

theorem decodePairs_utf8_encode (position : Nat) (bs : Bytes) :
    decodePairs position (utf8 (encode bs)) = .ok bs := by
  rw [encode, utf8_ofList]
  induction bs generalizing position with
  | nil => rfl
  | cons b rest ih =>
    obtain ⟨high, low, h, hv, hw⟩ := utf8_digits b
    have hb : 16 * (b.toNat / 16) + b.toNat % 16 = b.toNat := by omega
    rw [chars_cons, List.flatMap_append, h]
    simp [decodePairs, hv, hw, ih, hb, Except.map]

/-- What is written is read back. -/
theorem decode_encode (bs : Bytes) : decode (encode bs) = .ok bs := by
  simp only [decode, decodeBytes, decodePairs_utf8_encode, length_utf8_encode]
  simp

/-- A text without one leading `0x`. -/
def unmarked (s : String) : String :=
  match s.toList with
  | '0' :: 'x' :: rest => String.ofList rest
  | _ => s

/-- A byte string as digits behind `0x`. -/
def marked (bs : Bytes) : String := "0x" ++ encode bs

theorem toList_marked (bs : Bytes) : (marked bs).toList = '0' :: 'x' :: chars bs := by
  simp [marked, encode]

@[simp] theorem unmarked_marked (bs : Bytes) : unmarked (marked bs) = encode bs := by
  simp [unmarked, toList_marked, encode]

end SelectiveDisclosure.Hex
