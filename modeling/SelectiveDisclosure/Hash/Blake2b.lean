import SelectiveDisclosure.Bytes
import SelectiveDisclosure.Hash.Lanes

/-!
# BLAKE2b

The hash function BLAKE2b without a key, for any output of 1 to 64 bytes. The output length is part
of the starting state, so a short output is no shortened long one.

## Main definitions

* `Blake2b.hash` — the hash of a byte string.

## Main results

* `Blake2b.length_hash` — the output has the length asked for.
-/

namespace SelectiveDisclosure.Hash.Blake2b

/-- The first half of the starting values. -/
def ivLow : Lanes UInt64 :=
  ⟨0x6a09e667f3bcc908, 0xbb67ae8584caa73b,
    0x3c6ef372fe94f82b, 0xa54ff53a5f1d36f1⟩

/-- The second half of the starting values. -/
def ivHigh : Lanes UInt64 :=
  ⟨0x510e527fade682d1, 0x9b05688c2b3e6c1f,
    0x1f83d9abfb41bd6b, 0x5be0cd19137e2179⟩

/-- The order in which each round reads the words of the message. -/
def schedule : List (List Nat) := [
  [0, 1, 2, 3, 4, 5, 6, 7, 8, 9, 10, 11, 12, 13, 14, 15],
  [14, 10, 4, 8, 9, 15, 13, 6, 1, 12, 0, 2, 11, 7, 5, 3],
  [11, 8, 12, 0, 5, 2, 15, 13, 10, 14, 3, 6, 7, 1, 9, 4],
  [7, 9, 3, 1, 13, 12, 11, 14, 2, 6, 5, 10, 4, 0, 15, 8],
  [9, 0, 5, 7, 2, 4, 10, 15, 14, 1, 11, 12, 6, 8, 3, 13],
  [2, 12, 6, 10, 0, 11, 8, 3, 4, 13, 7, 5, 15, 14, 1, 9],
  [12, 5, 1, 15, 14, 13, 4, 10, 0, 7, 6, 3, 9, 2, 8, 11],
  [13, 11, 7, 14, 12, 1, 3, 9, 5, 0, 15, 4, 8, 6, 2, 10],
  [6, 15, 14, 9, 11, 3, 0, 8, 12, 2, 13, 7, 1, 4, 10, 5],
  [10, 2, 8, 4, 7, 6, 1, 5, 15, 11, 9, 14, 3, 12, 13, 0],
  [0, 1, 2, 3, 4, 5, 6, 7, 8, 9, 10, 11, 12, 13, 14, 15],
  [14, 10, 4, 8, 9, 15, 13, 6, 1, 12, 0, 2, 11, 7, 5, 3]]

/-- A word turned to the right by `n` bits, for `n` from 1 to 63. -/
def rotr (w n : UInt64) : UInt64 := (w >>> n) ||| (w <<< (64 - n))

/-- Mixes a column with two words of the message. -/
def mix : Square.Mixer UInt64 := fun a b c d x y =>
  let a := a + b + x
  let d := rotr (d ^^^ a) 32
  let c := c + d
  let b := rotr (b ^^^ c) 24
  let a := a + b + y
  let d := rotr (d ^^^ a) 16
  let c := c + d
  let b := rotr (b ^^^ c) 63
  (a, b, c, d)

/-- The chaining value and the number of bytes that went into it. -/
structure State where
  low : Lanes UInt64
  high : Lanes UInt64
  count : Nat

/-- The starting state for an output of `size` bytes. -/
def State.start (size : Nat) : State :=
  ⟨⟨ivLow.w0 ^^^ 0x01010000 ^^^ UInt64.ofNat size, ivLow.w1, ivLow.w2, ivLow.w3⟩, ivHigh, 0⟩

/-- The sixteen words of a block, filled up with zero bytes. -/
def words (block : Bytes) : List UInt64 :=
  (Bytes.firstPieces 8 16 block).map fun piece => UInt64.ofNat piece.toNatLE

/-- Takes in one block; `final` marks the last. -/
def State.absorb (final : Bool) (s : State) (block : Bytes) : State :=
  let count := s.count + block.length
  let m := words block
  let start : Square UInt64 := ⟨s.low, s.high, ivLow,
    ⟨ivHigh.w0 ^^^ UInt64.ofNat count, ivHigh.w1 ^^^ UInt64.ofNat (count >>> 64),
      if final then ~~~ivHigh.w2 else ivHigh.w2, ivHigh.w3⟩⟩
  let last := schedule.foldl (fun sq order => sq.round mix (order.map fun i => m.getD i 0)) start
  let fold (h u v : Lanes UInt64) := (h.zipWith (· ^^^ ·) u).zipWith (· ^^^ ·) v
  ⟨fold s.low last.a last.c, fold s.high last.b last.d, count⟩

/-- Takes in the blocks of a message, the last of them as final. -/
def State.absorbAll (s : State) : List Bytes → State
  | [] => s.absorb true []
  | [block] => s.absorb true block
  | block :: rest => (s.absorb false block).absorbAll rest

/-- The 64 bytes of a chaining value. -/
def State.bytes (s : State) : Bytes :=
  (s.low.toList ++ s.high.toList).flatMap fun w => Bytes.ofNatLE 8 w.toNat

/-- The hash of a byte string, `size` bytes long. -/
def hash (size : Nat) (message : Bytes) : Bytes :=
  (((State.start size).absorbAll (message.pieces 128)).bytes).take size

@[simp] theorem State.length_bytes (s : State) : s.bytes.length = 64 := by
  simp [bytes, Lanes.toList]

theorem length_hash {size : Nat} (h : size ≤ 64) (message : Bytes) :
    (hash size message).length = size := by
  simp [hash, Nat.min_eq_left h]

end SelectiveDisclosure.Hash.Blake2b
