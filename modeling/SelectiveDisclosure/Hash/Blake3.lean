import SelectiveDisclosure.Bytes
import SelectiveDisclosure.Hash.Lanes

/-!
# BLAKE3

The hash function BLAKE3 without a key and with an output of 32 bytes. A message is cut into chunks
of 1024 bytes, each chunk is folded block by block, and the chunks are joined in a binary tree.

## Main definitions

* `Blake3.hash` — the hash of a byte string.
* `Blake3.Node` — a compression whose role in the tree is not settled yet.

## Main results

* `Blake3.length_hash` — the output is 32 bytes long.

## Implementation notes

The left part of every tree holds the greatest power of two of its chunks. Joining neighbours level
by level, and carrying a last node without a neighbour up unchanged, builds the same tree.
-/

namespace SelectiveDisclosure.Hash.Blake3

/-- Eight words: a chaining value. -/
structure Chain where
  low : Lanes UInt32
  high : Lanes UInt32
  deriving DecidableEq, Repr

/-- The starting values. -/
def iv : Chain :=
  ⟨⟨0x6a09e667, 0xbb67ae85, 0x3c6ef372, 0xa54ff53a⟩,
    ⟨0x510e527f, 0x9b05688c, 0x1f83d9ab, 0x5be0cd19⟩⟩

/-- Where each word of the message stands in the next round. -/
def permutation : List Nat := [2, 6, 3, 10, 7, 0, 4, 13, 1, 11, 12, 5, 9, 14, 15, 8]

/-- Marks the first block of a chunk. -/
def chunkStart : UInt32 := 1

/-- Marks the last block of a chunk. -/
def chunkEnd : UInt32 := 2

/-- Marks the joining of two nodes. -/
def parent : UInt32 := 4

/-- Marks the compression that gives the output. -/
def root : UInt32 := 8

/-- A word turned to the right by `n` bits, for `n` from 1 to 31. -/
def rotr (w n : UInt32) : UInt32 := (w >>> n) ||| (w <<< (32 - n))

/-- Mixes a column with two words of the message. -/
def mix : Square.Mixer UInt32 := fun a b c d x y =>
  let a := a + b + x
  let d := rotr (d ^^^ a) 16
  let c := c + d
  let b := rotr (b ^^^ c) 12
  let a := a + b + y
  let d := rotr (d ^^^ a) 8
  let c := c + d
  let b := rotr (b ^^^ c) 7
  (a, b, c, d)

/-- `rounds` rounds, the words of the message being moved about between them. -/
def mixAll : (rounds : Nat) → Square UInt32 → List UInt32 → Square UInt32
  | 0, s, _ => s
  | rounds + 1, s, m =>
    mixAll rounds (s.round mix m) (permutation.map fun i => m.getD i 0)

/-- A compression that has been set up but not carried out: only its place in the tree decides
whether it is the root. -/
structure Node where
  chain : Chain
  message : List UInt32
  chunk : Nat
  length : UInt32
  flags : UInt32

/-- Carries the compression out. -/
def Node.compress (n : Node) (extra : UInt32) : Chain :=
  let last := mixAll 7 ⟨n.chain.low, n.chain.high, iv.low,
    ⟨UInt32.ofNat n.chunk, UInt32.ofNat (n.chunk >>> 32), n.length, n.flags ||| extra⟩⟩ n.message
  ⟨last.a.zipWith (· ^^^ ·) last.c, last.b.zipWith (· ^^^ ·) last.d⟩

/-- The sixteen words of a block, filled up with zero bytes. -/
def words (block : Bytes) : List UInt32 :=
  (Bytes.firstPieces 4 16 block).map fun piece => UInt32.ofNat piece.toNatLE

/-- The node of a chunk whose blocks are folded into `chain` from the left. -/
def chunkNode (chunk : Nat) : (flags : UInt32) → Chain → List Bytes → Node
  | flags, chain, [] => ⟨chain, words [], chunk, 0, flags ||| chunkEnd⟩
  | flags, chain, [block] =>
    ⟨chain, words block, chunk, UInt32.ofNat block.length, flags ||| chunkEnd⟩
  | flags, chain, block :: rest =>
    let node : Node := ⟨chain, words block, chunk, UInt32.ofNat block.length, flags⟩
    chunkNode chunk 0 (node.compress 0) rest

/-- The node that joins two others. -/
def joined (l r : Node) : Node :=
  let l := l.compress 0
  let r := r.compress 0
  ⟨iv, l.low.toList ++ l.high.toList ++ r.low.toList ++ r.high.toList, 0, 64, parent⟩

/-- Joins neighbours; a last node without a neighbour stays. -/
def joinPairs : List Node → List Node
  | l :: r :: rest => joined l r :: joinPairs rest
  | rest => rest

/-- Joins nodes level by level until one is left. -/
def top (first : Node) : (levels : Nat) → List Node → Node
  | 0, nodes => nodes.headD first
  | levels + 1, nodes => top first levels (joinPairs nodes)

/-- The nodes of the chunks of a message, from chunk number `chunk` on. -/
def chunkNodes : (chunk : Nat) → List Bytes → List Node
  | _, [] => []
  | chunk, piece :: rest =>
    chunkNode chunk chunkStart iv (piece.pieces 64) :: chunkNodes (chunk + 1) rest

/-- The hash of a byte string. -/
def hash (message : Bytes) : Bytes :=
  let nodes := chunkNodes 0 (message.pieces 1024)
  let last := (top (chunkNode 0 chunkStart iv []) nodes.length nodes).compress root
  (last.low.toList ++ last.high.toList).flatMap fun w => Bytes.ofNatLE 4 w.toNat

@[simp] theorem length_hash (message : Bytes) : (hash message).length = 32 := by
  simp [hash, Lanes.toList]

end SelectiveDisclosure.Hash.Blake3
