import SelectiveDisclosure.Digest
import SelectiveDisclosure.Ed25519.Curve
import SelectiveDisclosure.Fault
import SelectiveDisclosure.Hash.Sha512

/-!
# Ed25519 signatures

Keys, signatures and their texts. A public key is any 32 bytes and a signature any 64: whether the
key is a point of the curve comes out only when something is verified with it.

Verification recomputes the first half of the signature and compares it byte by byte. The scalar in
the second half has to be below the order of the base point. The cofactor is not cleared, and keys
of low order are allowed.

## Main definitions

* `PublicKey`, `Signature`, `KeyPair` — keys and signatures.
* `PublicKey.verify` — checks a signature.
* `KeyPair.sign` — signs a message.

## Implementation notes

The lengths are part of the types, so both forms have a fixed size.
-/

namespace SelectiveDisclosure

/-- The form of a public key: 32 bytes. -/
structure PublicKey where
  bytes : Bytes
  length_bytes : bytes.length = 32

theorem PublicKey.ext_bytes {a b : PublicKey} (h : a.bytes = b.bytes) : a = b := by
  cases a; cases b; congr

instance : DecidableEq PublicKey := fun a b =>
  decidable_of_iff (a.bytes = b.bytes) ⟨PublicKey.ext_bytes, congrArg PublicKey.bytes⟩

/-- A signature: the form of a point and a scalar, 32 bytes each. -/
structure Signature where
  bytes : Bytes
  length_bytes : bytes.length = 64
  deriving DecidableEq

/-- A key pair, given by the seed that both keys are made from. -/
structure KeyPair where
  seed : Bytes
  deriving DecidableEq

namespace PublicKey

/-- The 64 lowercase hexadecimal digits. -/
def toHex (key : PublicKey) : String := Hex.encode key.bytes

/-- Reads hexadecimal digits, with or without one leading `0x`. -/
def ofHex (s : String) : Except Fault PublicKey :=
  match Hex.decode (Hex.unmarked s) with
  | .error _ => .error .invalidPublicKey
  | .ok bs => if h : bs.length = 32 then .ok ⟨bs, h⟩ else .error .invalidPublicKey

end PublicKey

namespace Signature

/-- The digits behind `0x`. -/
def text (s : Signature) : String := Hex.marked s.bytes

/-- The 128 lowercase hexadecimal digits. -/
def toHex (s : Signature) : String := Hex.encode s.bytes

/-- Reads hexadecimal digits, with or without one leading `0x`. -/
def ofHex (s : String) : Except Fault Signature :=
  match Hex.decode (Hex.unmarked s) with
  | .error problem => .error (.encoding problem.message)
  | .ok bs =>
    if h : bs.length = 64 then .ok ⟨bs, h⟩ else .error (.encoding "signature must be 64 bytes")

end Signature

/-- The scalar that a message is bound to: the hash of the first half of the signature, the key and
the message. -/
def challengeScalar (commitment key message : Bytes) : Nat :=
  (Hash.Sha512.hash (commitment ++ key ++ message)).toNatLE % Ed25519.order

/-- Checks a signature over a message. -/
def PublicKey.verify (key : PublicKey) (message : Bytes) (signature : Signature) :
    Except Fault Unit :=
  match Ed25519.Point.decompress? key.bytes with
  | none => .error .invalidPublicKey
  | some a =>
    let commitment := signature.bytes.take 32
    let scalar := Bytes.toNatLE (signature.bytes.drop 32)
    let k := challengeScalar commitment key.bytes message
    let recomputed := (Ed25519.Point.scale scalar .base).add (Ed25519.Point.scale k a.neg)
    if scalar < Ed25519.order ∧ recomputed.compress = commitment then .ok ()
    else .error .invalidSignature

namespace KeyPair

/-- The two halves of the hash of the seed. -/
def expanded (pair : KeyPair) : Bytes × Bytes := (Hash.Sha512.hash pair.seed).splitAt 32

/-- The secret scalar: the first half with the three lowest bits and the highest cleared and the
second highest set. -/
def scalar (pair : KeyPair) : Nat :=
  let n := pair.expanded.1.toNatLE
  n % Nat.pow 2 254 / 8 * 8 + Nat.pow 2 254

/-- The public key. -/
def publicKey (pair : KeyPair) : PublicKey :=
  ⟨(Ed25519.Point.scale pair.scalar .base).compress, by simp⟩

/-- The signature over a message. -/
def sign (pair : KeyPair) (message : Bytes) : Signature :=
  let r := (Hash.Sha512.hash (pair.expanded.2 ++ message)).toNatLE % Ed25519.order
  let commitment := (Ed25519.Point.scale r .base).compress
  let k := challengeScalar commitment pair.publicKey.bytes message
  ⟨commitment ++ Bytes.ofNatLE 32 ((r + k * pair.scalar) % Ed25519.order), by
    simp [commitment]⟩

end KeyPair

end SelectiveDisclosure
