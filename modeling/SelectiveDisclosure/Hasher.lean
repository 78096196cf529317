import SelectiveDisclosure.Digest
import SelectiveDisclosure.Hash.Blake2b
import SelectiveDisclosure.Hash.Blake3

/-!
# The hash a commitment is made with

Statements and root hashes are hashed with one function from byte strings to digests. Everything
that issues or verifies takes it as a parameter, and issuer and verifier have to agree on it.

## Main definitions

* `Hasher` — a hash function with 32 bytes of output.
* `Hasher.blake2b`, `Hasher.blake3` — the two in use.
-/

namespace SelectiveDisclosure

/-- A hash function with 32 bytes of output. -/
structure Hasher where
  hash : Bytes → Digest

namespace Hasher

/-- The hash of byte strings laid end to end. -/
def hashAll (h : Hasher) (parts : List Bytes) : Digest := h.hash parts.flatten

/-- BLAKE2b with an output of 32 bytes. -/
def blake2b : Hasher :=
  ⟨fun message => ⟨Hash.Blake2b.hash 32 message, by simp [Hash.Blake2b.length_hash]⟩⟩

/-- BLAKE3. -/
def blake3 : Hasher := ⟨fun message => ⟨Hash.Blake3.hash message, by simp⟩⟩

end Hasher

end SelectiveDisclosure
