import SelectiveDisclosure.Commitment

/-!
# Sources of nonces

Nonces for real credentials are random. The sources here are predictable, for tests and for records
that have to be made again. Each counts the nonces it has given, so that they all have one type.

## Main definitions

* `NonceSource.constant`, `NonceSource.fromDigest`, `NonceSource.counting` — the same nonce always,
  one made from the digest, one made from the count.
* `NonceSource.uuids` — texts in the form of random UUIDs.
* `isUuid` — a text has that form.
-/

namespace SelectiveDisclosure

namespace NonceSource

/-- Always the same nonce. -/
def constant (nonce : String) : NonceSource Nat := ⟨fun _ count => (nonce, count + 1)⟩

/-- A text and the first eight digits of the digest. -/
def fromDigest (start : String) : NonceSource Nat :=
  ⟨fun digest count => (start ++ String.ofList (digest.toHex.toList.take 8), count + 1)⟩

/-- A text and the number of nonces given before. -/
def counting (start : String) : NonceSource Nat :=
  ⟨fun _ count => (start ++ toString count, count + 1)⟩

/-- The UUID of version 4 and the usual variant with a number in its last twelve digits. -/
def uuidOf (n : Nat) : String :=
  "00000000-0000-4000-8000-" ++ Hex.encode (Bytes.ofNatBE 6 n)

/-- A new UUID each time. -/
def uuids : NonceSource Nat := ⟨fun _ count => (uuidOf count, count + 1)⟩

end NonceSource

/-- What may stand at a place of a UUID of version 4. -/
def uuidAllows (place : Nat) (c : Char) : Bool :=
  if place ∈ [8, 13, 18, 23] then c = '-'
  else if place = 14 then c = '4'
  else if place = 19 then ['8', '9', 'a', 'b'].contains c
  else ('0' ≤ c && c ≤ '9') || ('a' ≤ c && c ≤ 'f')

/-- Whether a text is a UUID of version 4 with hyphens and lowercase digits. -/
def isUuid (s : String) : Bool :=
  s.length = 36 && s.toList.zipIdx.all fun (c, place) => uuidAllows place c

end SelectiveDisclosure
