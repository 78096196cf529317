import SelectiveDisclosure.Fault
import SelectiveDisclosure.Hash.Blake2b
import SelectiveDisclosure.Text.Base58

/-!
# The identifier codec

An identifier packs a kind, which is a number up to 16383, and a short payload:

```
base58 (kind ++ payload ++ checksum)
```

Kinds below 64 take one byte. The others take two, with the second highest bit of the first set. The
checksum is the beginning of a BLAKE2b hash of a fixed text, the kind and the payload; it has two
bytes behind a payload of 32 or 33 bytes and one byte behind a shorter one.

Nothing in the packed form says where the payload begins or ends. The decoder infers it from the
first byte and the total length, which is why only some lengths can be used, and fewer of them with
kinds of two bytes.

## Main definitions

* `Codec.pack` — kind, payload and checksum as bytes.
* `Codec.encode` — the text of a payload under a kind, or a `Codec.EncodeProblem`.
* `Codec.decode` — the kind and payload of a text, or a `Codec.DecodeProblem`.

## Main results

* `Codec.Carries`, `Codec.encode_eq_ok_iff` — which payloads can be encoded under which kinds.
-/

namespace SelectiveDisclosure.Codec

/-- The lengths that a payload may have. -/
def payloadLengths : List Nat := [1, 2, 4, 8, 32, 33]

/-- The lengths that a packed form may have. -/
def packedLengths : List Nat := [3, 4, 6, 10, 35, 36, 37, 38]

/-- The greatest kind. -/
def maxKind : Nat := 16383

/-- Kinds that are never used. -/
def reservedKinds : List Nat := [46, 47]

/-- What is hashed in front of kind and payload for the checksum. -/
def checksumDomain : Bytes := utf8 "SS58PRE"

/-- The hash that checksums are the beginnings of. -/
def checksum (body : Bytes) : Bytes := Hash.Blake2b.hash 64 (checksumDomain ++ body)

/-- The length of the checksum behind a payload. -/
def checksumLength (payload : Nat) : Nat := if payload = 32 ∨ payload = 33 then 2 else 1

/-- The bytes of a kind. -/
def packKind (kind : Nat) : Bytes :=
  if kind < 64 then [UInt8.ofNat kind]
  else [UInt8.ofNat (64 + kind / 4 % 64), UInt8.ofNat (kind / 256 + kind % 4 * 64)]

/-- Kind, payload and the beginning of the checksum. -/
def pack (kind : Nat) (payload : Bytes) : Bytes :=
  let body := packKind kind ++ payload
  body ++ (checksum body).take (checksumLength payload.length)

/-! ### Encoding -/

/-- Why a payload cannot be encoded. -/
inductive EncodeProblem where
  /-- The kind is reserved or too great. -/
  | kind (kind : Nat)
  /-- No payload has this length. -/
  | length (length : Nat)
  /-- The packed form of this kind and length could not be decoded. -/
  | combination (kind length : Nat)
  deriving DecidableEq, Repr

/-- The text of a problem. -/
def EncodeProblem.message : EncodeProblem → String
  | .kind k => "kind " ++ toString k ++ " is reserved or out of range"
  | .length n =>
    "payload length " ++ toString n ++ " is not one of [" ++
      ", ".intercalate (payloadLengths.map toString) ++ "]"
  | .combination k n =>
    "kind " ++ toString k ++ " cannot carry a " ++ toString n ++ "-byte payload"

/-- The text of a payload under a kind. -/
def encode (payload : Bytes) (kind : Nat) : Except EncodeProblem String :=
  if maxKind < kind ∨ kind ∈ reservedKinds then .error (.kind kind)
  else if payload.length ∉ payloadLengths then .error (.length payload.length)
  else if (packKind kind).length + payload.length + checksumLength payload.length ∉ packedLengths
    then .error (.combination kind payload.length)
  else .ok (Base58.encode (pack kind payload))

/-! ### Decoding -/

/-- What a decoder asks for. -/
structure Options where
  /-- The only kind that is accepted, if there is one. -/
  expected : Option Nat
  /-- Whether the checksum may be wrong. -/
  skipChecksum : Bool

/-- Any kind, with its checksum. -/
def Options.standard : Options := ⟨none, false⟩

/-- One kind, with its checksum. -/
def Options.ofKind (kind : Nat) : Options := ⟨some kind, false⟩

/-- Why a text cannot be decoded. -/
inductive DecodeProblem where
  | base58 (problem : Base58.Problem)
  /-- No packed form has this length. -/
  | length (length : Nat)
  /-- No kind begins with this byte. -/
  | kindByte (byte : UInt8)
  /-- The payload that the length leaves is none. -/
  | payload
  | checksum
  /-- The kind is not the one that is asked for. -/
  | unexpected (expected found : Nat)
  deriving DecidableEq, Repr

/-- The text of a problem with the text `s`. -/
def DecodeProblem.message (s : String) : DecodeProblem → String
  | .base58 problem => s ++ ": " ++ problem.message
  | .length n => s ++ ": decoded length " ++ toString n ++ " is not allowed"
  | .kindByte byte => s ++ ": invalid kind prefix byte " ++ toString byte.toNat
  | .payload => s ++ ": payload length is not allowed"
  | .checksum => s ++ ": checksum mismatch"
  | .unexpected expected found =>
    s ++ ": expected kind " ++ toString expected ++ ", found " ++ toString found

/-- A kind and a payload. -/
structure Decoded where
  kind : Nat
  payload : Bytes
  deriving DecidableEq, Repr

/-- The number of bytes of a kind that begins with `b`. -/
def kindLength (b : UInt8) : Nat := if b.toNat / 64 % 2 = 1 then 2 else 1

/-- The kind that begins a packed form. -/
def kindOf (packed : Bytes) : Nat :=
  let b0 := (packed.getD 0 0).toNat
  let b1 := (packed.getD 1 0).toNat
  if kindLength (packed.getD 0 0) = 1 then b0 else b0 % 64 * 4 + b1 / 64 + b1 % 64 * 256

/-- Takes a packed form apart. -/
def unpack (options : Options) (packed : Bytes) : Except DecodeProblem Decoded :=
  if packed.length ∉ packedLengths then .error (.length packed.length)
  else
    let b0 := packed.getD 0 0
    if 128 ≤ b0.toNat ∨ b0.toNat ∈ reservedKinds then .error (.kindByte b0)
    else
      let kindLength := kindLength b0
      let kind := kindOf packed
      let sumLength :=
        if packed.length = 34 + kindLength ∨ packed.length = 35 + kindLength then 2 else 1
      let bodyLength := packed.length - sumLength
      if bodyLength ≤ kindLength ∨ bodyLength - kindLength ∉ payloadLengths then .error .payload
      else if options.skipChecksum = false ∧
          packed.drop bodyLength ≠ (checksum (packed.take bodyLength)).take sumLength then
        .error .checksum
      else
        match options.expected with
        | some expected =>
          if kind ≠ expected then .error (.unexpected expected kind)
          else .ok ⟨kind, (packed.take bodyLength).drop kindLength⟩
        | none => .ok ⟨kind, (packed.take bodyLength).drop kindLength⟩

/-- The kind and payload of a text. -/
def decode (s : String) (options : Options) : Except DecodeProblem Decoded :=
  match Base58.decode s with
  | .error problem => .error (.base58 problem)
  | .ok packed => unpack options packed

/-! ### Lengths -/

theorem length_packKind (kind : Nat) : (packKind kind).length = if kind < 64 then 1 else 2 := by
  by_cases h : kind < 64 <;> simp [packKind, h]

/-- Whether a kind carries payloads of a length: the kind is in range and not reserved, and payloads
of 2, 4 and 8 bytes go with kinds of one byte only. -/
def Carries (kind length : Nat) : Prop :=
  kind ≤ 16383 ∧ kind ≠ 46 ∧ kind ≠ 47 ∧
    length ∈ (if kind < 64 then [1, 2, 4, 8, 32, 33] else [1, 32, 33])

instance (kind length : Nat) : Decidable (Carries kind length) :=
  inferInstanceAs (Decidable (_ ∧ _))

theorem carries_iff {kind length : Nat} :
    Carries kind length ↔ ¬(maxKind < kind ∨ kind ∈ reservedKinds) ∧ length ∈ payloadLengths ∧
      (if kind < 64 then 1 else 2) + length + checksumLength length ∈ packedLengths := by
  have hk : ¬(maxKind < kind ∨ kind ∈ reservedKinds) ↔ kind ≤ 16383 ∧ kind ≠ 46 ∧ kind ≠ 47 := by
    simp only [maxKind, reservedKinds, List.mem_cons, List.not_mem_nil, or_false, not_or,
      Nat.not_lt]
  rw [Carries, hk, and_assoc, and_assoc]
  refine and_congr_right fun _ => and_congr_right fun _ => and_congr_right fun _ => ?_
  by_cases h : kind < 64
  · simp only [h, if_true, payloadLengths]
    refine ⟨fun hl => ⟨hl, ?_⟩, And.left⟩
    simp only [List.mem_cons, List.not_mem_nil, or_false] at hl
    rcases hl with rfl | rfl | rfl | rfl | rfl | rfl <;> decide
  · simp only [h, if_false, payloadLengths]
    constructor
    · intro hl
      simp only [List.mem_cons, List.not_mem_nil, or_false] at hl
      rcases hl with rfl | rfl | rfl <;> decide
    · rintro ⟨hl, hp⟩
      simp only [List.mem_cons, List.not_mem_nil, or_false] at hl
      rcases hl with rfl | rfl | rfl | rfl | rfl | rfl <;> revert hp <;> decide

/-- A payload is encoded exactly if the kind carries payloads of its length. -/
theorem encode_eq_ok_iff {payload : Bytes} {kind : Nat} {s : String} :
    encode payload kind = .ok s ↔
      Carries kind payload.length ∧ s = Base58.encode (pack kind payload) := by
  rw [carries_iff, encode, length_packKind]
  generalize (if kind < 64 then 1 else 2) + payload.length + checksumLength payload.length = n
  by_cases h : maxKind < kind ∨ kind ∈ reservedKinds
  · simp [h]
  · by_cases hl : payload.length ∈ payloadLengths
    · by_cases hn : n ∈ packedLengths <;> simp [h, hl, hn, eq_comm]
    · simp [h, hl]

end SelectiveDisclosure.Codec
