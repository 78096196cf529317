import SelectiveDisclosure.Digest
import SelectiveDisclosure.Identifier.Codec

/-!
# Identifiers

Of all the kinds that the codec can carry, six are registered, each with a beginning for its URIs.
An identifier has a registered kind and is known by its text.

## Main definitions

* `Kind` — the registered kinds.
* `Identifier` — a kind and a text that decodes to it.
* `Identifier.ofDigest`, `parse`, `parseAs`, `ofUri` — the ways to come by one.
* `Identifier.digest`, `Identifier.uri` — what it says.

## Main results

* `Identifier.encode_digest` — a digest can be encoded under every registered kind.
-/

namespace SelectiveDisclosure

/-- The registered kinds of identifiers. -/
inductive Kind where
  | credential
  | schema
  | space
  | statement
  | score
  | authorization
  deriving DecidableEq, Repr

namespace Kind

/-- All registered kinds. -/
def all : List Kind := [.credential, .schema, .space, .statement, .score, .authorization]

/-- The number that the codec carries. -/
def tag : Kind → Nat
  | credential => 10346
  | schema => 8902
  | space => 3390
  | statement => 4126
  | score => 6077
  | authorization => 2092

/-- The registered kind with a number. -/
def ofTag? (tag : Nat) : Option Kind := all.find? (·.tag = tag)

/-- What a URI of this kind begins with. -/
def uriStart : Kind → String
  | credential => "credential:cord:"
  | schema => "schema:cord:"
  | space => "space:cord:"
  | statement => "stmt:cord:"
  | score => "score:cord:"
  | authorization => "auth:cord:"

theorem mem_all (k : Kind) : k ∈ all := by cases k <;> decide

@[simp] theorem ofTag?_tag (k : Kind) : ofTag? k.tag = some k := by cases k <;> decide

theorem tag_inj {k k' : Kind} (h : k.tag = k'.tag) : k = k' := by
  have := congrArg ofTag? h
  simpa using this

end Kind

/-- A text that stands for something of a registered kind. -/
structure Identifier where
  kind : Kind
  text : String
  deriving DecidableEq, Repr

namespace Identifier

/-- The fault that a text cannot be decoded. -/
def fault (s : String) (problem : Codec.DecodeProblem) : Fault :=
  .invalidIdentifier (problem.message s)

/-- The identifier of a digest. -/
def ofDigest (kind : Kind) (d : Digest) : Identifier :=
  ⟨kind, Base58.encode (Codec.pack kind.tag d.bytes)⟩

/-- A digest can be encoded under every registered kind. -/
theorem encode_digest (kind : Kind) (d : Digest) :
    Codec.encode d.bytes kind.tag = .ok (ofDigest kind d).text := by
  rw [Codec.encode_eq_ok_iff, d.length_bytes]
  exact ⟨by cases kind <;> decide, rfl⟩

/-- Decodes a text. -/
def decode (s : String) (options : Codec.Options) : Except Fault Codec.Decoded :=
  (Codec.decode s options).mapError (fault s)

/-- Reads an identifier of any registered kind. -/
def parse (s : String) : Except Fault Identifier := do
  let decoded ← decode s .standard
  match Kind.ofTag? decoded.kind with
  | some kind => .ok ⟨kind, s⟩
  | none => .error (.invalidIdentifier (s ++ ": unknown kind " ++ toString decoded.kind))

/-- Reads an identifier of one kind. -/
def parseAs (s : String) (kind : Kind) : Except Fault Identifier := do
  let _ ← decode s (.ofKind kind.tag)
  return ⟨kind, s⟩

/-- Reads an identifier of one kind from its URI. -/
def ofUri (uri : String) (kind : Kind) : Except Fault Identifier :=
  if kind.uriStart.toList.isPrefixOf uri.toList then
    parseAs (String.ofList (uri.toList.drop kind.uriStart.length)) kind
  else .error (.invalidIdentifier (uri ++ ": missing " ++ kind.uriStart ++ " prefix"))

/-- The payload as a digest. -/
def digest (id : Identifier) : Except Fault Digest := do
  let decoded ← decode id.text .standard
  match Digest.ofBytes? decoded.payload with
  | some d => .ok d
  | none => .error (.invalidIdentifier (id.text ++ ": payload is not a digest"))

/-- The URI. -/
def uri (id : Identifier) : String := id.kind.uriStart ++ id.text

end Identifier

end SelectiveDisclosure
