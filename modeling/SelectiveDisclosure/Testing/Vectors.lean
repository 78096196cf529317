import SelectiveDisclosure.Credential.Basic
import SelectiveDisclosure.Json.Document

/-!
# Reference vectors

Credentials and identifiers that are written down in full, so that any implementation can be checked
to make the same bytes.

## Main definitions

* `CredentialVector`, `CodecVector` — an input and what should come of it.
* `CredentialVector.issue` — the credential that a vector describes.
* `CodecVector.check` — encodes and decodes an identifier vector.
* `credentialVectors`, `codecVectors` — the vectors.
* `VectorFault` — what can be wrong with a vector.
-/

namespace SelectiveDisclosure

/-- A property of a vector: its name, its value as JSON text, and the nonce of its statement. -/
structure VectorProperty where
  name : String
  value : String
  nonce : String

/-- A credential with fixed nonces, its root hash and its identifier. -/
structure CredentialVector where
  name : String
  schema : String
  properties : List VectorProperty
  root : String
  identifier : String

/-- A payload and a kind, and the identifier that they make. -/
structure CodecVector where
  name : String
  /-- The payload in hexadecimal digits. -/
  payload : String
  kind : Nat
  expected : String

/-- What can be wrong with a vector. -/
inductive VectorFault where
  /-- The value of a property is not JSON. -/
  | value (vector property : String)
  | core (fault : Fault)
  /-- The credential of the vector cannot be issued. -/
  | inVector (vector : String) (fault : Fault)
  /-- The payload is not hexadecimal. -/
  | payloadDigits (problem : Hex.Problem)
  /-- The identifier is another. -/
  | encoded (vector found expected : String)
  /-- The identifier decodes to another payload. -/
  | decoded (vector : String)

namespace VectorFault

/-- A vector, as it is named in a report. -/
def named (vector : String) : String := "vector " ++ Text.quoted vector

/-- The text of a fault. -/
def message : VectorFault → String
  | value vector property => named vector ++ ": property " ++ property
  | core fault => fault.message
  | inVector vector _ => named vector
  | payloadDigits problem => problem.message
  | encoded vector found expected =>
    named vector ++ ": encoded " ++ found ++ ", expected " ++ expected
  | decoded vector => named vector ++ ": payload did not round-trip"

/-- The fault at the bottom. -/
def fault? : VectorFault → Option Fault
  | core fault | inVector _ fault => some fault
  | value _ _ | payloadDigits _ | encoded _ _ _ | decoded _ => none

end VectorFault

/-- The issuer of credentials made for tests. -/
def testIssuer : String := "did:cord:issuer"

namespace CredentialVector

/-- The properties with their values read. -/
def values (v : CredentialVector) : Except VectorFault (List (VectorProperty × Json)) :=
  v.properties.mapM fun p =>
    match Json.ofText? p.value with
    | some value => .ok (p, value)
    | none => .error (.value v.name p.name)

/-- The nonces under the digests of their statements. -/
def nonceMap (schema : String) :
    NonceMap → List (VectorProperty × Json) → Except Fault NonceMap
  | nonces, [] => .ok nonces
  | nonces, (p, value) :: rest => do
    let s ← Statement.ofProperty schema p.name value
    nonceMap schema (nonces.insert (s.digest .blake2b) p.nonce) rest

/-- The credential that a vector describes. -/
def issue (v : CredentialVector) : Except VectorFault Credential := do
  let values ← v.values
  let content := Content.ofProperties v.schema testIssuer none
    (values.map fun e => (e.1.name, e.2))
  let nonces ← (nonceMap v.schema .empty values).mapError .core
  (Credential.issueRecorded .blake2b nonces content).mapError (.inVector v.name)

/-- Whether a credential is the one that a vector expects. -/
def isMatch (v : CredentialVector) (c : Credential) : Bool :=
  c.root.toHex = v.root && c.identifier = v.identifier

end CredentialVector

namespace CodecVector

/-- Encodes the payload and decodes the identifier. -/
def check (v : CodecVector) : Except VectorFault Unit := do
  let payload ← (Hex.decode v.payload).mapError .payloadDigits
  let encoded ← (Codec.encode payload v.kind).mapError fun problem =>
    .core (.invalidIdentifier problem.message)
  if encoded ≠ v.expected then .error (.encoded v.name encoded v.expected)
  else
    let decoded ← (Identifier.decode v.expected (.ofKind v.kind)).mapError .core
    if decoded.payload ≠ payload then .error (.decoded v.name) else .ok ()

end CodecVector

/-- The reference credentials. -/
def credentialVectors : List CredentialVector := [
  { name := "single name statement"
    schema := "schema:cord:abc"
    properties := [⟨"name", "\"Alice\"", "n1"⟩]
    root := "48d156db7656b07224f8eca0f568a264313708ff507291085cbc008ffd4b5b0e"
    identifier := "gvio9YJuy6rtZVLLFotdZAywwbuy1VAU6MGjH7f6vmutRB6W8" },
  { name := "name and age statements"
    schema := "schema:cord:abc"
    properties := [⟨"name", "\"Alice\"", "n1"⟩, ⟨"age", "29", "n2"⟩]
    root := "b3acb0ac17a19352b3dd763796ba9ad67bd14a2b0ff96e1787f1ad95c14ab768"
    identifier := "gvmDFn2oGKWZ8ywvrAReu3ZHPwRhYsBbaMAGvSA5UVUAkECCe" }]

/-- The digits of 32 zero bytes. -/
def zeroDigits : String := Digest.zero.toHex

/-- The reference identifiers. -/
def codecVectors : List CodecVector := [
  { name := "sr25519 public key, kind 42"
    payload := "d43593c715fdd31c61141abd04a99fd6822c8558854ccde39a5684e7a56da27d"
    kind := 42
    expected := "5GrwvaEF5zXb26Fz9rcQpDWS57CtERHpNehXCPcNoHGKutQY" },
  { name := "zero digest, credential kind"
    payload := zeroDigits
    kind := 10346
    expected := "gvh9fuWbxTAjHjHo1D9YEUb6vG5mJkLEck7x9KiacjgoUVdXY" },
  { name := "zero digest, schema kind"
    payload := zeroDigits
    kind := 8902
    expected := "s3bfcK1KT4V8WQZMcin3wZ5QPnAtuaKvAGeWS85RcDGKbt6CN" },
  { name := "zero digest, space kind"
    payload := zeroDigits
    kind := 3390
    expected := "c323M2zJip2EuhQfADWVhwf1pqbDKiJ6rU2xsDXBdNhKCP8Go" },
  { name := "one byte, kind 0", payload := "01", kind := 0, expected := "17z" },
  { name := "eight bytes, kind 42"
    payload := "0001020304050607"
    kind := 42
    expected := "3MrpX7cscKfRue" }]

end SelectiveDisclosure
