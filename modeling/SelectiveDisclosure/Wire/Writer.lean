import SelectiveDisclosure.Json.Printer
import SelectiveDisclosure.Presentation

/-!
# Records as JSON

Contents, credentials and presentations are exchanged as JSON objects. Members stand in the order of
the fields below, a holder, signature or challenge that is absent has no member, and digests and
signatures are hexadecimal digits behind `0x`.

## Main definitions

* `Content.toJson`, `Credential.toJson`, `Presentation.toJson` — the objects.
* `Content.wire`, `Credential.wire`, `Presentation.wire` — their texts.
-/

namespace SelectiveDisclosure

/-- A member that is left out if it has no value. -/
def Json.memberIf {α : Type} (name : String) (value : Option α) (f : α → Json) :
    List (String × Json) :=
  match value with
  | none => []
  | some a => [(name, f a)]

/-- A digest as JSON. -/
def Digest.toJson (d : Digest) : Json := .string d.text

/-- A list of digests as JSON. -/
def Digest.listToJson (ds : List Digest) : Json := .array (ds.map (·.toJson))

/-- A nonce map as JSON. -/
def NonceMap.toJson (nonces : NonceMap) : Json :=
  .object (nonces.entries.map fun e => (e.1.text, .string e.2))

/-- A content as JSON. -/
def Content.toJson (c : Content) : Json :=
  .object ([("schemaUri", .string c.schema), ("issuerUri", .string c.issuer)] ++
    Json.memberIf "holderUri" c.holder .string ++
    [("contents", .object (c.properties.entries.map fun e => (e.1, e.2.json)))])

namespace Credential

mutual

/-- A credential as JSON. -/
def toJson : Credential → Json
  | ⟨content, hashes, nonces, evidence, root, identifier⟩ =>
    .object [("content", content.toJson), ("contentHashes", Digest.listToJson hashes),
      ("contentNonceMap", NonceMap.toJson nonces), ("evidenceIds", .array (toJsons evidence)),
      ("rootHash", root.toJson), ("identifier", .string identifier)]

/-- Each credential of a list as JSON. -/
def toJsons : List Credential → List Json
  | [] => []
  | c :: rest => c.toJson :: toJsons rest

end

end Credential

/-- A signature with its key URI as JSON. -/
def SignedBy.toJson (s : SignedBy) : Json :=
  .object [("keyUri", .string s.keyUri), ("signature", .string s.signature.text)]

/-- A presentation as JSON. -/
def Presentation.toJson (p : Presentation) : Json :=
  .object ([("credentials", .array (Credential.toJsons p.credentials))] ++
    Json.memberIf "signature" p.signature (·.toJson) ++
    Json.memberIf "challenge" p.challenge .string)

/-- The text of a content. -/
def Content.wire (c : Content) : String := c.toJson.text

/-- The text of a credential. -/
def Credential.wire (c : Credential) : String := c.toJson.text

/-- The text of a presentation. -/
def Presentation.wire (p : Presentation) : String := p.toJson.text

end SelectiveDisclosure
