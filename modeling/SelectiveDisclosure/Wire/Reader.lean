import SelectiveDisclosure.Json.Shape
import SelectiveDisclosure.Presentation

/-!
# Reading records

The records that `Wire.Writer` writes are read back from JSON trees. The holder, the signature and
the challenge may be missing or null, the properties and the evidence may be missing. Digests must
begin with `0x`; signatures need not.

## Main definitions

* `Content.read`, `Credential.read`, `Presentation.read` — the records.
* `Digest.readTree`, `NonceMap.read`, `Signature.read`, `Identifier.read` — their parts.
* `ContentDraft`, `CredentialDraft`, `PresentationDraft`, `SignedByDraft` — records of which some
  fields have been read.

## Implementation notes

A credential is read by recursion on how deeply the tree may still nest. Evidence stands in an array
inside the object of the credential, so it has two levels less.
-/

namespace SelectiveDisclosure

/-! ### Texts in records -/

/-- A text as the digest it is in a record. -/
def Digest.ofMarked (s : String) : Except Misread Digest :=
  if ['0', 'x'].isPrefixOf s.toList then
    (Digest.ofHex s).mapError fun fault => .misfit (.fault fault)
  else .error (.misfit (.unmarkedDigest s))

/-- Reads a digest. -/
def Digest.readTree (o : Origin) (tree : Tree) : Except Misread Digest := do
  Digest.ofMarked (← o.string tree)

/-- Reads a signature. -/
def Signature.read (o : Origin) (tree : Tree) : Except Misread Signature := do
  (Signature.ofHex (← o.string tree)).mapError fun fault => .misfit (.fault fault)

/-- Reads an identifier. -/
def Identifier.read (o : Origin) (tree : Tree) : Except Misread Identifier := do
  (Identifier.parse (← o.string tree)).mapError fun fault => .misfit (.fault fault)

/-- Reads a nonce map. A name that is no digest is noticed before its value is read. -/
def NonceMap.read : Origin → Tree → Except Misread NonceMap :=
  Origin.map .empty (fun (entry : Digest × String) (map : NonceMap) => map.insert entry.1 entry.2)
    fun o name tree => do
      let digest ← Digest.ofMarked name
      return (digest, ← o.string tree)

/-- Reads the properties of a content. -/
def Value.readMap : Origin → Tree → Except Misread (OrderedMap String Value) :=
  Origin.map .empty
    (fun (entry : String × Value) (map : OrderedMap String Value) => map.insert entry.1 entry.2)
    fun o name tree => do return (name, .ofJson (← o.json tree))

/-! ### Contents -/

/-- A content of which some fields have been read. -/
structure ContentDraft where
  schema : Option String
  issuer : Option String
  holder : Option (Option String)
  properties : Option (OrderedMap String Value)

/-- The fields of a content. -/
def Content.shape : Shape ContentDraft where
  name := "struct Content"
  fields := [
    ⟨"schemaUri", false, (·.schema.isSome), fun o tree draft => do
      return { draft with schema := some (← o.string tree) }⟩,
    ⟨"issuerUri", false, (·.issuer.isSome), fun o tree draft => do
      return { draft with issuer := some (← o.string tree) }⟩,
    ⟨"holderUri", true, (·.holder.isSome), fun o tree draft => do
      return { draft with holder := some (← o.optional Origin.string tree) }⟩,
    ⟨"contents", true, (·.properties.isSome), fun o tree draft => do
      return { draft with properties := some (← Value.readMap o tree) }⟩]

/-- The content of a draft that has all the fields it needs. -/
def ContentDraft.content? (draft : ContentDraft) : Option Content := do
  return ⟨← draft.schema, ← draft.issuer, draft.holder.join, draft.properties.getD .empty⟩

/-- A record that lacks no field. -/
def Misread.complete {α : Type} (record : Option α) : Except Misread α :=
  match record with
  | some a => .ok a
  | none => .error .malformed

/-- Reads a content. -/
def Content.read (o : Origin) (tree : Tree) : Except Misread Content := do
  Misread.complete (← Content.shape.read ⟨none, none, none, none⟩ o tree).content?

/-! ### Credentials -/

/-- A credential of which some fields have been read. -/
structure CredentialDraft where
  content : Option Content
  hashes : Option (List Digest)
  nonces : Option NonceMap
  evidence : Option (List Credential)
  root : Option Digest
  identifier : Option String

/-- The fields of a credential, for a way of reading the evidence. -/
def Credential.shape (evidence : Origin → Tree → Except Misread (List Credential)) :
    Shape CredentialDraft where
  name := "struct Credential"
  fields := [
    ⟨"content", false, (·.content.isSome), fun o tree draft => do
      return { draft with content := some (← Content.read o tree) }⟩,
    ⟨"contentHashes", false, (·.hashes.isSome), fun o tree draft => do
      return { draft with hashes := some (← o.list Digest.readTree tree) }⟩,
    ⟨"contentNonceMap", false, (·.nonces.isSome), fun o tree draft => do
      return { draft with nonces := some (← NonceMap.read o tree) }⟩,
    ⟨"evidenceIds", true, (·.evidence.isSome), fun o tree draft => do
      return { draft with evidence := some (← evidence o tree) }⟩,
    ⟨"rootHash", false, (·.root.isSome), fun o tree draft => do
      return { draft with root := some (← Digest.readTree o tree) }⟩,
    ⟨"identifier", false, (·.identifier.isSome), fun o tree draft => do
      return { draft with identifier := some (← o.string tree) }⟩]

/-- The credential of a draft that has all the fields it needs. -/
def CredentialDraft.credential? (draft : CredentialDraft) : Option Credential := do
  return ⟨← draft.content, ← draft.hashes, ← draft.nonces, draft.evidence.getD [], ← draft.root,
    ← draft.identifier⟩

/-- Reads a credential whose evidence is read in the given way. -/
def Credential.readWith (evidence : Origin → Tree → Except Misread (List Credential)) (o : Origin)
    (tree : Tree) : Except Misread Credential := do
  Misread.complete
    (← (Credential.shape evidence).read ⟨none, none, none, none, none, none⟩ o tree).credential?

/-- Reads a credential from a tree that nests at most `room` deep. -/
def Credential.readWithin (text : Bool) : (room : Nat) → Tree → Except Misread Credential
  | 0, tree => Credential.readWith (Origin.list fun _ _ => .error .malformed) ⟨0, text⟩ tree
  | 1, tree => Credential.readWith (Origin.list fun _ _ => .error .malformed) ⟨1, text⟩ tree
  | room + 2, tree =>
    Credential.readWith (Origin.list fun _ => Credential.readWithin text room) ⟨room + 2, text⟩ tree

/-- Reads a credential. -/
def Credential.read (o : Origin) (tree : Tree) : Except Misread Credential :=
  Credential.readWithin o.text o.room tree

/-! ### Presentations -/

/-- A signature of which some fields have been read. -/
structure SignedByDraft where
  keyUri : Option String
  signature : Option Signature

/-- The fields of a signature. -/
def SignedBy.shape : Shape SignedByDraft where
  name := "struct PresentationSignature"
  fields := [
    ⟨"keyUri", false, (·.keyUri.isSome), fun o tree draft => do
      return { draft with keyUri := some (← o.string tree) }⟩,
    ⟨"signature", false, (·.signature.isSome), fun o tree draft => do
      return { draft with signature := some (← Signature.read o tree) }⟩]

/-- Reads a signature with its key URI. -/
def SignedBy.read (o : Origin) (tree : Tree) : Except Misread SignedBy := do
  let draft ← SignedBy.shape.read ⟨none, none⟩ o tree
  Misread.complete do return ⟨← draft.keyUri, ← draft.signature⟩

/-- A presentation of which some fields have been read. -/
structure PresentationDraft where
  credentials : Option (List Credential)
  signature : Option (Option SignedBy)
  challenge : Option (Option String)

/-- The fields of a presentation. -/
def Presentation.shape : Shape PresentationDraft where
  name := "struct Presentation"
  fields := [
    ⟨"credentials", false, (·.credentials.isSome), fun o tree draft => do
      return { draft with credentials := some (← o.list Credential.read tree) }⟩,
    ⟨"signature", true, (·.signature.isSome), fun o tree draft => do
      return { draft with signature := some (← o.optional SignedBy.read tree) }⟩,
    ⟨"challenge", true, (·.challenge.isSome), fun o tree draft => do
      return { draft with challenge := some (← o.optional Origin.string tree) }⟩]

/-- Reads a presentation. -/
def Presentation.read (o : Origin) (tree : Tree) : Except Misread Presentation := do
  let draft ← Presentation.shape.read ⟨none, none, none⟩ o tree
  Misread.complete do
    return ⟨← draft.credentials, draft.signature.join, draft.challenge.join⟩

end SelectiveDisclosure
