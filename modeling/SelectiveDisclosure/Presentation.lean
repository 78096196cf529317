import SelectiveDisclosure.Credential.Basic
import SelectiveDisclosure.Ed25519.Signature

/-!
# Presentations

A holder presents one or more credentials together. With a key the presentation is signed, which
binds the root hashes of the credentials, in their order, and the challenge of the verifier.

## Main definitions

* `Presentation` — credentials, perhaps with a signature and a challenge.
* `Signer`, `SignatureCheck` — how a message is signed, and how a signature is checked.
* `Presentation.messageOver` — the bytes that are signed.
* `Presentation.assemble` — puts credentials of one holder together.
* `Keyring`, `keyOwner` — public keys by their URIs, and whose key a URI names.

## Main results

* `Presentation.messageOver_ne_of_challenge` — an absent challenge and an empty one are signed
  differently.
-/

namespace SelectiveDisclosure

/-- A signature and the URI of the key that made it. -/
structure SignedBy where
  keyUri : String
  signature : Signature
  deriving DecidableEq

/-- Credentials that are shown together. -/
structure Presentation where
  credentials : List Credential
  signature : Option SignedBy
  challenge : Option String
  deriving DecidableEq

/-- A key that messages are signed with. -/
structure Signer where
  keyUri : String
  sign : Bytes → Except Fault Signature

/-- How a signature over a message by the key with a URI is checked. -/
structure SignatureCheck where
  check : Bytes → Signature → (keyUri : String) → Except Fault Unit

/-- What signed messages begin with, so that a signature over a presentation is one over nothing
else. -/
def presentationDomain : Bytes := utf8 "cord/presentation-sig/v1"

/-- The bytes of a challenge: whether there is one, and its text. -/
def challengeBytes : Option String → Bytes
  | none => [0]
  | some challenge => 1 :: utf8 challenge

/-- Whose key a URI names: the part of it in front of the first `#`. -/
def keyOwner (keyUri : String) : String := String.ofList (keyUri.toList.takeWhile (· ≠ '#'))

namespace Presentation

/-- The bytes that are signed: the number of root hashes in four bytes, the root hashes and the
challenge. -/
def messageOver (roots : List Digest) (challenge : Option String) : Bytes :=
  presentationDomain ++ Bytes.ofNatBE 4 roots.length ++ roots.flatMap (·.bytes) ++
    challengeBytes challenge

theorem messageOver_ne_of_challenge (roots : List Digest) :
    messageOver roots none ≠ messageOver roots (some "") := by
  simp [messageOver, challengeBytes]

/-- Whether a signature is attached. -/
def isSigned (p : Presentation) : Bool := p.signature.isSome

/-- The holder of the first credential. -/
def holder (p : Presentation) : Option String := p.credentials.head?.bind (·.holder)

/-- The bytes that the signature is over. -/
def message (p : Presentation) : Bytes :=
  messageOver (p.credentials.map (·.root)) p.challenge

/-- Whether all credentials of a list have the holder of the first. -/
def oneHolder : List Credential → Bool
  | [] => true
  | first :: rest => rest.all fun c => c.holder = first.holder

/-- Puts credentials of one holder together, and signs them if there is a signer. -/
def assemble (credentials : List Credential) (challenge : Option String)
    (signer : Option Signer) : Except Fault Presentation :=
  if credentials.isEmpty then .error .emptyPresentation
  else if !oneHolder credentials then .error .holderMismatch
  else
    let unsigned : Presentation := ⟨credentials, none, challenge⟩
    match signer with
    | none => .ok unsigned
    | some signer => do
      let signature ← signer.sign unsigned.message
      return { unsigned with signature := some ⟨signer.keyUri, signature⟩ }

end Presentation

/-- The signer that a key pair makes under a key URI. -/
def KeyPair.signer (pair : KeyPair) (keyUri : String) : Signer :=
  ⟨keyUri, fun message => .ok (pair.sign message)⟩

/-- Public keys by their URIs. -/
abbrev Keyring := OrderedMap String PublicKey

/-- Checks signatures with the registered keys. -/
def Keyring.signatureCheck (keys : Keyring) : SignatureCheck :=
  ⟨fun message signature keyUri =>
    match OrderedMap.get? keys keyUri with
    | none => .error (.unknownKey keyUri)
    | some key => key.verify message signature⟩

end SelectiveDisclosure
