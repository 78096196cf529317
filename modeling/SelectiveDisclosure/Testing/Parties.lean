import SelectiveDisclosure.Agent
import SelectiveDisclosure.NonceSource
import SelectiveDisclosure.Testing.Vectors

/-!
# Parties for tests

A party is a holder with a key that is made from a fixed seed, so that tests can have as many
holders as they need and get the same ones each time.

## Main definitions

* `Agent.standard` — an agent with a new UUID for each nonce.
* `Party` — a holder with a key pair.
* `Party.content`, `Party.personContent`, `Party.memberContent` — claims about a party.
* `Party.keys`, `Party.signer` — its key, for those who verify and for itself.
* `Party.rehearse` — a credential over another one, presented and verified.
* `parties` — a number of parties.
-/

namespace SelectiveDisclosure

/-- An agent with BLAKE2b, a new UUID for each nonce and the standard policy. -/
def Agent.standard : Agent Nat := ⟨.blake2b, .uuids, .standard⟩

/-- A holder with a key pair. -/
structure Party where
  holder : String
  pair : KeyPair

namespace Party

/-- The URI of the key. -/
def keyUri (p : Party) : String := p.holder ++ "#key-1"

/-- The public key. -/
def publicKey (p : Party) : PublicKey := p.pair.publicKey

/-- The signer that the party is. -/
def signer (p : Party) : Signer := p.pair.signer p.keyUri

/-- A registry with the key of the party. -/
def keys (p : Party) : Keyring := OrderedMap.empty.insert p.keyUri p.publicKey

/-- A claim about the party without properties. -/
def content (p : Party) (schema : String) : Content := .blank schema testIssuer (some p.holder)

/-- A claim about the name, age and country of the party. -/
def personContent (p : Party) : Content :=
  .ofProperties "schema:cord:person" testIssuer (some p.holder)
    [("name", .string "Alice"), ("age", .number (.whole 29)), ("country", .string "DE")]

/-- A claim that the party has been a member since 2019. -/
def memberContent (p : Party) : Content :=
  (p.content "schema:cord:member").setProperty "since" (.ofJson (.number (.whole 2019)))

/-- A membership that rests on a claim about the person, presented by the party. -/
structure Rehearsal where
  person : Credential
  member : Credential
  presentation : Presentation
  /-- How the verification of the presentation turns out. -/
  report : Report

/-- Issues a membership over a claim about the person, presents it signed for a challenge and
verifies the presentation. -/
def rehearse (p : Party) (challenge : String) (expected : Option String) :
    Except AgentFault Rehearsal := do
  let agent := Agent.standard
  let first := agent.issue p.personContent [] 0
  let person ← first.result
  let member ← (agent.issue p.memberContent [person] first.nonces).result
  let presentation ← agent.present [member] ⟨.everything, some challenge, some p.signer⟩
  let report := agent.verifyPresentation p.keys.signatureCheck expected presentation
  return ⟨person, member, presentation, report⟩

end Party

/-- The party with a number. The first byte of its seed is the number, of which that byte keeps only
the remainder by 256; the other bytes are zero. -/
def party (n : Nat) : Party :=
  ⟨"did:cord:holder-" ++ toString n, ⟨UInt8.ofNat n :: List.replicate 31 0⟩⟩

/-- The parties with the numbers below `count`. -/
def parties (count : Nat) : List Party := (List.range count).map party

end SelectiveDisclosure
