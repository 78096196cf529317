import SelectiveDisclosure.Agent
import SelectiveDisclosure.NonceSource

/-!
# Samples

Small claims about one holder, and an agent for them whose digests can be read. What is proved of
every claim and every hash function is tried out on these.

## Main definitions

* `Sample.hasher` — the first bytes of a message, in place of a hash function.
* `Sample.agent` — an agent with this hasher that counts its nonces.
* `Sample.person`, `Sample.licence`, `Sample.home` — the claims.
* `Sample.homeCutLater` — the last of them, cut elsewhere.
-/

namespace SelectiveDisclosure

namespace Sample

/-- The first 32 bytes of a message, with zeros behind a shorter one. Messages that differ early
have different digests. -/
def hasher : Hasher := ⟨fun message => ⟨(message ++ List.replicate 32 0).take 32, by simp⟩⟩

/-- An agent that counts its nonces, with the standard policy. -/
def agent : Agent Nat := ⟨hasher, .counting "n", .standard⟩

/-- The age of a person. -/
def person : Content :=
  .ofProperties "person" "registry" (some "alice") [("age", .number (.whole 29))]

/-- What the person may drive. -/
def licence : Content :=
  .ofProperties "licence" "office" (some "alice") [("class", .string "B")]

/-- Where the person is at home. There is a separator in the name of the property. -/
def home : Content :=
  .ofProperties "person" "registry" (some "alice") [("home#city", .string "Bonn")]

/-- The same with the separator in the schema. -/
def homeCutLater : Content :=
  .ofProperties "person#home" "registry" (some "alice") [("city", .string "Bonn")]

end Sample

end SelectiveDisclosure
