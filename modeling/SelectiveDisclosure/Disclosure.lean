import SelectiveDisclosure.Credential.Basic
import SelectiveDisclosure.Finding

/-!
# Disclosure

A holder shows a copy of a credential with fewer properties. The copy keeps the salted hashes, the
evidence, the root hash and the identifier. It loses the properties that are left out, and with them
their nonces, so nothing remains of them but their salted hashes.

A verifier checks that every statement of the copy was committed to: its nonce is found under its
digest, and the salted hash is one of those committed to.

## Main definitions

* `Selection` — which properties are shown.
* `Content.prune` — the nonces of the statements that are there.
* `Credential.remove`, `Credential.disclose` — the copy.
* `Statement.Covered` — a statement is covered by hashes and nonces.
* `Content.disclosureFindings` — the statements that are not covered by hashes and nonces.

## Main results

* `Selection.mem_excluded_iff` — which names a selection leaves out.
* `Content.disclosureFindings_eq_nil_iff` — nothing is found exactly if all statements are covered.
-/

namespace SelectiveDisclosure

/-- Which properties are shown: all of them, or only those listed, and in either case none of those
that are hidden. Names that a content does not have make no difference. -/
structure Selection where
  only : Option (List String)
  hidden : List String
  deriving DecidableEq, Repr

namespace Selection

/-- Everything is shown. -/
def everything : Selection := ⟨none, []⟩

/-- Whether a property of this name is shown. -/
def shows (s : Selection) (name : String) : Bool :=
  (match s.only with
    | none => true
    | some names => names.contains name) && !s.hidden.contains name

/-- The names that are not among those listed. -/
def unlisted (s : Selection) (c : Content) : List String :=
  match s.only with
  | none => []
  | some names => c.names.filter fun name => !names.contains name

/-- The names that are left out, ascending and without repetitions: the properties that are not
listed, and all names that are hidden. -/
def excluded (s : Selection) (c : Content) : List String :=
  (OrderedMap.ofList ((s.unlisted c ++ s.hidden).map fun name => (name, ()))).keys

theorem mem_excluded_iff {s : Selection} {c : Content} {name : String} :
    name ∈ s.excluded c ↔ name ∈ s.unlisted c ∨ name ∈ s.hidden := by
  simp [excluded, OrderedMap.mem_keys_iff, OrderedMap.contains_ofList]

end Selection

/-- Whether nonces and hashes cover a statement: its nonce is kept under its digest, and its salted
hash is among the hashes. -/
def Statement.Covered (h : Hasher) (nonces : NonceMap) (hashes : List Digest) (s : Statement) :
    Prop :=
  ∃ nonce, nonces.get? (s.digest h) = some nonce ∧ s.salted h nonce ∈ hashes

theorem Statement.Covered.mono {h : Hasher} {nonces : NonceMap} {hashes hashes' : List Digest}
    {s : Statement} (hs : s.Covered h nonces hashes) (hsub : hashes ⊆ hashes') :
    s.Covered h nonces hashes' := by
  obtain ⟨nonce, hnonce, hmem⟩ := hs
  exact ⟨nonce, hnonce, hsub hmem⟩

namespace Content

/-- The nonces of the statements that are there. No nonce is ever made anew. -/
def prune (h : Hasher) (nonces : NonceMap) (c : Content) : Except Fault NonceMap := do
  let present := (← c.statements).map (·.digest h)
  return nonces.filter fun digest _ => present.contains digest

/-- What is wrong with one statement, if anything. -/
def statementFinding? (h : Hasher) (nonces : NonceMap) (hashes : List Digest) (s : Statement) :
    Option Finding :=
  match nonces.get? (s.digest h) with
  | none => some (.noProof s.text)
  | some nonce =>
    if hashes.contains (s.salted h nonce) then none else some (.invalidProof s.text)

/-- The statements that are not covered by hashes and nonces, in order. -/
def disclosureFindings (h : Hasher) (nonces : NonceMap) (hashes : List Digest) (c : Content) :
    List Finding :=
  match c.statements with
  | .error fault => [.ofFault fault]
  | .ok ss => ss.filterMap (statementFinding? h nonces hashes)

theorem statementFinding?_eq_none_iff {h : Hasher} {nonces : NonceMap} {hashes : List Digest}
    {s : Statement} : statementFinding? h nonces hashes s = none ↔ s.Covered h nonces hashes := by
  rw [statementFinding?, Statement.Covered]
  cases nonces.get? (s.digest h) <;> simp

/-- Nothing is found exactly if the content has statements and all of them are covered. -/
theorem disclosureFindings_eq_nil_iff {h : Hasher} {nonces : NonceMap} {hashes : List Digest}
    {c : Content} :
    c.disclosureFindings h nonces hashes = [] ↔
      ∃ ss, c.statements = .ok ss ∧ ∀ s ∈ ss, s.Covered h nonces hashes := by
  rw [disclosureFindings]
  cases c.statements with
  | error fault => simp
  | ok ss => simp [List.filterMap_eq_nil_iff, statementFinding?_eq_none_iff]

end Content

namespace Credential

/-- The copy of a credential without the named properties. -/
def remove (h : Hasher) (names : List String) (c : Credential) : Except Fault Credential := do
  let content := c.content.without names
  let nonces ← content.prune h c.nonces
  return { c with content, nonces }

/-- The copy of a credential with the properties that a selection shows. -/
def disclose (h : Hasher) (selection : Selection) (c : Credential) : Except Fault Credential :=
  c.remove h (selection.excluded c.content)

end Credential

end SelectiveDisclosure
