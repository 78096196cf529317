import SelectiveDisclosure.Commitment
import SelectiveDisclosure.Identifier.Basic

/-!
# Credentials

A credential is a content with the commitment to it: the salted hashes of all statements at
issuance, the nonces of the statements that are still there, the credentials that serve as evidence,
the root hash over hashes and evidence, and the identifier of the root hash.

Any of these may have been tampered with. Nothing in the type says that they fit together; that is
what verification is for.

## Main definitions

* `Credential` — a content and its commitment.
* `Credential.computedRoot`, `Credential.rootIdentifier` — what the root hash and the identifier
  should be.
* `Credential.issue` — commits to a content, with evidence that is taken as it is.
* `Credential.issueRecorded` — the same with recorded nonces and without evidence.
* `Credential.height` — how deeply evidence is nested.

## Main results

* `Credential.height_eq` — a credential is one higher than its highest evidence.
-/

namespace SelectiveDisclosure

/-- A content and the commitment to it. -/
structure Credential where
  content : Content
  /-- The salted hashes of the statements at issuance. -/
  hashes : List Digest
  /-- The nonces of the statements that are still there. -/
  nonces : NonceMap
  evidence : List Credential
  root : Digest
  identifier : String

namespace Credential

mutual

/-- Decides whether two credentials are equal. -/
def decEq : (a b : Credential) → Decidable (a = b)
  | ⟨c, hs, ns, es, r, i⟩, ⟨c', hs', ns', es', r', i'⟩ =>
    match decEqAll es es' with
    | isTrue h =>
      decidable_of_iff (c = c' ∧ hs = hs' ∧ ns = ns' ∧ r = r' ∧ i = i') (by simp [h])
    | isFalse h => isFalse (by simp [h])

/-- Decides whether two lists of credentials are equal. -/
def decEqAll : (a b : List Credential) → Decidable (a = b)
  | [], [] => isTrue rfl
  | [], _ :: _ | _ :: _, [] => isFalse (by simp)
  | a :: as, b :: bs =>
    match decEq a b, decEqAll as bs with
    | isTrue h, isTrue h' => isTrue (by rw [h, h'])
    | isFalse h, _ => isFalse (by simp [h])
    | _, isFalse h => isFalse (by simp [h])

end

instance : DecidableEq Credential := decEq

/-- The holder, if there is one. -/
def holder (c : Credential) : Option String := c.content.holder

/-- The root hashes of the evidence, in order. -/
def evidenceRoots (c : Credential) : List Digest := c.evidence.map (·.root)

/-- The root hash over the hashes and the evidence. -/
def computedRoot (h : Hasher) (c : Credential) : Digest := rootHash h c.hashes c.evidenceRoots

/-- The identifier of the root hash. -/
def rootIdentifier (c : Credential) : Identifier := .ofDigest .credential c.root

/-- The credential that a commitment makes together with evidence. -/
def ofCommitment (h : Hasher) (content : Content) (evidence : List Credential)
    (commitment : Commitment) : Credential :=
  let root := rootHash h commitment.hashes (evidence.map (·.root))
  ⟨content, commitment.hashes, commitment.nonces, evidence, root,
    (Identifier.ofDigest .credential root).text⟩

/-- Commits to a content with fresh nonces. The evidence is taken as it is. -/
def issue {σ : Type} (h : Hasher) (source : NonceSource σ) (content : Content)
    (evidence : List Credential) (state : σ) : Except Fault Credential × σ :=
  let committed := content.commit h source state
  (committed.1.map (ofCommitment h content evidence), committed.2)

/-- Commits to a content with recorded nonces, without evidence. -/
def issueRecorded (h : Hasher) (nonces : NonceMap) (content : Content) : Except Fault Credential :=
  (content.recommit h nonces).map (ofCommitment h content [])

/-! ### Nesting of evidence -/

mutual

/-- How deeply evidence is nested: zero without evidence. -/
def height : Credential → Nat
  | ⟨_, _, _, evidence, _, _⟩ => heightAbove evidence

/-- One more than the greatest height in a list, zero for the empty list. -/
def heightAbove : List Credential → Nat
  | [] => 0
  | c :: rest => max (c.height + 1) (heightAbove rest)

end

theorem height_eq (c : Credential) : c.height = heightAbove c.evidence := by
  cases c; simp [height]

theorem heightAbove_le_iff {cs : List Credential} {n : Nat} :
    heightAbove cs ≤ n ↔ ∀ c ∈ cs, c.height + 1 ≤ n := by
  induction cs with
  | nil => simp [heightAbove]
  | cons c rest ih => simp only [heightAbove, Nat.max_le, ih, List.forall_mem_cons]

end Credential

end SelectiveDisclosure
