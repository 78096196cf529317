import SelectiveDisclosure.Proofs.DisclosedCopies
import SelectiveDisclosure.Proofs.EvidencePaths

/-!
# Nobody checks the issuer

The issuer stands in the content of a credential, next to the schema, the holder and the properties.
But it is in no statement, so no salted hash is over it, and neither is the root hash, the
identifier or the signature of a holder. A verifier that accepts a credential has not learnt who
issued it.

The issuers of a tree can therefore be rewritten, each in its own way, and every verification finds
the same: not only whether something is wrong, but what, where and in which order. It is the same
for whoever verifies, since nothing is assumed of hash function, policy or signature check.

## Main definitions

* `Credential.withIssuers`, `Presentation.withIssuers` — the same with other issuers, for each
  credential of the trees one that depends on the path to it.

## Main results

* `Credential.node?_withIssuers` — the credential at the end of a path gets the issuer of that path.
* `Credential.verify_withIssuers`, `Presentation.verify_withIssuers` — verification finds the same.
* `Presentation.issuers_unchecked` — the same together with all that is hashed and signed.
-/

namespace SelectiveDisclosure

namespace Credential

mutual

/-- The tree with other issuers. The credential at the end of a path gets the issuer that `f` makes
for the path from the one that it has. -/
def withIssuers (f : List Nat → String → String) : Credential → Credential
  | ⟨content, hashes, nonces, evidence, root, identifier⟩ =>
    ⟨{ content with issuer := f [] content.issuer }, hashes, nonces, withIssuersFrom f 0 evidence,
      root, identifier⟩

/-- The trees of a list with other issuers, where the paths into the first begin with `i`, those
into the next with `i + 1` and so on. -/
def withIssuersFrom (f : List Nat → String → String) (i : Nat) : List Credential → List Credential
  | [] => []
  | c :: rest => c.withIssuers (fun path => f (i :: path)) :: withIssuersFrom f (i + 1) rest

end

@[simp] theorem issuer_withIssuers (f : List Nat → String → String) (c : Credential) :
    (c.withIssuers f).content.issuer = f [] c.content.issuer := by
  cases c
  rfl

@[simp] theorem holder_withIssuers (f : List Nat → String → String) (c : Credential) :
    (c.withIssuers f).holder = c.holder := by
  cases c
  rfl

@[simp] theorem root_withIssuers (f : List Nat → String → String) (c : Credential) :
    (c.withIssuers f).root = c.root := by
  cases c
  rfl

@[simp] theorem hashes_withIssuers (f : List Nat → String → String) (c : Credential) :
    (c.withIssuers f).hashes = c.hashes := by
  cases c
  rfl

@[simp] theorem evidence_withIssuers (f : List Nat → String → String) (c : Credential) :
    (c.withIssuers f).evidence = withIssuersFrom f 0 c.evidence := by
  cases c
  rfl

/-- What is the same of every tree with other issuers is the same of each in a list. -/
theorem map_withIssuersFrom {α : Type} {g : Credential → α}
    (hg : ∀ f c, g (c.withIssuers f) = g c) (f : List Nat → String → String) (i : Nat)
    (cs : List Credential) : (withIssuersFrom f i cs).map g = cs.map g := by
  induction cs generalizing i with
  | nil => rfl
  | cons c rest ih => rw [withIssuersFrom, List.map_cons, List.map_cons, hg, ih]

theorem getElem?_withIssuersFrom (f : List Nat → String → String) (i : Nat) (cs : List Credential)
    (j : Nat) :
    (withIssuersFrom f i cs)[j]? = cs[j]?.map (withIssuers fun path => f ((i + j) :: path)) := by
  induction cs generalizing i j with
  | nil => rfl
  | cons c rest ih =>
    cases j with
    | zero => rfl
    | succ j =>
      rw [withIssuersFrom, List.getElem?_cons_succ, List.getElem?_cons_succ, ih, Nat.add_right_comm]
      rfl

/-- **The credential at the end of a path gets the issuer of that path**, and is the same otherwise.
No path is lost and none is new. -/
theorem node?_withIssuers (f : List Nat → String → String) (path : List Nat) (c : Credential) :
    (c.withIssuers f).node? path =
      (c.node? path).map (withIssuers fun rest => f (path ++ rest)) := by
  induction path generalizing f c with
  | nil => rfl
  | cons i path ih =>
    rw [node?, node?, evidence_withIssuers, getElem?_withIssuersFrom, Nat.zero_add]
    cases c.evidence[i]? with
    | none => rfl
    | some e => exact ih _ e

/-! ### What verification looks at -/

theorem computedRoot_withIssuers (h : Hasher) (f : List Nat → String → String) (c : Credential) :
    (c.withIssuers f).computedRoot h = c.computedRoot h := by
  have roots : (c.withIssuers f).evidenceRoots = c.evidenceRoots := by
    rw [evidenceRoots, evidence_withIssuers]
    exact map_withIssuersFrom root_withIssuers f 0 c.evidence
  rw [computedRoot, computedRoot, hashes_withIssuers, roots]

theorem rootFinding?_withIssuers (h : Hasher) (f : List Nat → String → String) (c : Credential) :
    (c.withIssuers f).rootFinding? h = c.rootFinding? h := by
  rw [rootFinding?, rootFinding?, computedRoot_withIssuers, root_withIssuers]

theorem structureFinding?_withIssuers (checkIdentifier : Bool) (f : List Nat → String → String)
    (c : Credential) :
    (c.withIssuers f).structureFinding? checkIdentifier = c.structureFinding? checkIdentifier := by
  cases c
  rfl

theorem disclosureFindings_withIssuers (h : Hasher) (f : List Nat → String → String)
    (c : Credential) : (c.withIssuers f).disclosureFindings h = c.disclosureFindings h := by
  cases c
  rfl

/-- What is found about evidence depends on nothing but what is found about each piece. -/
theorem evidenceFindings_congr {about : Credential → List Finding} {cs cs' : List Credential}
    (h : cs.map about = cs'.map about) :
    evidenceFindings about cs = evidenceFindings about cs' := by
  have mapped : ∀ cs : List Credential, evidenceFindings about cs =
      (cs.map about).zipIdx.flatMap fun e => e.1.map (.invalidEvidence e.2) := by
    intro cs
    rw [evidenceFindings, List.zipIdx_map, List.flatMap_map]
    rfl
  rw [mapped, mapped, h]

/-- The induction is on the depth to spare, for all trees and all their issuers at once: each piece
of evidence has issuers of its own. -/
theorem findingsWithin_withIssuers (h : Hasher) (checkIdentifier : Bool) (limit room : Nat)
    (f : List Nat → String → String) (c : Credential) :
    findingsWithin h checkIdentifier limit room (c.withIssuers f) =
      findingsWithin h checkIdentifier limit room c := by
  induction room generalizing f c with
  | zero =>
    have empty : (withIssuersFrom f 0 c.evidence).isEmpty = c.evidence.isEmpty := by
      cases c.evidence <;> rfl
    rw [findingsWithin, findingsWithin, structureFinding?_withIssuers, rootFinding?_withIssuers,
      disclosureFindings_withIssuers, evidence_withIssuers, empty]
  | succ room ih =>
    rw [findingsWithin, findingsWithin, structureFinding?_withIssuers, rootFinding?_withIssuers,
      disclosureFindings_withIssuers, evidence_withIssuers,
      evidenceFindings_congr (map_withIssuersFrom ih f 0 c.evidence)]

/-- **Verification of a credential finds the same, whoever the issuers are.** -/
theorem verify_withIssuers (h : Hasher) (policy : Policy) (f : List Nat → String → String)
    (c : Credential) : (c.withIssuers f).verify h policy = c.verify h policy := by
  rw [verify, verify, findings, findings, findingsWithin_withIssuers]

end Credential

namespace Presentation

/-- The presentation with other issuers in its credentials. The paths into the first begin with
zero. -/
def withIssuers (f : List Nat → String → String) (p : Presentation) : Presentation :=
  p.withCredentials (Credential.withIssuersFrom f 0 p.credentials)

theorem map_credentials_withIssuers {α : Type} {g : Credential → α}
    (hg : ∀ f c, g (c.withIssuers f) = g c) (f : List Nat → String → String) (p : Presentation) :
    (p.withIssuers f).credentials.map g = p.credentials.map g :=
  Credential.map_withIssuersFrom hg f 0 p.credentials

theorem message_withIssuers (f : List Nat → String → String) (p : Presentation) :
    (p.withIssuers f).message = p.message := by
  rw [message, map_credentials_withIssuers Credential.root_withIssuers]
  rfl

/-- **Verification of a presentation finds the same, whoever the issuers are.** -/
theorem verify_withIssuers (h : Hasher) (check : SignatureCheck) (expected : Option String)
    (policy : Policy) (f : List Nat → String → String) (p : Presentation) :
    (p.withIssuers f).verify h check expected policy = p.verify h check expected policy := by
  have holders := map_credentials_withIssuers Credential.holder_withIssuers f p
  have roots := map_credentials_withIssuers Credential.root_withIssuers f p
  have found := map_credentials_withIssuers (g := fun c => c.findings h policy)
    (fun f c => Credential.findingsWithin_withIssuers h _ _ _ f c) f p
  have empty : (p.withIssuers f).credentials.isEmpty = p.credentials.isEmpty := by
    rw [← List.isEmpty_map (f := Credential.root), roots, List.isEmpty_map]
  have signed : (p.withIssuers f).signatureFindings check expected =
      p.signatureFindings check expected := signatureFindings_withCredentials holders roots
  have challenged : (p.withIssuers f).challengeFinding? expected = p.challengeFinding? expected :=
    rfl
  rw [verify, verify, findings, findings, empty, oneHolder_congr holders, signed, challenged,
    List.flatMap_def, List.flatMap_def, found]

/-- **Nobody checks the issuer.** Whatever issuer each credential of a tree is given, verification
finds the same in the same order, and root hash, identifier and whatever the root hash should be are
the same. So it is for presentations, with the message that is signed. -/
theorem issuers_unchecked (f : List Nat → String → String) :
    (∀ c : Credential,
        (∀ path n, c.node? path = some n → ∃ n', (c.withIssuers f).node? path = some n' ∧
          n'.content.issuer = f path n.content.issuer) ∧
        (∀ h policy, (c.withIssuers f).verify h policy = c.verify h policy) ∧
        (∀ h, (c.withIssuers f).computedRoot h = c.computedRoot h) ∧
        (c.withIssuers f).root = c.root ∧ (c.withIssuers f).identifier = c.identifier) ∧
      ∀ p : Presentation,
        (∀ (i : Nat) (c : Credential), p.credentials[i]? = some c →
          (p.withIssuers f).credentials[i]? = some (c.withIssuers fun path => f (i :: path))) ∧
        (∀ h check expected policy, (p.withIssuers f).verify h check expected policy =
          p.verify h check expected policy) ∧
        (p.withIssuers f).message = p.message ∧ (p.withIssuers f).signature = p.signature := by
  constructor
  · intro c
    refine ⟨fun path n hnode => ?_, fun h policy => c.verify_withIssuers h policy f,
      fun h => c.computedRoot_withIssuers h f, c.root_withIssuers f, ?_⟩
    · refine ⟨_, by rw [Credential.node?_withIssuers, hnode]; rfl, ?_⟩
      rw [Credential.issuer_withIssuers, List.append_nil]
    · cases c
      rfl
  · intro p
    refine ⟨fun i c hc => ?_, fun h check expected policy =>
      p.verify_withIssuers h check expected policy f, p.message_withIssuers f, rfl⟩
    have found := Credential.getElem?_withIssuersFrom f 0 p.credentials i
    rwa [hc, Nat.zero_add] at found

end Presentation

end SelectiveDisclosure
