import SelectiveDisclosure.Disclosure
import SelectiveDisclosure.Presentation

/-!
# Verification

A credential verifies if its parts fit together, its root hash is that of its hashes and evidence,
its evidence verifies in turn and every statement of its content was committed to. A problem with
the fit of the parts is the only finding about a credential; otherwise everything is looked at and
all problems are found.

A presentation verifies if its credentials do and have one holder, it was made for the challenge
that is expected, and it is signed with a key of the holder. An unsigned presentation passes only
where no challenge is expected.

## Main definitions

* `Policy` — how deeply evidence may nest, and whether identifiers are checked.
* `Credential.structureFinding?` — whether the parts of a credential fit together.
* `Credential.findings`, `Credential.verify` — the problems of a credential.
* `Presentation.findings`, `Presentation.verify` — the problems of a presentation.
* `Credential.SoundTree` — every credential of a tree is in order by itself.

## Implementation notes

How deeply evidence may still nest counts down along the tree. It is apart from the limit that a
finding names, which is that of the whole verification at every depth.
-/

namespace SelectiveDisclosure

/-- How a credential is verified. -/
structure Policy where
  /-- How deeply evidence may nest. -/
  maxDepth : Nat
  /-- Whether the identifier has to encode the root hash. -/
  checkIdentifier : Bool
  deriving DecidableEq, Repr

/-- Evidence nests at most sixteen deep, and identifiers are checked. -/
def Policy.standard : Policy := ⟨16, true⟩

/-- Whether each digest is less than the next. -/
def strictlyAscending : List Digest → Bool
  | a :: b :: rest => decide (a < b) && strictlyAscending (b :: rest)
  | _ => true

/-- Comparing neighbours is enough: each digest is less than all that follow. -/
theorem strictlyAscending_iff {ds : List Digest} :
    strictlyAscending ds = true ↔ ds.Pairwise (· < ·) := by
  induction ds with
  | nil => simp [strictlyAscending]
  | cons a rest ih =>
    cases rest with
    | nil => simp [strictlyAscending]
    | cons b rest =>
      simp only [strictlyAscending, Bool.and_eq_true, decide_eq_true_eq, ih, List.pairwise_cons,
        List.forall_mem_cons]
      constructor
      · rintro ⟨hab, hb, hrest⟩
        exact ⟨⟨hab, fun d hd => Std.lt_trans hab (hb d hd)⟩, hb, hrest⟩
      · rintro ⟨⟨hab, -⟩, hb, hrest⟩
        exact ⟨hab, hb, hrest⟩

namespace Credential

/-- What keeps the parts of a credential from fitting together, without a look at any hash: a blank
schema, hashes out of order or twice, more nonces than hashes, an empty nonce, or the identifier of
another root hash. -/
def structureFinding? (checkIdentifier : Bool) (c : Credential) : Option Finding :=
  if Text.isBlank c.content.schema then some (.malformedContent "content has no schema uri")
  else if !strictlyAscending c.hashes then
    some (.structural "content hashes must be strictly ascending")
  else if c.hashes.length < c.nonces.size then
    some (.structural ("nonce map has " ++ toString c.nonces.size ++ " entries for " ++
      toString c.hashes.length ++ " content hashes"))
  else if c.nonces.values.any (·.isEmpty) then
    some (.structural "nonce map contains an empty nonce")
  else if checkIdentifier && c.rootIdentifier.text ≠ c.identifier then
    some (.identifierMismatch c.rootIdentifier.text c.identifier)
  else none

/-- The finding that the root hash is another than that of hashes and evidence. -/
def rootFinding? (h : Hasher) (c : Credential) : Option Finding :=
  if c.computedRoot h ≠ c.root then some (.rootMismatch c.root (c.computedRoot h)) else none

/-- The findings about the content, its nonces and its hashes. -/
def disclosureFindings (h : Hasher) (c : Credential) : List Finding :=
  c.content.disclosureFindings h c.nonces c.hashes

/-- The findings about evidence, each with the index of the piece that it is about. -/
def evidenceFindings (about : Credential → List Finding) (evidence : List Credential) :
    List Finding :=
  evidence.zipIdx.flatMap fun (c, index) => (about c).map (.invalidEvidence index)

/-- The findings about a credential whose evidence may nest `room` deep. A finding that evidence
nests too deeply names `limit`. -/
def findingsWithin (h : Hasher) (checkIdentifier : Bool) (limit : Nat) :
    (room : Nat) → Credential → List Finding
  | 0, c =>
    match c.structureFinding? checkIdentifier with
    | some finding => [finding]
    | none =>
      (c.rootFinding? h).toList ++
        ((if c.evidence.isEmpty then [] else [.evidenceTooDeep limit]) ++ c.disclosureFindings h)
  | room + 1, c =>
    match c.structureFinding? checkIdentifier with
    | some finding => [finding]
    | none =>
      (c.rootFinding? h).toList ++
        (evidenceFindings (findingsWithin h checkIdentifier limit room) c.evidence ++
          c.disclosureFindings h)

section Parts

variable {checkIdentifier : Bool} {c : Credential} {finding : Finding}

/-- If the parts do not fit, nothing else is found. -/
theorem findingsWithin_of_structure (h : Hasher) (limit room : Nat)
    (hstructure : c.structureFinding? checkIdentifier = some finding) :
    findingsWithin h checkIdentifier limit room c = [finding] := by
  cases room <;> rw [findingsWithin, hstructure]

theorem findingsWithin_zero (h : Hasher) (limit : Nat)
    (hstructure : c.structureFinding? checkIdentifier = none) :
    findingsWithin h checkIdentifier limit 0 c =
      (c.rootFinding? h).toList ++
        ((if c.evidence.isEmpty then [] else [.evidenceTooDeep limit]) ++
          c.disclosureFindings h) := by
  rw [findingsWithin, hstructure]

theorem findingsWithin_succ (h : Hasher) (limit room : Nat)
    (hstructure : c.structureFinding? checkIdentifier = none) :
    findingsWithin h checkIdentifier limit (room + 1) c =
      (c.rootFinding? h).toList ++
        (evidenceFindings (findingsWithin h checkIdentifier limit room) c.evidence ++
          c.disclosureFindings h) := by
  rw [findingsWithin, hstructure]

end Parts

/-- The problems of a credential. -/
def findings (h : Hasher) (policy : Policy) (c : Credential) : List Finding :=
  findingsWithin h policy.checkIdentifier policy.maxDepth policy.maxDepth c

/-- Verifies a credential. -/
def verify (h : Hasher) (policy : Policy) (c : Credential) : Report :=
  ⟨c.findings h policy⟩

/-! ### Trees of credentials -/

/-- Whether a credential is in order by itself, whatever its evidence is like. -/
def Sound (h : Hasher) (checkIdentifier : Bool) (c : Credential) : Prop :=
  c.structureFinding? checkIdentifier = none ∧ c.computedRoot h = c.root ∧
    c.disclosureFindings h = []

mutual

/-- Whether a credential and all evidence below it are in order by themselves. -/
def SoundTree (h : Hasher) (checkIdentifier : Bool) : Credential → Prop
  | ⟨content, hashes, nonces, evidence, root, identifier⟩ =>
    Sound h checkIdentifier ⟨content, hashes, nonces, evidence, root, identifier⟩ ∧
      SoundTrees h checkIdentifier evidence

/-- Whether every credential of a list and all evidence below them are in order by themselves. -/
def SoundTrees (h : Hasher) (checkIdentifier : Bool) : List Credential → Prop
  | [] => True
  | c :: rest => SoundTree h checkIdentifier c ∧ SoundTrees h checkIdentifier rest

end

theorem soundTrees_iff {h : Hasher} {checkIdentifier : Bool} {cs : List Credential} :
    SoundTrees h checkIdentifier cs ↔ ∀ c ∈ cs, SoundTree h checkIdentifier c := by
  induction cs with
  | nil => simp [SoundTrees]
  | cons c rest ih => simp [SoundTrees, ih]

/-- A tree is in order if its top is and the trees of its evidence are. -/
theorem soundTree_iff {h : Hasher} {checkIdentifier : Bool} {c : Credential} :
    SoundTree h checkIdentifier c ↔
      Sound h checkIdentifier c ∧ ∀ e ∈ c.evidence, SoundTree h checkIdentifier e := by
  obtain ⟨content, hashes, nonces, evidence, root, identifier⟩ := c
  rw [SoundTree, soundTrees_iff]

end Credential

namespace Presentation

/-- The finding that the presentation was made for another challenge than is expected. -/
def challengeFinding? (p : Presentation) : (expected : Option String) → Option Finding
  | none => none
  | some expected =>
    if p.challenge ≠ some expected then some (.challengeMismatch expected p.challenge) else none

/-- The finding that the signing key is not one of the holder. -/
def signerFinding? (p : Presentation) (s : SignedBy) : Option Finding :=
  match p.holder with
  | none => none
  | some holder =>
    if keyOwner s.keyUri ≠ holder then some (.signerNotHolder s.keyUri holder) else none

/-- The findings about the signature. Where a challenge is expected there has to be one. -/
def signatureFindings (check : SignatureCheck) (expected : Option String) (p : Presentation) :
    List Finding :=
  match p.signature with
  | none => if expected.isSome then [.missingSignature] else []
  | some s =>
    (p.signerFinding? s).toList ++
      (match check.check p.message s.signature s.keyUri with
        | .ok () => []
        | .error _ => [.signatureFailed])

/-- The problems of a presentation. -/
def findings (h : Hasher) (check : SignatureCheck) (expected : Option String)
    (policy : Policy) (p : Presentation) : List Finding :=
  if p.credentials.isEmpty then [.structural "presentation has no credentials"]
  else
    (if oneHolder p.credentials then [] else [.holderMismatch]) ++
      (p.credentials.flatMap (·.findings h policy) ++
        ((p.challengeFinding? expected).toList ++ p.signatureFindings check expected))

/-- Verifies a presentation. -/
def verify (h : Hasher) (check : SignatureCheck) (expected : Option String)
    (policy : Policy) (p : Presentation) : Report :=
  ⟨p.findings h check expected policy⟩

end Presentation

end SelectiveDisclosure
