import SelectiveDisclosure.Proofs.Issuance

/-!
# Paths into the evidence

The credentials of a tree are known by their paths: at each credential on the way, the index of the
piece of evidence to go on with. The same indices stand in the findings of a verification, from the
outermost in.

By paths it can be said what it means for a whole tree to be in order, without walking down the tree
as verification does: whatever path leads to a credential, it is in order by itself. How deeply
evidence may nest is apart from this, and that identifiers are checked is one condition of several.
So both can be relaxed and nothing that was accepted is lost.

## Main definitions

* `Credential.node?` — the credential to which a path leads.
* `Credential.replaceAt` — the tree with another credential at the end of a path.
* `Finding.along` — a finding about the credential to which a path leads.

## Main results

* `Credential.soundTree_iff_forall_node` — a tree is in order if all its credentials are.
* `Credential.verify_decides_tree` — what a verification decides.
* `Credential.along_mem_findingsWithin_replaceAt` — what is wrong with a credential that was put
  into a sound tree is found at its place.
-/

namespace SelectiveDisclosure

/-- The finding about the credential to which a path leads. -/
def Finding.along : List Nat → Finding → Finding
  | [], finding => finding
  | i :: path, finding => .invalidEvidence i (along path finding)

namespace Credential

/-- The credential to which a path leads. -/
def node? : List Nat → Credential → Option Credential
  | [], c => some c
  | i :: path, c => c.evidence[i]?.bind (node? path)

/-- The tree with another credential at the end of a path. -/
def replaceAt : List Nat → Credential → Credential → Credential
  | [], _, new => new
  | i :: path, c, new =>
    { c with evidence := c.evidence.modify i fun e => replaceAt path e new }

variable {h : Hasher} {checkIdentifier : Bool} {c n e : Credential} {path : List Nat} {i : Nat}

theorem node?_cons_eq_some_iff :
    c.node? (i :: path) = some n ↔ ∃ e, c.evidence[i]? = some e ∧ e.node? path = some n := by
  rw [node?, Option.bind_eq_some_iff]

theorem getElem?_evidence_replaceAt {new : Credential} (he : c.evidence[i]? = some e) :
    (c.replaceAt (i :: path) new).evidence[i]? = some (e.replaceAt path new) := by
  simp [replaceAt, he]

/-- A path is no longer than the tree is high. -/
theorem length_add_height_le (hnode : c.node? path = some n) :
    path.length + n.height ≤ c.height := by
  induction path generalizing c with
  | nil =>
    cases hnode
    simp
  | cons i path ih =>
    obtain ⟨e, he, hnode⟩ := node?_cons_eq_some_iff.1 hnode
    have hbelow : e.height + 1 ≤ c.height := by
      rw [c.height_eq]
      exact heightAbove_le_iff.1 (Nat.le_refl _) e (List.mem_of_getElem? he)
    have habove := ih hnode
    rw [List.length_cons]
    omega

/-! ### Whole trees -/

theorem SoundTree.sound_of_node (hc : SoundTree h checkIdentifier c)
    (hnode : c.node? path = some n) : Sound h checkIdentifier n := by
  induction path generalizing c with
  | nil =>
    cases hnode
    exact (soundTree_iff.1 hc).1
  | cons i path ih =>
    obtain ⟨e, he, hnode⟩ := node?_cons_eq_some_iff.1 hnode
    exact ih ((soundTree_iff.1 hc).2 e (List.mem_of_getElem? he)) hnode

/-- **A tree is in order if the credentials to which its paths lead are in order.** -/
theorem soundTree_iff_forall_node :
    SoundTree h checkIdentifier c ↔
      ∀ path n, c.node? path = some n → Sound h checkIdentifier n := by
  refine ⟨fun hc path n => hc.sound_of_node, fun hnodes => ?_⟩
  -- by induction on a bound for the height, which evidence stays below
  obtain ⟨bound, hbound⟩ : ∃ bound, c.height ≤ bound := ⟨_, Nat.le_refl _⟩
  induction bound generalizing c with
  | zero =>
    refine soundTree_iff.2 ⟨hnodes [] c rfl, ?_⟩
    simp [height_le_zero_iff.1 hbound]
  | succ bound ih =>
    refine soundTree_iff.2 ⟨hnodes [] c rfl, fun e he => ?_⟩
    obtain ⟨i, hi⟩ := List.mem_iff_getElem?.1 he
    refine ih (fun path n hnode => ?_) (height_le_succ_iff.1 hbound e he)
    exact hnodes (i :: path) n (node?_cons_eq_some_iff.2 ⟨e, hi, hnode⟩)

/-- Without a look at the identifier, all that was in order is still in order. -/
theorem Sound.without_identifier (hc : Sound h checkIdentifier c) : Sound h false c := by
  obtain ⟨hstructure, hroot, hdisclosed⟩ := hc
  obtain ⟨hblank, hascending, hsize, hnonces, -⟩ := structureFinding?_eq_none_iff.1 hstructure
  refine ⟨structureFinding?_eq_none_iff.2 ⟨hblank, hascending, hsize, hnonces, ?_⟩, hroot,
    hdisclosed⟩
  simp

/-- **What a verification decides**: that the evidence nests no deeper than allowed, and that of
every credential of the tree the parts fit, the root hash is that of its hashes and evidence, and
all statements were committed to. It stays so if evidence may nest deeper or identifiers are not
checked. -/
theorem verify_decides_tree (h : Hasher) (policy : Policy) (c : Credential) :
    ((c.verify h policy).verified = true ↔
        c.height ≤ policy.maxDepth ∧ ∀ path n, c.node? path = some n →
          n.structureFinding? policy.checkIdentifier = none ∧ n.computedRoot h = n.root ∧
            n.disclosureFindings h = []) ∧
      (∀ depth ≥ policy.maxDepth, (c.verify h policy).verified = true →
        (c.verify h { policy with maxDepth := depth }).verified = true) ∧
      ((c.verify h policy).verified = true →
        (c.verify h { policy with checkIdentifier := false }).verified = true) := by
  simp only [verified_iff, soundTree_iff_forall_node]
  refine ⟨Iff.rfl, ?_, ?_⟩
  · rintro depth hdepth ⟨hheight, hnodes⟩
    exact ⟨Nat.le_trans hheight hdepth, hnodes⟩
  · rintro ⟨hheight, hnodes⟩
    exact ⟨hheight, fun path n hnode => (hnodes path n hnode).without_identifier⟩

/-- A licence that rests on a claim about the person verifies where evidence may be given at all. -/
theorem licence_verifies_above_zero :
    (Sample.personalLicence.verify Sample.hasher ⟨0, true⟩).verified = false ∧
      (Sample.personalLicence.verify Sample.hasher ⟨1, true⟩).verified = true ∧
      (Sample.personalLicence.verify Sample.hasher ⟨2, true⟩).verified = true ∧
      (Sample.personalLicence.verify Sample.hasher ⟨1, false⟩).verified = true ∧
      Sample.personalLicence.node? [0] = some Sample.personal ∧
      Sample.personal.structureFinding? true = none := by
  have hheight : Sample.personalLicence.height = 1 := by
    rw [Sample.personalLicence, height_issued, heightAbove, Sample.personal, height_issued]
    rfl
  have hnode : Sample.personalLicence.node? [0] = some Sample.personal := rfl
  obtain ⟨-, hnodes⟩ := (verify_decides_tree Sample.hasher .standard Sample.personalLicence).1.1
    Sample.verified_personalLicence
  have hnone : ¬ (Sample.personalLicence.verify Sample.hasher ⟨0, true⟩).verified = true := by
    rw [(verify_decides_tree _ _ _).1, hheight]
    simp
  have hone : (Sample.personalLicence.verify Sample.hasher ⟨1, true⟩).verified = true :=
    (verify_decides_tree _ _ _).1.2 ⟨Nat.le_of_eq hheight, hnodes⟩
  obtain ⟨-, hdeeper, hlenient⟩ :=
    verify_decides_tree Sample.hasher ⟨1, true⟩ Sample.personalLicence
  exact ⟨Bool.eq_false_iff.2 hnone, hone, hdeeper 2 (by decide) hone, hlenient hone, hnode,
    (hnodes _ _ hnode).1⟩

/-! ### Replacing a credential -/

theorem structureFinding?_mem_findingsWithin {limit room : Nat} {finding : Finding}
    (hfinding : c.structureFinding? checkIdentifier = some finding) :
    finding ∈ findingsWithin h checkIdentifier limit room c := by
  rw [findingsWithin_of_structure _ _ _ hfinding]
  exact List.mem_singleton_self finding

theorem rootFinding?_mem_findingsWithin {limit room : Nat} {finding : Finding}
    (hstructure : c.structureFinding? checkIdentifier = none)
    (hfinding : c.rootFinding? h = some finding) :
    finding ∈ findingsWithin h checkIdentifier limit room c := by
  cases room <;> simp [findingsWithin, hstructure, hfinding]

/-- What is found about a piece of evidence is found with its index. -/
theorem invalidEvidence_mem_findingsWithin {limit room : Nat} {finding : Finding}
    (hstructure : c.structureFinding? checkIdentifier = none) (he : c.evidence[i]? = some e)
    (hfinding : finding ∈ findingsWithin h checkIdentifier limit room e) :
    .invalidEvidence i finding ∈ findingsWithin h checkIdentifier limit (room + 1) c := by
  rw [findingsWithin_succ _ _ _ hstructure, List.mem_append, List.mem_append]
  refine .inr (.inl (List.mem_flatMap.2 ⟨(e, i), ?_, List.mem_map_of_mem hfinding⟩))
  exact List.mem_zipIdx_iff_getElem?.2 he

/-- **What is wrong with a credential that was put into a sound tree is found at its place**, as
long as the place is not nested too deeply. -/
theorem along_mem_findingsWithin_replaceAt {new : Credential} {limit room : Nat} {finding : Finding}
    (hc : SoundTree h checkIdentifier c) (hnode : c.node? path = some n)
    (hroom : path.length ≤ room)
    (hfinding : finding ∈ findingsWithin h checkIdentifier limit (room - path.length) new) :
    finding.along path ∈ findingsWithin h checkIdentifier limit room (c.replaceAt path new) := by
  induction path generalizing c room with
  | nil => exact hfinding
  | cons i path ih =>
    obtain ⟨e, he, hnode⟩ := node?_cons_eq_some_iff.1 hnode
    obtain ⟨hsound, hevidence⟩ := soundTree_iff.1 hc
    cases room with
    | zero => exact absurd hroom (Nat.not_succ_le_zero _)
    | succ room =>
      rw [List.length_cons, Nat.add_sub_add_right] at hfinding
      have hbelow := ih (hevidence e (List.mem_of_getElem? he)) hnode
        (Nat.le_of_succ_le_succ hroom) hfinding
      exact invalidEvidence_mem_findingsWithin hsound.1 (getElem?_evidence_replaceAt he) hbelow

end Credential

end SelectiveDisclosure
