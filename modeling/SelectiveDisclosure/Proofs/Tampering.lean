import SelectiveDisclosure.Proofs.EvidencePaths

/-!
# Tampering is found where it was done

Somebody changes a credential in a tree that verifies. They replace the list of its hashes, whether
by a few bits or altogether, or they put another credential in the place of one of its pieces of
evidence. Either changes the list of leaves, and with it the root hash that the verifier computes.
So the change is found, and the indices in the finding lead to the credential that was changed.

What replaces evidence need not be wrong in itself. It may be a credential that verifies; what gives
it away is that its root hash is not the one that was committed to.

## Where it is not the root hash that is found

The hashes are sorted before they are hashed, and the same hashes in another order have the same
root hash. This is found all the same, as hashes are only taken in ascending order. Whatever is
found about the parts of a credential is the only finding about it, and stands in the same place.

## Main definitions

* `Credential.Tampered` — other hashes, or a piece of evidence with another root hash.

## Main results

* `Credential.Tampered.rootFinding?_eq` — the root hash of what was changed is not the one computed.
* `Credential.tampering_located` — a tree that was changed anywhere is rejected, and the findings
  say where.
-/

namespace SelectiveDisclosure

namespace Credential

/-- What becomes of a credential if its hashes are replaced by other hashes, or a piece of its
evidence by a credential with another root hash. -/
inductive Tampered (n : Credential) : Credential → Prop
  | hashes {hashes : List Digest} (hne : hashes ≠ n.hashes) : Tampered n { n with hashes }
  | evidence {i : Nat} {e new : Credential} (he : n.evidence[i]? = some e)
      (hne : new.root ≠ e.root) : Tampered n { n with evidence := n.evidence.set i new }

variable {h : Hasher} {policy : Policy} {checkIdentifier : Bool} {c n n' : Credential}
  {path : List Nat}

namespace Tampered

theorem root_eq (htampered : Tampered n n') : n'.root = n.root := by
  cases htampered <;> rfl

/-- Hashes and evidence are not cut elsewhere: only one of the two lists is another. -/
theorem digests_ne (htampered : Tampered n n') :
    n.hashes ++ n.evidenceRoots ≠ n'.hashes ++ n'.evidenceRoots := by
  cases htampered with
  | hashes hne => exact fun heq => hne (List.append_cancel_right heq).symm
  | @evidence i e new he hne =>
    obtain ⟨hi, rfl⟩ := List.getElem?_eq_some_iff.1 he
    intro heq
    have hroots := congrArg (·[i]?) (List.append_cancel_left heq)
    exact hne (by simpa [evidenceRoots, hi] using hroots.symm)

/-- The root hash of what was changed is not the one computed. -/
theorem rootFinding?_eq (htampered : Tampered n n') (hn : Sound h checkIdentifier n)
    (hstructure : n'.structureFinding? checkIdentifier = none)
    (hclean : h.CollisionFree [n.leaves, n'.leaves]) :
    n'.rootFinding? h = some (.rootMismatch n.root (n'.computedRoot h)) := by
  obtain ⟨hstructured, hroot, -⟩ := hn
  have hascending := (structureFinding?_eq_none_iff.1 hstructured).2.1.imp Std.le_of_lt
  have hascending' := (structureFinding?_eq_none_iff.1 hstructure).2.1.imp Std.le_of_lt
  have hne : n'.computedRoot h ≠ n'.root := by
    intro heq
    have hleaves := leaves_inj hclean (hroot.trans (htampered.root_eq.symm.trans heq.symm))
    exact htampered.digests_ne ((leaves_eq_iff hascending hascending').1 hleaves)
  rw [Credential.rootFinding?, if_pos hne, htampered.root_eq]

end Tampered

/-- In a tree that verifies there is room for what is found at the end of a path. -/
theorem along_mem_findings_replaceAt {new : Credential} {finding : Finding}
    (hverified : (c.verify h policy).verified = true) (hnode : c.node? path = some n)
    (hfinding : ∀ room, finding ∈
      findingsWithin h policy.checkIdentifier policy.maxDepth room new) :
    finding.along path ∈ ((c.replaceAt path new).verify h policy).findings := by
  obtain ⟨hheight, htree⟩ := verified_iff.1 hverified
  have hlength := length_add_height_le hnode
  have hroom : path.length ≤ policy.maxDepth := by omega
  exact along_mem_findingsWithin_replaceAt htree hnode hroom (hfinding _)

/-- **A tree that was changed anywhere is rejected, and the findings say where.** -/
theorem tampering_located (htampered : Tampered n n')
    (hverified : (c.verify h policy).verified = true) (hnode : c.node? path = some n)
    (hclean : h.CollisionFree [n.leaves, n'.leaves]) :
    ((c.replaceAt path n').verify h policy).verified = false ∧
      (n'.structureFinding? policy.checkIdentifier = none →
        (Finding.rootMismatch n.root (n'.computedRoot h)).along path ∈
          ((c.replaceAt path n').verify h policy).findings) := by
  have hlocated : n'.structureFinding? policy.checkIdentifier = none →
      (Finding.rootMismatch n.root (n'.computedRoot h)).along path ∈
        ((c.replaceAt path n').verify h policy).findings := by
    intro hstructure
    have hn := (verified_iff.1 hverified).2.sound_of_node hnode
    exact along_mem_findings_replaceAt hverified hnode fun _ =>
      rootFinding?_mem_findingsWithin hstructure (htampered.rootFinding?_eq hn hstructure hclean)
  refine ⟨?_, hlocated⟩
  cases hstructure : n'.structureFinding? policy.checkIdentifier with
  | none => exact Report.verified_eq_false_of_mem (hlocated hstructure)
  | some finding =>
    exact Report.verified_eq_false_of_mem (along_mem_findings_replaceAt hverified hnode
      fun _ => structureFinding?_mem_findingsWithin hstructure)

end Credential

/-! ### A hash too many -/

namespace Sample

/-- The claim about the person with one more hash in front of the others. -/
def padded : Credential := { personal with hashes := Digest.zero :: personal.hashes }

theorem zero_lt_hashes_personal : ∀ d ∈ personal.hashes, Digest.zero < d :=
  Credential.forall_mem_hashes_issued (by decide)

/-- Its parts still fit. -/
theorem structureFinding?_padded : padded.structureFinding? true = none := by
  have hsound := (Credential.soundTree_iff.1 (Credential.verified_iff.1 verified_personal).2).1
  obtain ⟨hblank, hascending, hsize, hnonces, hidentifier⟩ :=
    Credential.structureFinding?_eq_none_iff.1 hsound.1
  refine Credential.structureFinding?_eq_none_iff.2
    ⟨hblank, ?_, Nat.le_succ_of_le hsize, hnonces, hidentifier⟩
  exact List.pairwise_cons.2 ⟨zero_lt_hashes_personal, hascending⟩

end Sample

namespace Credential

/-- In a licence that rests on a claim about a person, the claim is given a hash too many. This is
found, and it is found in the first piece of evidence. -/
theorem tampering_located_in_claim :
    ((Sample.personalLicence.replaceAt [0] Sample.padded).verify Sample.hasher
        .standard).verified = false ∧
      .invalidEvidence 0
          (.rootMismatch Sample.personal.root (Sample.padded.computedRoot Sample.hasher)) ∈
        ((Sample.personalLicence.replaceAt [0] Sample.padded).verify Sample.hasher
          .standard).findings := by
  have hnode : Sample.personalLicence.node? [0] = some Sample.personal := rfl
  have htampered : Tampered Sample.personal Sample.padded := .hashes (by simp)
  have hascending := (structureFinding?_eq_none_iff.1 Sample.structureFinding?_padded).2.1
  have hleaves : Sample.padded.leaves = Digest.zero.bytes ++ Sample.personal.leaves := by
    rw [leaves_eq_of_ascending (hascending.imp Std.le_of_lt), Sample.personal,
      leaves_eq_of_ascending ascending_hashes_issued]
    rfl
  have hclean : Sample.hasher.CollisionFree [Sample.personal.leaves, Sample.padded.leaves] := by
    rw [hleaves, Sample.personal, leaves_issued (by decide)]
    decide
  obtain ⟨hrejected, hlocated⟩ :=
    tampering_located htampered Sample.verified_personalLicence hnode hclean
  exact ⟨hrejected, hlocated Sample.structureFinding?_padded⟩

end Credential

end SelectiveDisclosure
