import SelectiveDisclosure.Proofs.Issuance

/-!
# What a root hash fixes

The root hash is the hash of one list of leaves, the salted hashes and behind them the root hashes
of the evidence. Both are digests and nothing marks where the one ends and the other begins. So the
root hash fixes the list, and it does not fix how the list is cut.

## How the cut can be moved

The salted hashes have to be strictly ascending, wherever they are said to end. So evidence can be
passed off as salted hashes, from the front, as long as its root hashes ascend from the last salted
hash on. The evidence is gone then, and the root hash, the identifier and all that is disclosed stay
as they were. Whether this can be done is a matter of chance: it takes a first root hash that is
greater than every salted hash.

In the other direction salted hashes would have to be passed off as evidence, which takes
credentials that have them as root hashes.

## Main definitions

* `Credential.absorb` — the first pieces of evidence are passed off as salted hashes.

## Main results

* `Credential.root_fixes_leaves` — what two accepted credentials with one root hash have in common.
* `Credential.verified_absorb_iff` — evidence can be passed off as salted hashes exactly if these
  are still ascending.
-/

namespace SelectiveDisclosure

namespace Credential

variable {h : Hasher} {policy : Policy} {c c' : Credential}

theorem length_evidenceRoots (c : Credential) : c.evidenceRoots.length = c.evidence.length :=
  List.length_map _

/-- Accepted credentials with one root hash have the same list of leaves. -/
theorem hashes_append_evidenceRoots_eq (hc : SoundFrame h policy c) (hc' : SoundFrame h policy c')
    (hroot : c.root = c'.root) (hclean : h.CollisionFree [c.leaves, c'.leaves]) :
    c.hashes ++ c.evidenceRoots = c'.hashes ++ c'.evidenceRoots := by
  obtain ⟨hascending, -, -, -, hcomputed, -⟩ := hc
  obtain ⟨hascending', -, -, -, hcomputed', -⟩ := hc'
  have hleaves : c.leaves = c'.leaves :=
    leaves_inj hclean (hcomputed.trans (hroot.trans hcomputed'.symm))
  exact (leaves_eq_iff (hascending.imp Std.le_of_lt) (hascending'.imp Std.le_of_lt)).1 hleaves

/-- **A root hash fixes the leaves, but not where the evidence begins among them.** Of two accepted
credentials with one root hash, one that has less evidence lists as salted hashes what the other has
as its first pieces of evidence. -/
theorem root_fixes_leaves (hc : (c.verify h policy).verified = true)
    (hc' : (c'.verify h policy).verified = true) (hroot : c.root = c'.root)
    (hclean : h.CollisionFree [c.leaves, c'.leaves]) :
    c.hashes ++ c.evidenceRoots = c'.hashes ++ c'.evidenceRoots ∧
      (c.evidence.length = c'.evidence.length ↔
        c.hashes = c'.hashes ∧ c.evidenceRoots = c'.evidenceRoots) ∧
      (c'.evidence.length < c.evidence.length →
        ∃ moved, moved ≠ [] ∧ c'.hashes = c.hashes ++ moved ∧
          c.evidenceRoots = moved ++ c'.evidenceRoots ∧
            (c.hashes ++ moved).Pairwise (· < ·)) := by
  have hframe := (verified_iff_soundFrame.1 hc).1
  have hframe' := (verified_iff_soundFrame.1 hc').1
  have hleaves := hashes_append_evidenceRoots_eq hframe hframe' hroot hclean
  rw [← length_evidenceRoots, ← length_evidenceRoots]
  refine ⟨hleaves, ⟨fun hlen => List.append_inj' hleaves hlen, fun heq => heq.2 ▸ rfl⟩, ?_⟩
  intro hlen
  -- one list of hashes continues the other, and having less evidence says which
  rcases List.append_eq_append_iff.1 hleaves with ⟨moved, hhashes, hroots⟩ | ⟨moved, -, hroots⟩
  · refine ⟨moved, ?_, hhashes, hroots, hhashes ▸ hframe'.1⟩
    rintro rfl
    rw [hroots, List.nil_append] at hlen
    exact Nat.lt_irrefl _ hlen
  · rw [hroots, List.length_append] at hlen
    omega

/-- A licence over a claim about the person, and the copy of it that shows the holder alone. -/
theorem root_fixes_leaves_of_copy :
    ∃ licence copy : Credential,
      (licence.verify Sample.hasher .standard).verified = true ∧
      (copy.verify Sample.hasher .standard).verified = true ∧
      licence.root = copy.root ∧ Sample.hasher.CollisionFree [licence.leaves, copy.leaves] ∧
      licence.content ≠ copy.content ∧ licence.evidence.length = 1 ∧
      licence.hashes = copy.hashes ∧ licence.evidenceRoots = copy.evidenceRoots := by
  have hcopy := verified_without Sample.verified_personalLicence ["class"]
  have hclean := Sample.hasher.collisionFree_same Sample.personalLicence.leaves
  exact ⟨_, _, Sample.verified_personalLicence, hcopy, rfl, hclean, by decide, rfl,
    (root_fixes_leaves Sample.verified_personalLicence hcopy rfl hclean).2.1.1 rfl⟩

/-! ### Moving the cut -/

/-- The credential with its first pieces of evidence passed off as salted hashes. -/
def absorb (c : Credential) (count : Nat) : Credential :=
  { c with
    hashes := c.hashes ++ (c.evidence.take count).map (·.root)
    evidence := c.evidence.drop count }

theorem hashes_absorb_append_evidenceRoots (c : Credential) (count : Nat) :
    (c.absorb count).hashes ++ (c.absorb count).evidenceRoots = c.hashes ++ c.evidenceRoots := by
  simp only [absorb, evidenceRoots, List.append_assoc]
  rw [← List.map_append, List.take_append_drop]

theorem leaves_absorb {count : Nat} (hc : c.hashes.Pairwise (· < ·))
    (hascending : (c.absorb count).hashes.Pairwise (· < ·)) :
    (c.absorb count).leaves = c.leaves :=
  (leaves_eq_iff (hascending.imp Std.le_of_lt) (hc.imp Std.le_of_lt)).2
    (hashes_absorb_append_evidenceRoots c count)

/-- **Evidence can be passed off as salted hashes exactly if these are still ascending.** -/
theorem verified_absorb_iff {count : Nat} (hc : (c.verify h policy).verified = true) :
    ((c.absorb count).verify h policy).verified = true ↔
      (c.absorb count).hashes.Pairwise (· < ·) := by
  obtain ⟨⟨hhashes, hsize, hnonces, hidentifier, hroot, hheight, htrees⟩, ss, hss, hcovered⟩ :=
    verified_iff_soundFrame.1 hc
  constructor
  · intro habsorbed
    exact (verified_iff_soundFrame.1 habsorbed).1.1
  · intro hascending
    have hlonger : c.hashes ⊆ (c.absorb count).hashes := List.subset_append_left _ _
    refine verified_iff_soundFrame.2
      ⟨⟨hascending, ?_, hnonces, hidentifier, ?_, ?_, ?_⟩, ss, hss, ?_⟩
    · refine Nat.le_trans hsize ?_
      simp [absorb]
    -- the root hash is over the same leaves, which are only cut elsewhere
    · rw [computedRoot_eq_hash, leaves_absorb hhashes hascending, ← computedRoot_eq_hash]
      exact hroot
    · rw [heightAbove_le_iff] at hheight ⊢
      intro e he
      exact hheight e (List.mem_of_mem_drop he)
    · intro e he
      exact htrees e (List.mem_of_mem_drop he)
    · intro s hs
      exact (hcovered s hs).mono hlonger

/-- A single piece of evidence can be passed off as a salted hash if its root hash is greater than
all of them. -/
theorem verified_absorb_one {e : Credential} (hc : (c.verify h policy).verified = true)
    (hevidence : c.evidence = [e]) (hgreater : ∀ d ∈ c.hashes, d < e.root) :
    ((c.absorb 1).verify h policy).verified = true := by
  refine (verified_absorb_iff hc).2 ?_
  rw [absorb, hevidence]
  refine List.pairwise_append.2 ⟨(verified_iff_soundFrame.1 hc).1.1, by simp, ?_⟩
  intro d hd e' he'
  rw [List.mem_singleton.1 he']
  exact hgreater d hd

end Credential

/-! ### A licence that rests on a claim about the person -/

namespace Sample

/-- A licence that rests on the claim. -/
def licensed : Credential := .issued .blake2b .uuids licence [certificate] 6

theorem verified_licensed : (licensed.verify .blake2b .standard).verified = true := by
  refine Credential.verified_issued rfl (by decide +kernel) (by decide +kernel) (by decide +kernel)
    ?_ (List.forall_mem_singleton.2 (Credential.verified_iff.1 verified_certificate).2)
  rw [List.forall_mem_singleton, certificate, Credential.height_issued, Credential.heightAbove]
  decide

/-- By chance the root hash of the claim is greater than the salted hashes of the licence. -/
theorem lt_root_certificate : ∀ d ∈ licensed.hashes, d < certificate.root := by
  refine Credential.forall_mem_hashes_issued ?_
  rw [certificate, Credential.root_issued (by decide +kernel)]
  decide +kernel

end Sample

namespace Credential

/-- A licence is issued over a claim about the person. The claim can be dropped from it, and root
hash and identifier are those of the licence with the claim. -/
theorem evidence_can_be_dropped :
    ∃ person licence : Credential,
      (Agent.standard.issue Sample.person [] 0).result = .ok person ∧
      (Agent.standard.issue Sample.licence [person] 6).result = .ok licence ∧
      (licence.verify .blake2b .standard).verified = true ∧
      ((licence.absorb 1).verify .blake2b .standard).verified = true ∧
      (licence.absorb 1).root = licence.root ∧
      (licence.absorb 1).identifier = licence.identifier ∧
      Hasher.blake2b.CollisionFree [licence.leaves, (licence.absorb 1).leaves] ∧
      (licence.absorb 1).evidenceRoots ≠ licence.evidenceRoots ∧
      (licence.absorb 1).hashes ≠ licence.hashes := by
  have hperson := Agent.issue_result_of_verified .standard Sample.person [] 0 (by simp) rfl
  have hlicence := Agent.issue_result_of_verified .standard Sample.licence [Sample.certificate] 6
    (List.forall_mem_singleton.2 Sample.verified_certificate) rfl
  have habsorbed :=
    verified_absorb_one Sample.verified_licensed rfl Sample.lt_root_certificate
  have hleaves := leaves_absorb (verified_iff_soundFrame.1 Sample.verified_licensed).1.1
    (verified_iff_soundFrame.1 habsorbed).1.1
  refine ⟨Sample.certificate, Sample.licensed, hperson, hlicence, Sample.verified_licensed,
    habsorbed, rfl, rfl, ?_, ?_, ?_⟩
  · rw [hleaves]
    exact Hasher.collisionFree_same _ _
  · simp [absorb, evidenceRoots, Sample.licensed, evidence_issued]
  · simp [absorb, Sample.licensed, evidence_issued]

end Credential

end SelectiveDisclosure
