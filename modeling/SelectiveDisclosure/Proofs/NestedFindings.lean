import SelectiveDisclosure.Proofs.DisclosureFindings
import SelectiveDisclosure.Proofs.EvidencePaths

/-!
# What is found about evidence

Evidence is verified as part of a credential, by a verifier that counts how deep it is and stops at
the limit of the whole. What it finds there is what it would find if the piece of evidence had been
handed in alone, under a limit that is smaller by one. Nothing is lost and nothing added, and all of
it stands in its order behind the index of the piece. Just the number that is shown for evidence
that nests too deeply is that of the whole.

So the indices of a finding can be trusted. They are a path that leads to a credential, and what
stands behind them would be found about this credential on its own.

## Main definitions

* `Finding.withLimit` — a finding that shows another limit.
* `Finding.isAboutEvidence` — whether a finding is about evidence.
* `Credential.findingsAtDepth` — the findings of a verifier that counts how deep it is.

## Main results

* `Credential.findingsAtDepth_eq` — it is the same to count up to a limit and down from it.
* `Credential.map_withLimit_findingsWithin` — the limit is only shown, and decides nothing.
* `Credential.exists_node_of_along_mem` — the indices of a finding lead to a credential.
* `Credential.verify_reports_evidence` — what is found about a credential with evidence.
-/

namespace SelectiveDisclosure

namespace Finding

/-- The finding with another limit shown, if it is that evidence nests too deeply, at whatever
depth. -/
def withLimit (limit : Nat) : Finding → Finding
  | invalidEvidence index source => invalidEvidence index (source.withLimit limit)
  | evidenceTooDeep _ => evidenceTooDeep limit
  | finding => finding

/-- Whether a finding is about evidence: about a piece of it, or that there is too much. -/
def isAboutEvidence : Finding → Bool
  | invalidEvidence _ _ | evidenceTooDeep _ => true
  | _ => false

variable {finding : Finding}

theorem withLimit_of_not_isAboutEvidence (limit : Nat)
    (hfinding : finding.isAboutEvidence = false) : finding.withLimit limit = finding := by
  cases finding with
  | invalidEvidence | evidenceTooDeep => cases hfinding
  | _ => rfl

theorem isAboutEvidence_ofFault (fault : Fault) : (ofFault fault).isAboutEvidence = false := by
  cases fault <;> rfl

end Finding

namespace Content

/-- No finding about a content is about evidence. -/
theorem isAboutEvidence_of_mem_disclosureFindings {h : Hasher} {nonces : NonceMap}
    {hashes : List Digest} {c : Content} {finding : Finding}
    (hfinding : finding ∈ c.disclosureFindings h nonces hashes) :
    finding.isAboutEvidence = false := by
  cases hss : c.statements with
  | error fault =>
    rw [disclosureFindings_of_error hss, List.mem_singleton] at hfinding
    rw [hfinding, Finding.isAboutEvidence_ofFault]
  | ok ss =>
    obtain ⟨s, -, hfails⟩ := (mem_disclosureFindings_iff hss).1 hfinding
    cases hfails <;> rfl

end Content

namespace Credential

variable {h : Hasher} {checkIdentifier : Bool} {c n e : Credential} {finding : Finding} {i : Nat}
  {path : List Nat} {limit room : Nat}

/-! ### What is not about evidence -/

theorem isAboutEvidence_of_structureFinding?
    (hfinding : c.structureFinding? checkIdentifier = some finding) :
    finding.isAboutEvidence = false := by
  revert hfinding
  rw [structureFinding?]
  repeat' split
  all_goals rintro ⟨⟩ <;> rfl

theorem toList_rootFinding? (h : Hasher) (c : Credential) :
    (c.rootFinding? h).toList =
      if c.computedRoot h = c.root then [] else [.rootMismatch c.root (c.computedRoot h)] := by
  rw [rootFinding?]
  split <;> simp_all

theorem isAboutEvidence_of_rootFinding? (hfinding : finding ∈ (c.rootFinding? h).toList) :
    finding.isAboutEvidence = false := by
  rw [toList_rootFinding?] at hfinding
  split at hfinding
  · cases hfinding
  · rw [List.mem_singleton.1 hfinding]
    rfl

theorem isAboutEvidence_of_mem_disclosureFindings (hfinding : finding ∈ c.disclosureFindings h) :
    finding.isAboutEvidence = false :=
  Content.isAboutEvidence_of_mem_disclosureFindings hfinding

/-! ### Counting up and counting down -/

/-- The findings about a credential that is `depth` deep in what is verified, by a verifier that
counts how deep it is. -/
def findingsAtDepth (h : Hasher) (policy : Policy) (depth : Nat) (c : Credential) : List Finding :=
  match c.structureFinding? policy.checkIdentifier with
  | some finding => [finding]
  | none =>
    (c.rootFinding? h).toList ++
      ((if c.evidence.isEmpty then []
        else if policy.maxDepth ≤ depth then [.evidenceTooDeep policy.maxDepth]
        else evidenceFindings (fun e => findingsAtDepth h policy (depth + 1) e) c.evidence) ++
        c.disclosureFindings h)
termination_by policy.maxDepth - depth

/-- **It is the same to count up to a limit and down from it.** -/
theorem findingsAtDepth_eq (h : Hasher) (policy : Policy) (depth : Nat) (c : Credential) :
    c.findingsAtDepth h policy depth =
      findingsWithin h policy.checkIdentifier policy.maxDepth (policy.maxDepth - depth) c := by
  obtain ⟨room, hroom⟩ : ∃ room, policy.maxDepth - depth = room := ⟨_, rfl⟩
  rw [hroom]
  induction room generalizing depth c with
  | zero =>
    have hdeep : policy.maxDepth ≤ depth := Nat.sub_eq_zero_iff_le.1 hroom
    rw [findingsAtDepth, if_pos hdeep]
    cases hstructure : c.structureFinding? policy.checkIdentifier with
    | some finding => rw [findingsWithin_of_structure _ _ _ hstructure]
    | none => rw [findingsWithin_zero _ _ hstructure]
  | succ room ih =>
    have hdeep : ¬ policy.maxDepth ≤ depth := by omega
    have hbelow : (fun e => findingsAtDepth h policy (depth + 1) e) =
        findingsWithin h policy.checkIdentifier policy.maxDepth room :=
      funext fun e => ih (depth + 1) e (by omega)
    rw [findingsAtDepth, if_neg hdeep, hbelow]
    cases hstructure : c.structureFinding? policy.checkIdentifier with
    | some finding => rw [findingsWithin_of_structure _ _ _ hstructure]
    | none =>
      rw [findingsWithin_succ _ _ _ hstructure]
      -- without evidence there is nothing to be found about it, at any depth
      cases c.evidence <;> rfl

/-! ### The limit that is shown -/

theorem map_withLimit_evidenceFindings (limit : Nat) (about : Credential → List Finding)
    (evidence : List Credential) :
    (evidenceFindings about evidence).map (·.withLimit limit) =
      evidenceFindings (fun e => (about e).map (·.withLimit limit)) evidence := by
  simp only [evidenceFindings, List.map_flatMap, List.map_map]
  rfl

/-- What is not about evidence shows no limit. -/
theorem map_withLimit_eq_self (limit : Nat) {findings : List Finding}
    (hfindings : ∀ finding ∈ findings, finding.isAboutEvidence = false) :
    findings.map (·.withLimit limit) = findings := by
  refine (List.map_congr_left fun finding hmem => ?_).trans (List.map_id findings)
  exact Finding.withLimit_of_not_isAboutEvidence limit (hfindings finding hmem)

/-- Another limit is shown by the findings about evidence, and by no others. -/
theorem map_withLimit_parts (limit : Nat) (h : Hasher) (c : Credential) (findings : List Finding) :
    ((c.rootFinding? h).toList ++ (findings ++ c.disclosureFindings h)).map (·.withLimit limit) =
      (c.rootFinding? h).toList ++
        (findings.map (·.withLimit limit) ++ c.disclosureFindings h) := by
  rw [List.map_append, List.map_append,
    map_withLimit_eq_self limit fun _ => isAboutEvidence_of_rootFinding?,
    map_withLimit_eq_self limit fun _ => isAboutEvidence_of_mem_disclosureFindings]

theorem map_withLimit_of_structure (limit limit' room : Nat)
    (hstructure : c.structureFinding? checkIdentifier = some finding) :
    (findingsWithin h checkIdentifier limit room c).map (·.withLimit limit') =
      findingsWithin h checkIdentifier limit' room c := by
  rw [findingsWithin_of_structure _ _ _ hstructure, findingsWithin_of_structure _ _ _ hstructure]
  refine map_withLimit_eq_self limit' fun _ hmem => ?_
  rw [List.mem_singleton.1 hmem, isAboutEvidence_of_structureFinding? hstructure]

/-- **The limit is only shown, and decides nothing.** The induction is on the depth to spare, for
all credentials at once. -/
theorem map_withLimit_findingsWithin (h : Hasher) (checkIdentifier : Bool)
    (limit limit' room : Nat) (c : Credential) :
    (findingsWithin h checkIdentifier limit room c).map (·.withLimit limit') =
      findingsWithin h checkIdentifier limit' room c := by
  induction room generalizing c with
  | zero =>
    cases hstructure : c.structureFinding? checkIdentifier with
    | some finding => exact map_withLimit_of_structure _ _ _ hstructure
    | none =>
      rw [findingsWithin_zero _ _ hstructure, findingsWithin_zero _ _ hstructure,
        map_withLimit_parts]
      cases c.evidence <;> rfl
  | succ room ih =>
    cases hstructure : c.structureFinding? checkIdentifier with
    | some finding => exact map_withLimit_of_structure _ _ _ hstructure
    | none =>
      rw [findingsWithin_succ _ _ _ hstructure, findingsWithin_succ _ _ _ hstructure,
        map_withLimit_parts, map_withLimit_evidenceFindings]
      simp only [ih]

/-! ### Indices of findings -/

/-- What is found with an index is found about the piece of evidence with this index. -/
theorem exists_evidence_of_invalidEvidence_mem
    (hfinding : .invalidEvidence i finding ∈ findingsWithin h checkIdentifier limit room c) :
    ∃ below e, room = below + 1 ∧ c.evidence[i]? = some e ∧
      finding ∈ findingsWithin h checkIdentifier limit below e := by
  cases hstructure : c.structureFinding? checkIdentifier with
  | some found =>
    rw [findingsWithin_of_structure _ _ _ hstructure, List.mem_singleton] at hfinding
    subst hfinding
    cases isAboutEvidence_of_structureFinding? hstructure
  | none =>
    cases room with
    | zero =>
      rw [findingsWithin_zero _ _ hstructure, List.mem_append, List.mem_append] at hfinding
      rcases hfinding with hroot | hdeep | hdisclosed
      · cases isAboutEvidence_of_rootFinding? hroot
      · split at hdeep <;> simp at hdeep
      · cases isAboutEvidence_of_mem_disclosureFindings hdisclosed
    | succ below =>
      rw [findingsWithin_succ _ _ _ hstructure, List.mem_append, List.mem_append] at hfinding
      rcases hfinding with hroot | hevidence | hdisclosed
      · cases isAboutEvidence_of_rootFinding? hroot
      · obtain ⟨⟨e, j⟩, hindex, hmem⟩ := List.mem_flatMap.1 hevidence
        obtain ⟨found, hfound, heq⟩ := List.mem_map.1 hmem
        obtain ⟨rfl, rfl⟩ := Finding.invalidEvidence.inj heq
        exact ⟨below, e, rfl, List.mem_zipIdx_iff_getElem?.1 hindex, hfound⟩
      · cases isAboutEvidence_of_mem_disclosureFindings hdisclosed

/-- **The indices of a finding lead to a credential** about which the rest of it is found. -/
theorem exists_node_of_along_mem
    (hfinding : finding.along path ∈ findingsWithin h checkIdentifier limit room c) :
    path.length ≤ room ∧ ∃ n, c.node? path = some n ∧
      finding ∈ findingsWithin h checkIdentifier limit (room - path.length) n := by
  induction path generalizing c room with
  | nil => exact ⟨Nat.zero_le _, c, rfl, hfinding⟩
  | cons i path ih =>
    obtain ⟨below, e, rfl, he, hbelow⟩ := exists_evidence_of_invalidEvidence_mem hfinding
    obtain ⟨hlength, n, hnode, hfound⟩ := ih hbelow
    refine ⟨Nat.succ_le_succ hlength, n, node?_cons_eq_some_iff.2 ⟨e, he, hnode⟩, ?_⟩
    rwa [List.length_cons, Nat.add_sub_add_right]

/-! ### Verification -/

/-- What is found with some depth to spare is found by a verification with this depth as its limit,
and shows the limit of the whole. -/
theorem findingsWithin_eq_map_verify (h : Hasher) (checkIdentifier : Bool) (limit room : Nat)
    (c : Credential) :
    findingsWithin h checkIdentifier limit room c =
      (c.verify h ⟨room, checkIdentifier⟩).findings.map (·.withLimit limit) :=
  (map_withLimit_findingsWithin h checkIdentifier room limit room c).symm

/-- What is found about evidence is found by a verification of each piece on its own, with the limit
of the whole shown. -/
theorem evidenceFindings_verify (h : Hasher) (checkIdentifier : Bool) (limit room : Nat)
    (evidence : List Credential) :
    evidenceFindings (findingsWithin h checkIdentifier limit room) evidence =
      evidence.zipIdx.flatMap fun e =>
        (e.1.verify h ⟨room, checkIdentifier⟩).findings.map fun finding =>
          .invalidEvidence e.2 (finding.withLimit limit) := by
  refine List.flatMap_congr fun (e, index) _ => ?_
  show (findingsWithin h checkIdentifier limit room e).map (Finding.invalidEvidence index) = _
  rw [findingsWithin_eq_map_verify, List.map_map]
  rfl

/-- **What is found about evidence is reported as it is found.** A credential whose parts fit has
its root hash reported exactly if it is another than computed, then what is found about its
evidence, and then what is found about its content. Where evidence may nest no deeper, it is
reported that there is evidence, and nothing about it. Otherwise each piece has its findings
reported in order, those of a verification on its own under a limit smaller by one, with the limit
of the whole shown. It is the same if the verifier counts how deep it is. The indices of a finding
lead to a credential, and what stands behind them is found by a verification of this credential on
its own. -/
theorem verify_reports_evidence (h : Hasher) (checkIdentifier : Bool) (c : Credential) :
    (c.structureFinding? checkIdentifier = none →
      ((c.verify h ⟨0, checkIdentifier⟩).findings =
        (if c.computedRoot h = c.root then [] else [.rootMismatch c.root (c.computedRoot h)]) ++
          ((if c.evidence.isEmpty then [] else [.evidenceTooDeep 0]) ++
            c.disclosureFindings h)) ∧
      ∀ limit, (c.verify h ⟨limit + 1, checkIdentifier⟩).findings =
        (if c.computedRoot h = c.root then [] else [.rootMismatch c.root (c.computedRoot h)]) ++
          (c.evidence.zipIdx.flatMap (fun e =>
              (e.1.verify h ⟨limit, checkIdentifier⟩).findings.map fun finding =>
                .invalidEvidence e.2 (finding.withLimit (limit + 1))) ++
            c.disclosureFindings h)) ∧
    ∀ limit,
      (c.verify h ⟨limit, checkIdentifier⟩).findings =
          c.findingsAtDepth h ⟨limit, checkIdentifier⟩ 0 ∧
        ∀ path finding, finding.along path ∈ (c.verify h ⟨limit, checkIdentifier⟩).findings →
          path.length ≤ limit ∧ ∃ n, c.node? path = some n ∧
            ∃ found ∈ (n.verify h ⟨limit - path.length, checkIdentifier⟩).findings,
              found.withLimit limit = finding := by
  refine ⟨fun hstructure => ⟨?_, fun limit => ?_⟩, fun limit => ⟨?_, fun path finding hmem => ?_⟩⟩
  · rw [← toList_rootFinding?]
    exact findingsWithin_zero h 0 hstructure
  · rw [← toList_rootFinding?, ← evidenceFindings_verify]
    exact findingsWithin_succ h (limit + 1) limit hstructure
  · exact (findingsAtDepth_eq h ⟨limit, checkIdentifier⟩ 0 c).symm
  · obtain ⟨hlength, n, hnode, hfound⟩ := exists_node_of_along_mem hmem
    rw [findingsWithin_eq_map_verify] at hfound
    exact ⟨hlength, n, hnode, List.mem_map.1 hfound⟩

end Credential

namespace Sample

/-- Another licence, issued over the first. -/
def renewal : Credential := .issued hasher (.counting "n") licence [personalLicence] 4

theorem verified_renewal : (renewal.verify hasher .standard).verified = true := by
  obtain ⟨hheight, htree⟩ := Credential.verified_iff.1 verified_personalLicence
  refine Credential.verified_issued rfl (by decide) (by decide) (by decide) ?_
    (List.forall_mem_singleton.2 htree)
  rw [List.forall_mem_singleton, personalLicence, Credential.height_issued, Credential.heightAbove,
    personal, Credential.height_issued]
  decide

end Sample

namespace Credential

/-- Where evidence may nest one deep, evidence for evidence is too deep. This is found about the
licence on its own, with no depth to spare, and with its index about the renewal. -/
theorem renewal_too_deep :
    Sample.renewal.structureFinding? true = none ∧
      (Sample.personalLicence.verify Sample.hasher ⟨0, true⟩).findings = [.evidenceTooDeep 0] ∧
      (Sample.renewal.verify Sample.hasher ⟨1, true⟩).findings =
        [.invalidEvidence 0 (.evidenceTooDeep 1)] ∧
      ∃ n, Sample.renewal.node? [0] = some n ∧
        ∃ found ∈ (n.verify Sample.hasher ⟨0, true⟩).findings,
          found.withLimit 1 = .evidenceTooDeep 1 := by
  obtain ⟨hrenewal, hevidence⟩ := soundTree_iff.1 (verified_iff.1 Sample.verified_renewal).2
  have hlicence := (soundTree_iff.1 (List.forall_mem_singleton.1 hevidence)).1
  obtain ⟨hlowest, -⟩ :=
    (verify_reports_evidence Sample.hasher true Sample.personalLicence).1 hlicence.1
  obtain ⟨hparts, hpaths⟩ := verify_reports_evidence Sample.hasher true Sample.renewal
  have hbelow : (Sample.personalLicence.verify Sample.hasher ⟨0, true⟩).findings =
      [.evidenceTooDeep 0] := by
    rw [hlowest, if_pos hlicence.2.1, hlicence.2.2]
    rfl
  have habove : (Sample.renewal.verify Sample.hasher ⟨1, true⟩).findings =
      [.invalidEvidence 0 (.evidenceTooDeep 1)] := by
    rw [(hparts hrenewal.1).2 0, if_pos hrenewal.2.1, hrenewal.2.2, Sample.renewal,
      evidence_issued]
    simp [hbelow, Finding.withLimit]
  have hmem : Finding.along [0] (.evidenceTooDeep 1) ∈
      (Sample.renewal.verify Sample.hasher ⟨1, true⟩).findings := by
    rw [habove]
    exact List.mem_singleton_self _
  exact ⟨hrenewal.1, hbelow, habove, ((hpaths 1).2 [0] _ hmem).2⟩

end Credential

end SelectiveDisclosure
