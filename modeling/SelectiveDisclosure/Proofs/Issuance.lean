import SelectiveDisclosure.Agent
import SelectiveDisclosure.Proofs.EvidenceTree
import SelectiveDisclosure.Proofs.Messages
import SelectiveDisclosure.Testing.Parties
import SelectiveDisclosure.Testing.Samples

/-!
# What is issued verifies

Issuance and verification were written apart, and every check of the verifier has to be met by what
the issuer puts together: ascending hashes without repetitions, no more nonces than hashes, the root
hash, the identifier, and for every statement a nonce under its digest and a salted hash among the
hashes.

## Where collisions come in

Twice, and for different reasons. Two statements with one digest would share one entry of the nonce
map, and the first would be looked up with the nonce of the second. Two salted statements with one
digest would be listed twice, and the hashes would not be strictly ascending. Nothing else that is
checked can fail for what was issued, except that a nonce is empty or that evidence, which is
verified at one depth when it is handed in and one level deeper as part of the credential, is now
nested too deeply.

## Main definitions

* `Credential.issued` — the credential that issuance makes of a content with statements.

## Main results

* `Credential.issue_eq_ok_iff` — issuance gives `issued`, for a content with statements.
* `Credential.get?_nonces_issued_eq_some_iff` — the nonce of each statement is found under its
  digest, and nothing else is found.
* `Credential.soundFrame_issued_iff` — when the frame of what is issued is in order.
* `Credential.verified_issued_iff_soundFrame` — all that can keep what is issued from verifying is
  its frame.
* `Agent.issue_agrees_with_verify` — when an agent issues, and when it accepts what it has issued.
-/

namespace SelectiveDisclosure

variable {σ : Type} {h : Hasher} {source : NonceSource σ} {state : σ} {content : Content}
  {evidence : List Credential} {ss : List Statement}

/-! ### What is drawn -/

namespace Content

theorem pairwise_drawn (hss : content.statements = .ok ss) :
    (content.drawn h source state).Pairwise fun d d' => d.statement.text ≠ d'.statement.text := by
  have texts := pairwise_text_ne hss
  rw [← map_statement_drawn h source state hss, List.pairwise_map] at texts
  exact texts

theorem nodup_digests (hss : content.statements = .ok ss)
    (hclean : h.CollisionFree content.statementMessages) :
    ((content.drawn h source state).map (·.digest)).Nodup := by
  refine List.pairwise_map.2 ((pairwise_drawn hss).imp_of_mem ?_)
  intro d d' hd hd' hne heq
  rw [digest_eq_of_mem_drawn hd, digest_eq_of_mem_drawn hd'] at heq
  exact hne (text_eq_of_digest_eq hss hclean (statement_mem_of_mem_drawn hss hd)
    (statement_mem_of_mem_drawn hss hd') heq)

/-- Among salted statements without collisions, no salted hash is listed twice. -/
theorem nodup_salted (hss : content.statements = .ok ss)
    (hclean : h.CollisionFree (content.drawnMessages h source state)) :
    ((content.drawn h source state).map (·.salted)).Nodup := by
  refine List.pairwise_map.2 ((pairwise_drawn hss).imp_of_mem ?_)
  intro d d' hd hd' hne heq
  rw [salted_eq_of_mem_drawn hd, salted_eq_of_mem_drawn hd'] at heq
  have hmem := statement_mem_of_mem_drawn hss hd
  have hmem' := statement_mem_of_mem_drawn hss hd'
  exact hne (salted_inj hclean hss hss hmem hmem' (message_mem_drawnMessages hd)
    (message_mem_drawnMessages hd') heq).2

end Content

/-! ### What is issued -/

namespace Credential

/-- The credential that issuance makes of a content with statements. -/
def issued (h : Hasher) (source : NonceSource σ) (content : Content) (evidence : List Credential)
    (state : σ) : Credential :=
  ofCommitment h content evidence (.ofSalted (content.drawn h source state))

theorem issue_eq_ok_iff {c : Credential} :
    (issue h source content evidence state).1 = .ok c ↔
      (∃ ss, content.statements = .ok ss) ∧ c = issued h source content evidence state := by
  rw [issue, Content.commit, issued, Content.drawn, Content.stated]
  cases content.statements with
  | error fault => simp [Except.map]
  | ok ss => simp [Except.map, eq_comm]

theorem issue_of_statements (h : Hasher) (source : NonceSource σ) (evidence : List Credential)
    (state : σ) (hss : content.statements = .ok ss) :
    (issue h source content evidence state).1 = .ok (issued h source content evidence state) :=
  issue_eq_ok_iff.2 ⟨⟨ss, hss⟩, rfl⟩

theorem evidence_issued : (issued h source content evidence state).evidence = evidence := rfl

theorem hashes_issued :
    (issued h source content evidence state).hashes =
      Digest.sort ((content.drawn h source state).map (·.salted)) := rfl

theorem nonces_issued :
    (issued h source content evidence state).nonces =
      .ofList ((content.drawn h source state).map fun d => (d.digest, d.nonce)) := rfl

/-- The root hash is that of the hashes and the evidence, whatever was committed to. -/
theorem computedRoot_issued :
    (issued h source content evidence state).computedRoot h =
      (issued h source content evidence state).root := rfl

theorem rootIdentifier_issued :
    (issued h source content evidence state).rootIdentifier.text =
      (issued h source content evidence state).identifier := rfl

theorem ascending_hashes_issued :
    (issued h source content evidence state).hashes.Pairwise (· ≤ ·) :=
  Digest.sort_ascending _

theorem mem_hashes_issued_iff {salted : Digest} :
    salted ∈ (issued h source content evidence state).hashes ↔
      ∃ d ∈ content.drawn h source state, d.salted = salted := by
  rw [hashes_issued, (Digest.sort_perm _).mem_iff, List.mem_map]

/-- The leaves of what is issued, if the salted hashes happen to be drawn in their order. -/
theorem leaves_issued
    (hascending : ((content.drawn h source state).map (·.salted)).Pairwise (· ≤ ·)) :
    (issued h source content evidence state).leaves =
      (((content.drawn h source state).map (·.salted) ++ evidence.map (·.root)).map
        (·.bytes)).flatten := by
  rw [leaves_eq_of_ascending ascending_hashes_issued, hashes_issued,
    Digest.sort_eq_self hascending]
  rfl

theorem root_issued
    (hascending : ((content.drawn h source state).map (·.salted)).Pairwise (· ≤ ·)) :
    (issued h source content evidence state).root =
      h.hash (((content.drawn h source state).map (·.salted) ++ evidence.map (·.root)).map
        (·.bytes)).flatten := by
  rw [← computedRoot_issued, computedRoot_eq_hash, leaves_issued hascending]

theorem forall_mem_hashes_issued {P : Digest → Prop}
    (hdrawn : ∀ d ∈ content.drawn h source state, P d.salted) :
    ∀ salted ∈ (issued h source content evidence state).hashes, P salted := by
  intro salted hmem
  obtain ⟨d, hd, rfl⟩ := mem_hashes_issued_iff.1 hmem
  exact hdrawn d hd

theorem length_hashes_issued :
    (issued h source content evidence state).hashes.length =
      (content.drawn h source state).length := by
  rw [hashes_issued, (Digest.sort_perm _).length_eq, List.length_map]

theorem entries_nonces_issued (hss : content.statements = .ok ss)
    (hclean : h.CollisionFree content.statementMessages) :
    (issued h source content evidence state).nonces.entries.Perm
      ((content.drawn h source state).map fun d => (d.digest, d.nonce)) :=
  Commitment.entries_ofSalted_perm (Content.nodup_digests hss hclean)

/-- The nonce map has the drawn nonces under the digests of their statements, and nothing else. -/
theorem get?_nonces_issued_eq_some_iff (hss : content.statements = .ok ss)
    (hclean : h.CollisionFree content.statementMessages) {digest : Digest} {nonce : String} :
    (issued h source content evidence state).nonces.get? digest = some nonce ↔
      ∃ d ∈ content.drawn h source state, d.digest = digest ∧ d.nonce = nonce := by
  rw [← OrderedMap.mem_entries_iff, (entries_nonces_issued hss hclean).mem_iff]
  simp

/-- The nonce of each statement is found under its digest. -/
theorem get?_nonces_issued (hss : content.statements = .ok ss)
    (hclean : h.CollisionFree content.statementMessages) {d : SaltedStatement}
    (hd : d ∈ content.drawn h source state) :
    (issued h source content evidence state).nonces.get? (d.statement.digest h) =
      some d.nonce :=
  (get?_nonces_issued_eq_some_iff hss hclean).2
    ⟨d, hd, Content.digest_eq_of_mem_drawn hd, rfl⟩

/-- Nothing but digests of statements is a key of the nonce map. -/
theorem exists_drawn_of_get?_nonces_issued {digest : Digest} {nonce : String}
    (hnonce : (issued h source content evidence state).nonces.get? digest = some nonce) :
    ∃ d ∈ content.drawn h source state, d.digest = digest := by
  have hcontains : (issued h source content evidence state).nonces.contains digest = true := by
    rw [OrderedMap.contains, hnonce, Option.isSome_some]
  rw [nonces_issued, OrderedMap.contains_ofList, List.map_map] at hcontains
  exact List.mem_map.1 hcontains

theorem mem_values_nonces_issued_iff (hss : content.statements = .ok ss)
    (hclean : h.CollisionFree content.statementMessages) {nonce : String} :
    nonce ∈ (issued h source content evidence state).nonces.values ↔
      ∃ d ∈ content.drawn h source state, d.nonce = nonce := by
  rw [OrderedMap.values, ((entries_nonces_issued hss hclean).map (·.2)).mem_iff]
  simp

theorem size_nonces_issued (hss : content.statements = .ok ss)
    (hclean : h.CollisionFree content.statementMessages) :
    (issued h source content evidence state).nonces.size =
      (content.drawn h source state).length := by
  rw [OrderedMap.size, (entries_nonces_issued hss hclean).length_eq, List.length_map]

/-- Every statement of what is issued is covered. -/
theorem covered_issued (evidence : List Credential) (hss : content.statements = .ok ss)
    (hclean : h.CollisionFree content.statementMessages) {s : Statement} (hs : s ∈ ss) :
    s.Covered h (issued h source content evidence state).nonces
      (issued h source content evidence state).hashes := by
  obtain ⟨d, hd, rfl⟩ := Content.exists_drawn_of_mem h source state hss hs
  refine ⟨d.nonce, get?_nonces_issued hss hclean hd, ?_⟩
  rw [← Content.salted_eq_of_mem_drawn hd]
  exact mem_hashes_issued_iff.2 ⟨d, hd, rfl⟩

/-- The frame of what is issued is in order exactly if no nonce is empty, the evidence nests less
deeply than allowed for the whole, and all of it is in order. -/
theorem soundFrame_issued_iff {policy : Policy} (hss : content.statements = .ok ss)
    (hclean : h.CollisionFree content.statementMessages)
    (hsalted : h.CollisionFree (content.drawnMessages h source state)) :
    SoundFrame h policy (issued h source content evidence state) ↔
      (∀ d ∈ content.drawn h source state, d.nonce ≠ "") ∧
        (∀ e ∈ evidence, e.height + 1 ≤ policy.maxDepth) ∧
          ∀ e ∈ evidence, SoundTree h policy.checkIdentifier e := by
  have hascending : (issued h source content evidence state).hashes.Pairwise (· < ·) := by
    rw [hashes_issued]
    exact Digest.sort_strictly_ascending (Content.nodup_salted hss hsalted)
  have hsize : (issued h source content evidence state).nonces.size ≤
      (issued h source content evidence state).hashes.length :=
    Nat.le_of_eq ((size_nonces_issued hss hclean).trans length_hashes_issued.symm)
  rw [SoundFrame, evidence_issued, heightAbove_le_iff]
  constructor
  · rintro ⟨-, -, hnonces, -, -, hheight, htrees⟩
    refine ⟨?_, hheight, htrees⟩
    intro d hd
    exact hnonces _ ((mem_values_nonces_issued_iff hss hclean).2 ⟨d, hd, rfl⟩)
  · rintro ⟨hnonces, hheight, htrees⟩
    refine ⟨hascending, hsize, ?_, fun _ => rootIdentifier_issued, computedRoot_issued, hheight,
      htrees⟩
    intro nonce hmem
    obtain ⟨d, hd, rfl⟩ := (mem_values_nonces_issued_iff hss hclean).1 hmem
    exact hnonces d hd

/-- What is issued verifies exactly if its frame is in order. -/
theorem verified_issued_iff_soundFrame {policy : Policy} (hss : content.statements = .ok ss)
    (hclean : h.CollisionFree content.statementMessages) :
    ((issued h source content evidence state).verify h policy).verified = true ↔
      SoundFrame h policy (issued h source content evidence state) := by
  rw [verified_iff_soundFrame]
  exact and_iff_left ⟨ss, hss, fun s hs => covered_issued evidence hss hclean hs⟩

theorem verified_issued {policy : Policy} (hss : content.statements = .ok ss)
    (hclean : h.CollisionFree content.statementMessages)
    (hsalted : h.CollisionFree (content.drawnMessages h source state))
    (hnonces : ∀ d ∈ content.drawn h source state, d.nonce ≠ "")
    (hheight : ∀ e ∈ evidence, e.height + 1 ≤ policy.maxDepth)
    (htrees : ∀ e ∈ evidence, SoundTree h policy.checkIdentifier e) :
    ((issued h source content evidence state).verify h policy).verified = true :=
  (verified_issued_iff_soundFrame hss hclean).2
    ((soundFrame_issued_iff hss hclean hsalted).2 ⟨hnonces, hheight, htrees⟩)

theorem height_issued :
    (issued h source content evidence state).height = heightAbove evidence := by
  rw [height_eq, evidence_issued]

end Credential

namespace Sample

/-- The claim about the person, issued by the agent. -/
def personal : Credential := .issued hasher (.counting "n") person [] 0

/-- The licence, issued over it. -/
def personalLicence : Credential := .issued hasher (.counting "n") licence [personal] 2

theorem verified_personal : (personal.verify hasher .standard).verified = true :=
  Credential.verified_issued rfl (by decide) (by decide) (by decide)
    (by simp) (by simp)

theorem verified_personalLicence :
    (personalLicence.verify hasher .standard).verified = true := by
  refine Credential.verified_issued rfl (by decide) (by decide) (by decide)
    ?_ (List.forall_mem_singleton.2 (Credential.verified_iff.1 verified_personal).2)
  rw [List.forall_mem_singleton, personal, Credential.height_issued, Credential.heightAbove]
  decide

/-- The claim about the person, issued with a hash function that is in use. -/
def certificate : Credential := .issued .blake2b .uuids person [] 0

theorem verified_certificate : (certificate.verify .blake2b .standard).verified = true :=
  Credential.verified_issued rfl (by decide +kernel) (by decide +kernel) (by decide +kernel)
    (by simp) (by simp)

end Sample

/-! ### Agents -/

namespace Agent

theorem issue_result_eq_ok_iff {a : Agent σ} {c : Credential} :
    (a.issue content evidence state).result = .ok c ↔
      (∀ e ∈ evidence, (a.verify e).verified = true) ∧
        (Credential.issue a.hasher a.source content evidence state).1 = .ok c := by
  rw [issue, ← firstBad_eq_none_iff]
  cases a.firstBad evidence with
  | some bad => simp
  | none =>
    rcases Credential.issue a.hasher a.source content evidence state with ⟨_ | c', state'⟩
    · simp
    · simp

theorem issue_result_of_verified (a : Agent σ) (content : Content) (evidence : List Credential)
    (state : σ) (hevidence : ∀ e ∈ evidence, (a.verify e).verified = true)
    (hss : content.statements = .ok ss) :
    (a.issue content evidence state).result =
      .ok (Credential.issued a.hasher a.source content evidence state) :=
  issue_result_eq_ok_iff.2 ⟨hevidence, Credential.issue_of_statements _ _ _ _ hss⟩

/-- **An agent issues exactly what it can, and accepts what it has issued** unless a nonce is empty
or the evidence has become nested too deeply. -/
theorem issue_agrees_with_verify (a : Agent σ) (content : Content) (evidence : List Credential)
    (state : σ) :
    ((∃ c, (a.issue content evidence state).result = .ok c) ↔
        (∀ e ∈ evidence, (a.verify e).verified = true) ∧ ∃ ss, content.statements = .ok ss) ∧
      (a.hasher.CollisionFree content.statementMessages →
        a.hasher.CollisionFree (content.drawnMessages a.hasher a.source state) →
          ∀ c, (a.issue content evidence state).result = .ok c →
            ((a.verify c).verified = true ↔
              (∀ d ∈ content.drawn a.hasher a.source state, d.nonce ≠ "") ∧
                ∀ e ∈ evidence, e.height + 1 ≤ a.policy.maxDepth)) := by
  constructor
  · simp only [issue_result_eq_ok_iff, Credential.issue_eq_ok_iff]
    constructor
    · rintro ⟨_, hevidence, hss, -⟩
      exact ⟨hevidence, hss⟩
    · rintro ⟨hevidence, hss⟩
      exact ⟨_, hevidence, hss, rfl⟩
  · intro hclean hsalted c hc
    obtain ⟨hevidence, hissued⟩ := issue_result_eq_ok_iff.1 hc
    obtain ⟨⟨ss, hss⟩, rfl⟩ := Credential.issue_eq_ok_iff.1 hissued
    -- the evidence is known to be in order, only its depth is at stake again
    have htrees : ∀ e ∈ evidence, Credential.SoundTree a.hasher a.policy.checkIdentifier e :=
      fun e he => (Credential.verified_iff.1 (hevidence e he)).2
    rw [verify, Credential.verified_issued_iff_soundFrame hss hclean,
      Credential.soundFrame_issued_iff hss hclean hsalted]
    constructor
    · rintro ⟨hnonces, hheight, -⟩
      exact ⟨hnonces, hheight⟩
    · rintro ⟨hnonces, hheight⟩
      exact ⟨hnonces, hheight, htrees⟩

/-- An agent accepts what it has issued over what it has issued. -/
theorem issue_over_issued :
    Sample.hasher.CollisionFree Sample.licence.statementMessages ∧
      Sample.hasher.CollisionFree (Sample.licence.drawnMessages Sample.hasher (.counting "n") 2) ∧
        ∃ person licence,
          (Sample.agent.issue Sample.person [] 0).result = .ok person ∧
            (Sample.agent.issue Sample.licence [person] 2).result = .ok licence ∧
              (Sample.agent.verify licence).verified = true := by
  have hclean : Sample.hasher.CollisionFree Sample.licence.statementMessages := by decide
  have hsalted : Sample.hasher.CollisionFree
      (Sample.licence.drawnMessages Sample.hasher (.counting "n") 2) := by decide
  have hissued := issue_result_of_verified Sample.agent Sample.person [] 0 (by simp) rfl
  have hperson := ((issue_agrees_with_verify Sample.agent Sample.person [] 0).2 (by decide)
    (by decide) _ hissued).2 ⟨by decide, by simp⟩
  have hissued' := issue_result_of_verified Sample.agent Sample.licence [Sample.personal] 2
    (List.forall_mem_singleton.2 hperson) rfl
  refine ⟨hclean, hsalted, _, _, hissued, hissued', ?_⟩
  refine ((issue_agrees_with_verify Sample.agent Sample.licence _ 2).2 hclean hsalted _ hissued').2
    ⟨by decide, ?_⟩
  intro e he
  rw [List.mem_singleton.1 he, Sample.personal, Credential.height_issued, Credential.heightAbove]
  decide

end Agent

end SelectiveDisclosure
