import SelectiveDisclosure.Proofs.DisclosureFindings
import SelectiveDisclosure.Proofs.Messages

/-!
# Checking a content is committing to it again

There are two ways to tell whether a content belongs to a list of salted hashes. Each of its
statements can be checked, and what is wrong be collected. Or the content can be committed to once
more with the nonces that are at hand, and the salted hashes be compared with the list. Both look up
nonces and salt statements on their own, and only the first goes on after a statement that has no
nonce.

They agree, and more closely than in the answer. Both stop at a content that is malformed, and for
the same reason. Apart from that, committing again can only end at a statement that has no nonce,
and this is the first of its kind that a check finds. Statements that it finds to be forged may
stand in front of it, since committing again looks at no list.

## Main definitions

* `SaltedStatement.lookUp` — a statement salted with its recorded nonce.
* `Finding.isNoProof` — whether a finding is that a statement has no nonce.

## Main results

* `SaltedStatement.lookUpAll_eq_error_iff` — salting ends at the first statement that has no nonce.
* `SaltedStatement.forall_covered_iff` — statements are covered if all of them can be salted and
  their salted hashes are listed.
* `Content.recommit_eq_ok_iff`, `Content.recommit_eq_error_iff` — what committing again gives.
* `Content.findings_agree_with_recommit` — it agrees with what is found.
-/

namespace SelectiveDisclosure

variable {h : Hasher} {nonces : NonceMap} {hashes : List Digest}

/-! ### Salting with recorded nonces -/

namespace SaltedStatement

variable {s : Statement} {ss : List Statement} {fault : Fault}

/-- A statement salted with its recorded nonce. -/
def lookUp (h : Hasher) (nonces : NonceMap) (s : Statement) : Except Fault SaltedStatement :=
  match nonces.get? (s.digest h) with
  | none => .error (.missingNonce s.text)
  | some nonce => .ok (of h s nonce)

theorem lookUp_eq_ok_iff {d : SaltedStatement} :
    lookUp h nonces s = .ok d ↔
      ∃ nonce, nonces.get? (s.digest h) = some nonce ∧ d = of h s nonce := by
  rw [lookUp]
  cases nonces.get? (s.digest h) <;> simp [eq_comm]

theorem lookUp_eq_error_iff :
    lookUp h nonces s = .error fault ↔
      nonces.get? (s.digest h) = none ∧ fault = .missingNonce s.text := by
  rw [lookUp]
  cases nonces.get? (s.digest h) <;> simp [eq_comm]

theorem lookUpAll_eq_mapM (h : Hasher) (nonces : NonceMap) (ss : List Statement) :
    lookUpAll h nonces ss = ss.mapM (lookUp h nonces) := by
  induction ss with
  | nil => rfl
  | cons s rest ih =>
    rw [lookUpAll, List.mapM_cons, lookUp, ih]
    cases nonces.get? (s.digest h) <;> rfl

theorem lookUpAll_cons_eq_ok_iff {rest : List Statement} {ds : List SaltedStatement} :
    lookUpAll h nonces (s :: rest) = .ok ds ↔
      ∃ nonce others, nonces.get? (s.digest h) = some nonce ∧
        lookUpAll h nonces rest = .ok others ∧ ds = of h s nonce :: others := by
  rw [lookUpAll]
  cases nonces.get? (s.digest h) with
  | none => simp
  | some nonce => simp [map_eq_ok_iff, eq_comm (a := ds)]

/-- **Salting with recorded nonces ends at the first statement that has none.** -/
theorem lookUpAll_eq_error_iff :
    lookUpAll h nonces ss = .error fault ↔
      ∃ front s rest, ss = front ++ s :: rest ∧
        (∀ s' ∈ front, ∃ nonce, nonces.get? (s'.digest h) = some nonce) ∧
          nonces.get? (s.digest h) = none ∧ fault = .missingNonce s.text := by
  simp only [lookUpAll_eq_mapM, mapM_eq_error_iff, lookUp_eq_ok_iff, lookUp_eq_error_iff,
    exists_comm (α := SaltedStatement), exists_and_left, exists_eq, and_true]

/-- Statements are covered exactly if all of them can be salted with recorded nonces and their
salted hashes are listed. -/
theorem forall_covered_iff :
    (∀ s ∈ ss, s.Covered h nonces hashes) ↔
      ∃ ds, lookUpAll h nonces ss = .ok ds ∧ ∀ d ∈ ds, d.salted ∈ hashes := by
  induction ss with
  | nil => simp [lookUpAll]
  | cons s rest ih =>
    simp only [List.forall_mem_cons, ih, lookUpAll_cons_eq_ok_iff]
    constructor
    · rintro ⟨⟨nonce, hnonce, hsalted⟩, ds, hds, hlisted⟩
      exact ⟨_, ⟨nonce, ds, hnonce, hds, rfl⟩, List.forall_mem_cons.2 ⟨hsalted, hlisted⟩⟩
    · rintro ⟨_, ⟨nonce, ds, hnonce, hds, rfl⟩, hlisted⟩
      obtain ⟨hsalted, hlisted⟩ := List.forall_mem_cons.1 hlisted
      exact ⟨⟨nonce, hnonce, hsalted⟩, ds, hds, hlisted⟩

end SaltedStatement

/-! ### Committing again -/

/-- Whether a finding is that a statement has no nonce. -/
def Finding.isNoProof : Finding → Bool
  | .noProof _ => true
  | _ => false

theorem Commitment.hashes_ofSalted_subset_iff {ds : List SaltedStatement} :
    (ofSalted ds).hashes ⊆ hashes ↔ ∀ d ∈ ds, d.salted ∈ hashes := by
  simp [ofSalted, List.subset_def, (Digest.sort_perm _).mem_iff]

namespace Content

variable {c : Content} {ss : List Statement} {fault : Fault}

theorem recommit_eq_ok_iff {commitment : Commitment} :
    c.recommit h nonces = .ok commitment ↔
      ∃ ss ds, c.statements = .ok ss ∧ SaltedStatement.lookUpAll h nonces ss = .ok ds ∧
        commitment = .ofSalted ds := by
  simp only [recommit, bind_eq_ok_iff, pure_eq_ok_iff, eq_comm (b := commitment),
    exists_and_left]

theorem recommit_eq_error_iff :
    c.recommit h nonces = .error fault ↔
      c.statements = .error fault ∨
        ∃ ss, c.statements = .ok ss ∧ SaltedStatement.lookUpAll h nonces ss = .error fault := by
  simp [recommit, bind_eq_error_iff, pure, Except.pure]

/-- Nothing is found exactly if committing again gives salted hashes that are all listed. -/
theorem verified_iff_recommit :
    (Report.mk (c.disclosureFindings h nonces hashes)).verified = true ↔
      ∃ commitment, c.recommit h nonces = .ok commitment ∧ commitment.hashes ⊆ hashes := by
  rw [Report.verified_iff, disclosureFindings_eq_nil_iff]
  simp only [SaltedStatement.forall_covered_iff, recommit_eq_ok_iff]
  constructor
  · rintro ⟨ss, hss, ds, hds, hlisted⟩
    exact ⟨_, ⟨ss, ds, hss, hds, rfl⟩, Commitment.hashes_ofSalted_subset_iff.2 hlisted⟩
  · rintro ⟨_, ⟨ss, ds, hss, hds, rfl⟩, hlisted⟩
    exact ⟨ss, hss, ds, hds, Commitment.hashes_ofSalted_subset_iff.1 hlisted⟩

/-- The statement that salting ends at is the first that is found to have no nonce. -/
theorem find?_isNoProof_of_lookUpAll (hss : c.statements = .ok ss)
    (hfault : SaltedStatement.lookUpAll h nonces ss = .error fault) :
    ∃ text, fault = .missingNonce text ∧
      (c.disclosureFindings h nonces hashes).find? (·.isNoProof) = some (.noProof text) := by
  obtain ⟨front, s, rest, rfl, hfront, hnonce, rfl⟩ :=
    SaltedStatement.lookUpAll_eq_error_iff.1 hfault
  have hforged :
      (front.filterMap (statementFinding? h nonces hashes)).find? (·.isNoProof) = none := by
    refine List.find?_eq_none.2 fun finding hmem => ?_
    obtain ⟨s', hs', hfinding⟩ := List.mem_filterMap.1 hmem
    obtain ⟨nonce, hnonce'⟩ := hfront s' hs'
    rcases statementFinding?_eq_some_iff.1 hfinding with hnone | _
    · simp [hnonce'] at hnone
    · simp [Finding.isNoProof]
  have hs : statementFinding? h nonces hashes s = some (.noProof s.text) :=
    statementFinding?_eq_some_iff.2 (.unproved hnonce)
  refine ⟨s.text, rfl, ?_⟩
  rw [disclosureFindings_of_statements hss, List.filterMap_append, List.find?_append, hforged,
    List.filterMap_cons_some hs]
  rfl

instance (h : Hasher) (nonces : NonceMap) (hashes : List Digest) (s : Statement) :
    Decidable (s.Covered h nonces hashes) :=
  decidable_of_iff _ statementFinding?_eq_none_iff

/-- Of each statement that is not covered there is one finding, in the order of the statements. -/
theorem forall₂_fails (hss : c.statements = .ok ss) :
    List.Forall₂ (Statement.Fails h nonces hashes)
      (ss.filter fun s => ¬ s.Covered h nonces hashes) (c.disclosureFindings h nonces hashes) := by
  have hfilter : (ss.filter fun s => ¬ s.Covered h nonces hashes) =
      ss.filter fun s => (statementFinding? h nonces hashes s).isSome := by
    refine List.filter_congr fun s _ => ?_
    simp only [← statementFinding?_eq_none_iff]
    cases statementFinding? h nonces hashes s <;> rfl
  rw [hfilter, disclosureFindings_of_statements hss]
  exact (forall₂_filterMap (statementFinding? h nonces hashes) ss).imp
    fun _ _ => statementFinding?_eq_some_iff.1

/-- **What is found of a content agrees with committing to it again.** Nothing is found exactly if
committing again gives salted hashes that are all listed. If it ends in a fault, this is found too:
as the first statement that has no nonce, or as all there is to a malformed content. -/
theorem findings_agree_with_recommit (h : Hasher) (nonces : NonceMap) (hashes : List Digest)
    (c : Content) :
    ((Report.mk (c.disclosureFindings h nonces hashes)).verified = true ↔
        ∃ commitment, c.recommit h nonces = .ok commitment ∧ commitment.hashes ⊆ hashes) ∧
      (∀ fault, c.recommit h nonces = .error fault →
        .ofFault fault ∈ c.disclosureFindings h nonces hashes ∧
          ((∃ ss text, c.statements = .ok ss ∧ fault = .missingNonce text ∧
              (c.disclosureFindings h nonces hashes).find? (·.isNoProof) =
                some (.ofFault fault)) ∨
            c.statements = .error fault ∧
              c.disclosureFindings h nonces hashes = [.ofFault fault])) ∧
      ∀ ss, c.statements = .ok ss →
        List.Forall₂ (Statement.Fails h nonces hashes)
          (ss.filter fun s => ¬ s.Covered h nonces hashes)
          (c.disclosureFindings h nonces hashes) := by
  refine ⟨verified_iff_recommit, fun fault hfault => ?_, fun ss hss => forall₂_fails hss⟩
  rcases recommit_eq_error_iff.1 hfault with hmalformed | ⟨ss, hss, hsalting⟩
  · have hall : c.disclosureFindings h nonces hashes = [.ofFault fault] :=
      disclosureFindings_of_error hmalformed
    exact ⟨hall ▸ List.mem_singleton_self _, .inr ⟨hmalformed, hall⟩⟩
  · obtain ⟨text, rfl, hfirst⟩ := find?_isNoProof_of_lookUpAll hss hsalting
    exact ⟨List.mem_of_find?_eq_some hfirst, .inl ⟨ss, text, hss, rfl, hfirst⟩⟩

end Content

namespace Sample

/-- A nonce for the statement about the holder, and for no other. -/
def holderNonce : NonceMap := .ofList [((Statement.ofHolder "alice").digest hasher, "n")]

end Sample

namespace Content

/-- Committing to a person again ends at their age, which has no nonce. The age is also what is
found to have none, behind the holder, whose nonce is not the one committed with. -/
theorem findings_agree_behind_forged_holder :
    Sample.person.recommit Sample.hasher Sample.holderNonce =
        .error (.missingNonce "\x7b\"person#age\":29\x7d") ∧
      Finding.noProof "\x7b\"person#age\":29\x7d" ∈
        Sample.person.disclosureFindings Sample.hasher Sample.holderNonce [] ∧
      List.Forall₂ (Statement.Fails Sample.hasher Sample.holderNonce [])
        (Sample.person.stated.filter fun s => ¬ s.Covered Sample.hasher Sample.holderNonce [])
        [.invalidProof "\x7b\"@id\":\"alice\"\x7d", .noProof "\x7b\"person#age\":29\x7d"] := by
  obtain ⟨-, hfault, hfails⟩ :=
    findings_agree_with_recommit Sample.hasher Sample.holderNonce [] Sample.person
  exact ⟨rfl, (hfault _ rfl).1, hfails _ rfl⟩

end Content

end SelectiveDisclosure
