import SelectiveDisclosure.Proofs.Issuance

/-!
# What binds a credential to its holder

The holder of a credential is one of its statements and is committed to like the others. So nobody
can put another holder in its place: the statement about the other was not committed to, and there
is no nonce under its digest.

But a statement can also be left out, and a verifier cannot tell whether one was. A credential whose
holder is taken away has one statement less, all its statements are still covered, and it verifies
as it did. Now it is about nobody, and whoever has it can sign for it.

## Main definitions

* `Content.withHolder`, `Credential.withHolder` — the holder is replaced, or taken away.

## Main results

* `Credential.not_covered_ofHolder` — the statement about another holder is not covered.
* `Credential.verified_withHolder_iff` — the holder of what was issued can be taken away, and it
  cannot be replaced.
* `Presentation.verified_signed_iff` — when a presentation of one credential is accepted.
* `Agent.holder_binding` — what both say about a credential that was issued.
-/

namespace SelectiveDisclosure

/-- The content with another holder, or with none. -/
def Content.withHolder (c : Content) (holder : Option String) : Content := { c with holder }

/-- The credential with another holder, or with none, and otherwise as it was. -/
def Credential.withHolder (c : Credential) (holder : Option String) : Credential :=
  c.withContent (c.content.withHolder holder)

variable {σ : Type} {h : Hasher} {source : NonceSource σ} {state : σ} {content : Content}
  {evidence : List Credential} {ss : List Statement}

namespace Content

theorem statements_withHolder (hss : content.statements = .ok ss) (other : Option String) :
    (content.withHolder other).statements =
      .ok (holderStatements other ++ content.propertyStatements) := by
  obtain ⟨hblank, hall, -⟩ := statements_eq_ok_iff.1 hss
  exact statements_eq_ok_iff.2 ⟨hblank, hall, rfl⟩

/-- The statement about another holder is none of the statements of a content. -/
theorem text_ne_ofHolder_text (hss : content.statements = .ok ss) {other : String}
    (hother : content.holder ≠ some other) {s : Statement} (hs : s ∈ ss) :
    s.text ≠ (Statement.ofHolder other).text := by
  intro heq
  rcases (mem_statements_iff hss).1 hs with ⟨holder, hholder, rfl⟩ | ⟨entry, -, rfl⟩
  · exact hother (Statement.ofHolder_text_inj heq ▸ hholder)
  · exact Statement.ofHolder_text_ne_ofEntry_text other content.schema entry heq.symm

end Content

namespace Credential

theorem holder_withHolder (c : Credential) (holder : Option String) :
    (c.withHolder holder).holder = holder := rfl

theorem root_withHolder (c : Credential) (holder : Option String) :
    (c.withHolder holder).root = c.root := rfl

theorem leaves_withHolder (c : Credential) (holder : Option String) :
    (c.withHolder holder).leaves = c.leaves := rfl

/-- There is no nonce for the statement about another holder. -/
theorem not_covered_ofHolder (evidence : List Credential) (hss : content.statements = .ok ss)
    {other : String} (hother : content.holder ≠ some other)
    (hclean : h.CollisionFree
      (content.statementMessages ++ (content.withHolder (some other)).statementMessages))
    {hashes : List Digest} :
    ¬ (Statement.ofHolder other).Covered h (issued h source content evidence state).nonces
      hashes := by
  rintro ⟨nonce, hnonce, -⟩
  obtain ⟨d, hd, hdigest⟩ := exists_drawn_of_get?_nonces_issued hnonce
  rw [Content.digest_eq_of_mem_drawn hd] at hdigest
  have hmem := Content.statement_mem_of_mem_drawn hss hd
  have hin : d.statement.bytes ∈
      content.statementMessages ++ (content.withHolder (some other)).statementMessages :=
    List.mem_append_left _ (Content.bytes_mem_statementMessages hss hmem)
  have hin' : (Statement.ofHolder other).bytes ∈
      content.statementMessages ++ (content.withHolder (some other)).statementMessages :=
    List.mem_append_right _ (Content.bytes_mem_statementMessages
      (Content.statements_withHolder hss (some other)) (by simp [Content.holderStatements]))
  exact Content.text_ne_ofHolder_text hss hother hmem
    (Statement.text_eq_of_bytes_eq (hclean _ hin _ hin' hdigest))

/-- The holder of what was issued cannot be replaced. -/
theorem not_verified_withHolder {policy : Policy} {other : String}
    (hss : content.statements = .ok ss) (hother : content.holder ≠ some other)
    (hclean : h.CollisionFree
      (content.statementMessages ++ (content.withHolder (some other)).statementMessages)) :
    ¬ (((issued h source content evidence state).withHolder (some other)).verify h
        policy).verified = true := by
  intro hverified
  obtain ⟨-, ss', hss', hcovered⟩ := verified_iff_soundFrame.1 hverified
  obtain rfl := Except.ok.inj ((Content.statements_withHolder hss (some other)).symm.trans hss')
  exact not_covered_ofHolder evidence hss hother hclean
    (hcovered _ (by simp [Content.holderStatements]))

/-- The holder of what was issued can be taken away. -/
theorem verified_withoutHolder_iff (source : NonceSource σ) (state : σ)
    (evidence : List Credential) (policy : Policy) (hss : content.statements = .ok ss)
    (hclean : h.CollisionFree content.statementMessages) :
    (((issued h source content evidence state).withHolder none).verify h policy).verified = true ↔
      ((issued h source content evidence state).verify h policy).verified = true := by
  obtain ⟨ss', hss', hsub⟩ := Content.exists_statements_subset hss (content.withHolder none) rfl
    (by simp [Content.holderStatements, Content.withHolder]) (List.Subset.refl _)
  rw [verified_issued_iff_soundFrame hss hclean, verified_iff_soundFrame, withHolder,
    soundFrame_withContent_iff]
  refine and_iff_left ⟨ss', hss', ?_⟩
  intro s hs
  exact covered_issued evidence hss hclean (hsub hs)

/-- **The holder of what was issued can be taken away, and it cannot be replaced.** -/
theorem verified_withHolder_iff {policy : Policy} {holder : String} {other : Option String}
    (hss : content.statements = .ok ss) (hholder : content.holder = some holder)
    (hother : other ≠ some holder)
    (hclean : h.CollisionFree
      (content.statementMessages ++ (content.withHolder other).statementMessages)) :
    (((issued h source content evidence state).withHolder other).verify h policy).verified = true ↔
      other = none ∧
        ((issued h source content evidence state).verify h policy).verified = true := by
  cases other with
  | none =>
    rw [verified_withoutHolder_iff source state evidence policy hss hclean.left]
    exact (and_iff_right rfl).symm
  | some other =>
    have hne : content.holder ≠ some other := hholder ▸ hother.symm
    exact iff_of_false (not_verified_withHolder hss hne hclean) (by simp)

end Credential

namespace Presentation

/-- When a signed presentation of one credential is accepted. Only a credential that has a holder
says anything about whose key it takes. -/
theorem verified_signed_iff {check : SignatureCheck} {expected challenge : Option String}
    {policy : Policy} {c : Credential} {s : SignedBy} :
    ((⟨[c], some s, challenge⟩ : Presentation).verify h check expected policy).verified = true ↔
      (c.verify h policy).verified = true ∧ (expected = none ∨ challenge = expected) ∧
        (∀ holder, c.holder = some holder → keyOwner s.keyUri = holder) ∧
          check.check (messageOver [c.root] challenge) s.signature s.keyUri = .ok () := by
  rw [verified_iff, signatureFindings_eq_nil_iff rfl]
  simp [oneHolder, holder, message]

end Presentation

/-! ### Credentials that agents issue -/

namespace Agent

/-- **What binds a credential to its holder, and what does not.** With another holder it verifies
nowhere and is in no presentation that is accepted. With none it verifies wherever it did before,
and a presentation of it is accepted with a good signature by any key whatever. -/
theorem holder_binding {a : Agent σ} {c : Credential} {holder : String} {other : Option String}
    (hissued : (a.issue content evidence state).result = .ok c)
    (hholder : content.holder = some holder) (hother : other ≠ some holder)
    (hclean : a.hasher.CollisionFree
      (content.statementMessages ++ (content.withHolder other).statementMessages))
    (policy : Policy) :
    (((c.withHolder other).verify a.hasher policy).verified = true ↔
        other = none ∧ (c.verify a.hasher policy).verified = true) ∧
      (∀ check expected (p : Presentation), c.withHolder other ∈ p.credentials →
        (p.verify a.hasher check expected policy).verified = true → other = none) ∧
      ∀ check expected challenge s,
        ((⟨[c.withHolder none], some s, challenge⟩ : Presentation).verify a.hasher check expected
            policy).verified = true ↔
          (c.verify a.hasher policy).verified = true ∧ (expected = none ∨ challenge = expected) ∧
            check.check (Presentation.messageOver [c.root] challenge) s.signature s.keyUri =
              .ok () := by
  obtain ⟨⟨ss, hss⟩, rfl⟩ := Credential.issue_eq_ok_iff.1 (issue_result_eq_ok_iff.1 hissued).2
  have hremoved :=
    Credential.verified_withoutHolder_iff a.source state evidence policy hss hclean.left
  refine ⟨Credential.verified_withHolder_iff hss hholder hother hclean, ?_, ?_⟩
  · intro check expected p hmem hp
    have hverified := Presentation.verified_of_mem hp hmem
    exact ((Credential.verified_withHolder_iff hss hholder hother hclean).1 hverified).1
  · intro check expected challenge s
    rw [Presentation.verified_signed_iff, hremoved, Credential.holder_withHolder,
      Credential.root_withHolder]
    simp

/-- Of a claim about a person, the holder cannot be replaced but can be taken away. -/
theorem holder_binding_of_person :
    Sample.hasher.CollisionFree (Sample.person.statementMessages ++
        (Sample.person.withHolder (some "bob")).statementMessages) ∧
      ∃ c, (Sample.agent.issue Sample.person [] 0).result = .ok c ∧
        ((c.withHolder (some "bob")).verify Sample.hasher .standard).verified = false ∧
          ((c.withHolder none).verify Sample.hasher .standard).verified = true := by
  have hclean : Sample.hasher.CollisionFree (Sample.person.statementMessages ++
      (Sample.person.withHolder (some "bob")).statementMessages) := by decide
  have hissued := issue_result_of_verified Sample.agent Sample.person [] 0 (by simp) rfl
  have hreplaced := (holder_binding hissued rfl (by decide) hclean .standard).1
  have hclean' : Sample.hasher.CollisionFree (Sample.person.statementMessages ++
      (Sample.person.withHolder none).statementMessages) := by decide
  have hremoved := (holder_binding hissued rfl (by decide) hclean' .standard).1
  refine ⟨hclean, _, hissued, ?_, hremoved.2 ⟨rfl, Sample.verified_personal⟩⟩
  exact Bool.eq_false_iff.2 fun haccepted => absurd (hreplaced.1 haccepted).1 (by decide)

/-- A credential is issued to a holder, with nonces and without collisions. Another party takes the
holder away, signs a presentation of it with their own key, and is believed. -/
theorem holder_can_be_taken_away :
    ∃ c, (Agent.standard.issue Sample.person [] 0).result = .ok c ∧
      (∀ d ∈ Sample.person.drawn .blake2b .uuids 0, d.nonce ≠ "") ∧
      Hasher.blake2b.CollisionFree (Sample.person.statementMessages ++
        (Sample.person.drawnMessages .blake2b .uuids 0 ++ ([c.leaves] ++
          ((c.withHolder none).content.statementMessages ++
            ((c.withHolder none).content.saltedMessages .blake2b (c.withHolder none).nonces ++
              [(c.withHolder none).leaves]))))) ∧
      c.holder = some "alice" ∧ (c.withHolder none).holder ≠ c.holder ∧
      ((c.withHolder none).verify .blake2b .standard).verified = true ∧
      keyOwner (party 2).keyUri ≠ "alice" ∧
      ((⟨[c.withHolder none], some ⟨(party 2).keyUri, (party 2).pair.sign
          (Presentation.messageOver [c.root] (some "today"))⟩, some "today"⟩ :
            Presentation).verify .blake2b (party 2).keys.signatureCheck (some "today")
              .standard).verified = true := by
  have hascending : ((Sample.person.drawn .blake2b .uuids 0).map (·.salted)).Pairwise (· ≤ ·) := by
    decide +kernel
  have hissued := issue_result_of_verified .standard Sample.person [] 0 (by simp) rfl
  have hremoved := (Credential.verified_withoutHolder_iff .uuids 0 [] .standard rfl
    (by decide +kernel)).2 Sample.verified_certificate
  refine ⟨Sample.certificate, hissued, by decide +kernel, ?_, rfl, by decide, hremoved,
    by decide +kernel, ?_⟩
  · rw [Credential.leaves_withHolder, Sample.certificate, Credential.leaves_issued hascending]
    decide +kernel
  · refine Presentation.verified_signed_iff.2
      ⟨hremoved, .inr rfl, by simp [Credential.holder_withHolder], eq_ok_of_isOk ?_⟩
    rw [Credential.root_withHolder, Sample.certificate, Credential.root_issued hascending]
    decide +kernel

end Agent

end SelectiveDisclosure
