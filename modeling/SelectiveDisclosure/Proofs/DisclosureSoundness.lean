import SelectiveDisclosure.Proofs.Issuance

/-!
# Nothing can be disclosed that was not committed to

Whoever holds a credential can change what they like in it before they show it. As long as they keep
its salted hashes, all they can show is what was issued: every statement that a verifier accepts was
committed to, with the nonce that was drawn for it.

The adversary has more freedom than may seem. A nonce is any text, it stands in front of the
statement without anything between the two, and the digests under which nonces are kept are not
looked at unless a statement has them. So a salted hash could be claimed for another split of the
same bytes, part of the statement read as nonce or part of the nonce as statement. What rules this
out is the form of the statements alone: there is one place in a text at which an object with one
member can begin that ends with the text.

## Main results

* `Credential.exists_drawn_of_covered` — a statement covered by the hashes of what was issued is
  among what was drawn.
* `Credential.committed_of_verified` — the same for all statements of an accepted credential.
-/

namespace SelectiveDisclosure

namespace Credential

variable {σ : Type} {h : Hasher} {source : NonceSource σ} {state : σ} {content : Content}
  {evidence : List Credential}

/-- A statement that the hashes of what was issued cover is among what was drawn. -/
theorem exists_drawn_of_covered {ss ss' : List Statement} {content' : Content} {nonces : NonceMap}
    (hss : content.statements = .ok ss) (hss' : content'.statements = .ok ss')
    (hclean : h.CollisionFree
      (content.drawnMessages h source state ++ content'.saltedMessages h nonces))
    {s : Statement} (hs : s ∈ ss')
    (hcovered : s.Covered h nonces (issued h source content evidence state).hashes) :
    ∃ d ∈ content.drawn h source state,
      d.statement.text = s.text ∧ nonces.get? (s.digest h) = some d.nonce := by
  obtain ⟨nonce, hnonce, hmem⟩ := hcovered
  obtain ⟨d, hd, hsalted⟩ := mem_hashes_issued_iff.1 hmem
  rw [Content.salted_eq_of_mem_drawn hd] at hsalted
  have hdrawn : d.message ∈ content.drawnMessages h source state ++
      content'.saltedMessages h nonces :=
    List.mem_append_left _ (Content.message_mem_drawnMessages hd)
  have hrecorded : s.saltedMessage nonce ∈ content.drawnMessages h source state ++
      content'.saltedMessages h nonces :=
    List.mem_append_right _ (Content.saltedMessage_mem_saltedMessages hss' hs hnonce)
  obtain ⟨rfl, htext⟩ := Content.salted_inj hclean hss hss'
    (Content.statement_mem_of_mem_drawn hss hd) hs hdrawn hrecorded hsalted
  exact ⟨d, hd, htext, hnonce⟩

/-- **Every statement of an accepted credential was committed to**, if its salted hashes are those
of a credential that was issued: it has the text of a statement for which a nonce was drawn, and its
nonce is this one. -/
theorem committed_of_verified {c c' : Credential} {policy : Policy}
    (hissued : (issue h source content evidence state).1 = .ok c)
    (hverified : (c'.verify h policy).verified = true) (hhashes : c'.hashes = c.hashes)
    (hclean : h.CollisionFree
      (content.drawnMessages h source state ++ c'.content.saltedMessages h c'.nonces)) :
    ∃ ss ss', content.statements = .ok ss ∧ c'.content.statements = .ok ss' ∧
      ∀ s ∈ ss', ∃ d ∈ (SaltedStatement.drawAll h source ss state).1,
        d.statement.text = s.text ∧ c'.nonces.get? (s.digest h) = some d.nonce := by
  obtain ⟨⟨ss, hss⟩, rfl⟩ := issue_eq_ok_iff.1 hissued
  obtain ⟨-, ss', hss', hcovered⟩ := verified_iff_soundFrame.1 hverified
  refine ⟨ss, ss', hss, hss', ?_⟩
  intro s hs
  have hs' := hcovered s hs
  rw [hhashes] at hs'
  have hexists := exists_drawn_of_covered hss hss' hclean hs hs'
  rwa [Content.drawn, Content.stated_eq hss] at hexists

/-- The holder of a claim about a person shows nothing but that they hold it. -/
theorem committed_of_holder_alone :
    ∃ c, (issue Sample.hasher (.counting "n") Sample.person [] 0).1 = .ok c ∧
      ((c.withContent (Sample.person.without ["age"])).verify Sample.hasher
        .standard).verified = true ∧
      ∃ ss ss', Sample.person.statements = .ok ss ∧
        (Sample.person.without ["age"]).statements = .ok ss' ∧
        ∀ s ∈ ss', ∃ d ∈ (SaltedStatement.drawAll Sample.hasher (.counting "n") ss 0).1,
          d.statement.text = s.text ∧ c.nonces.get? (s.digest Sample.hasher) = some d.nonce := by
  have hissued : (issue Sample.hasher (.counting "n") Sample.person [] 0).1 = .ok Sample.personal :=
    issue_of_statements _ _ _ _ rfl
  have hcopy := verified_without Sample.verified_personal ["age"]
  exact ⟨_, hissued, hcopy, committed_of_verified hissued hcopy rfl (by decide)⟩

end Credential

end SelectiveDisclosure
