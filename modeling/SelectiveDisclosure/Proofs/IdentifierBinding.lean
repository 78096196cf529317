import SelectiveDisclosure.Proofs.Identifier.RoundTrip
import SelectiveDisclosure.Proofs.Issuance
import SelectiveDisclosure.Proofs.Predicates

/-!
# What an identifier commits to

The identifier of a credential is a short text, and it commits to everything that was said and to
every nonce. From the text back to what was said it is four steps: the text is that of one root
hash, the root hash is that of one list of leaves, each leaf is that of one nonce and one text of a
statement, and the text tells predicate and value apart.

What is not committed to is who issued the credential and where in a predicate the schema ends.
Neither is part of a statement. So credentials with one identifier have the same facts, and the same
properties if their schemas are the same.

## Scope

This is about credentials without evidence. The root hash does not show where the hashes end and the
evidence begins, so that with evidence not even the number of statements is committed to.

## Main results

* `Credential.hashes_eq_of_identifier_eq` — one identifier is that of one list of hashes.
* `Credential.exists_drawn_of_hashes_eq` — credentials with the same hashes were issued for the same
  statements with the same nonces.
* `Credential.identifier_binds` — what credentials with one identifier have in common.
-/

namespace SelectiveDisclosure

namespace Credential

variable {σ σ' : Type} {h : Hasher} {source : NonceSource σ} {source' : NonceSource σ'} {state : σ}
  {state' : σ'} {content content' : Content} {evidence evidence' : List Credential}
  {ss ss' : List Statement}

/-- Without evidence, one identifier is that of one list of hashes. -/
theorem hashes_eq_of_identifier_eq
    (hclean : h.CollisionFree
      [(issued h source content [] state).leaves, (issued h source' content' [] state').leaves])
    (hidentifier : (issued h source content [] state).identifier =
      (issued h source' content' [] state').identifier) :
    (issued h source content [] state).hashes = (issued h source' content' [] state').hashes := by
  rw [← rootIdentifier_issued, ← rootIdentifier_issued] at hidentifier
  have hroot := (Identifier.ofDigest_text_inj hidentifier).2
  have hleaves := leaves_inj hclean hroot
  have hdigests := (leaves_eq_iff ascending_hashes_issued ascending_hashes_issued).1 hleaves
  exact (List.append_inj' hdigests rfl).1

theorem leaves_eq_of_hashes_eq
    (hhashes : (issued h source content [] state).hashes =
      (issued h source' content' [] state').hashes) :
    (issued h source content [] state).leaves = (issued h source' content' [] state').leaves := by
  rw [leaves_eq_iff ascending_hashes_issued ascending_hashes_issued, hhashes]
  rfl

/-- Without evidence, credentials with the same hashes have the same identifier. -/
theorem identifier_eq_of_hashes_eq
    (hhashes : (issued h source content [] state).hashes =
      (issued h source' content' [] state').hashes) :
    (issued h source content [] state).identifier =
      (issued h source' content' [] state').identifier := by
  rw [← rootIdentifier_issued, ← rootIdentifier_issued, rootIdentifier, rootIdentifier,
    ← computedRoot_issued, ← computedRoot_issued, computedRoot_eq_hash, computedRoot_eq_hash,
    leaves_eq_of_hashes_eq hhashes]

/-- Credentials with the same hashes were issued for the same statements with the same nonces. -/
theorem exists_drawn_of_hashes_eq (hss : content.statements = .ok ss)
    (hss' : content'.statements = .ok ss')
    (hsalted : h.CollisionFree
      (content.drawnMessages h source state ++ content'.drawnMessages h source' state'))
    (hhashes : (issued h source content evidence state).hashes =
      (issued h source' content' evidence' state').hashes)
    {d : SaltedStatement} (hd : d ∈ content.drawn h source state) :
    ∃ d' ∈ content'.drawn h source' state',
      d'.nonce = d.nonce ∧ d'.statement.text = d.statement.text := by
  have hmem : d.salted ∈ (issued h source' content' evidence' state').hashes :=
    hhashes ▸ mem_hashes_issued_iff.2 ⟨d, hd, rfl⟩
  obtain ⟨d', hd', heq⟩ := mem_hashes_issued_iff.1 hmem
  rw [Content.salted_eq_of_mem_drawn hd', Content.salted_eq_of_mem_drawn hd] at heq
  refine ⟨d', hd', ?_⟩
  exact Content.salted_inj hsalted hss' hss (Content.statement_mem_of_mem_drawn hss' hd')
    (Content.statement_mem_of_mem_drawn hss hd)
    (List.mem_append_right _ (Content.message_mem_drawnMessages hd'))
    (List.mem_append_left _ (Content.message_mem_drawnMessages hd)) heq

/-- What was issued with the hashes of another credential says no more than this. -/
theorem saysNoMore_of_hashes_eq (hss : content.statements = .ok ss)
    (hss' : content'.statements = .ok ss') (hc : content.Integral) (hc' : content'.Integral)
    (hsalted : h.CollisionFree
      (content.drawnMessages h source state ++ content'.drawnMessages h source' state'))
    (hhashes : (issued h source content evidence state).hashes =
      (issued h source' content' evidence' state').hashes) :
    content.SaysNoMore content' := by
  rw [Content.saysNoMore_iff_texts hss hss' hc hc']
  intro s hs
  obtain ⟨d, hd, rfl⟩ := Content.exists_drawn_of_mem h source state hss hs
  obtain ⟨d', hd', -, htext⟩ := exists_drawn_of_hashes_eq hss hss' hsalted hhashes hd
  exact ⟨_, Content.statement_mem_of_mem_drawn hss' hd', htext⟩

/-- What was issued with the hashes of another credential has the nonces of this. -/
theorem get?_nonces_of_hashes_eq (hss : content.statements = .ok ss)
    (hss' : content'.statements = .ok ss') (hclean : h.CollisionFree content.statementMessages)
    (hclean' : h.CollisionFree content'.statementMessages)
    (hsalted : h.CollisionFree
      (content.drawnMessages h source state ++ content'.drawnMessages h source' state'))
    (hhashes : (issued h source content evidence state).hashes =
      (issued h source' content' evidence' state').hashes)
    {digest : Digest} {nonce : String}
    (hnonce : (issued h source content evidence state).nonces.get? digest = some nonce) :
    (issued h source' content' evidence' state').nonces.get? digest = some nonce := by
  rw [get?_nonces_issued_eq_some_iff hss hclean] at hnonce
  rw [get?_nonces_issued_eq_some_iff hss' hclean']
  obtain ⟨d, hd, rfl, rfl⟩ := hnonce
  obtain ⟨d', hd', hsame, htext⟩ := exists_drawn_of_hashes_eq hss hss' hsalted hhashes hd
  refine ⟨d', hd', ?_, hsame⟩
  rw [Content.digest_eq_of_mem_drawn hd', Content.digest_eq_of_mem_drawn hd]
  exact Statement.digest_eq_of_text_eq h htext

/-- **An identifier commits to everything that was said, and to the nonces.** -/
theorem identifier_binds {c c' : Credential}
    (hissued : (issue h source content [] state).1 = .ok c)
    (hissued' : (issue h source' content' [] state').1 = .ok c')
    (hc : content.Integral) (hc' : content'.Integral)
    (hclean : h.CollisionFree (content.statementMessages ++ content'.statementMessages))
    (hsalted : h.CollisionFree
      (content.drawnMessages h source state ++ content'.drawnMessages h source' state'))
    (hleaves : h.CollisionFree [c.leaves, c'.leaves]) (hidentifier : c.identifier = c'.identifier) :
    c.holder = c'.holder ∧ c.content.facts = c'.content.facts ∧
      (c.content.schema = c'.content.schema → c.content.properties = c'.content.properties) ∧
        c.nonces = c'.nonces := by
  obtain ⟨⟨ss, hss⟩, rfl⟩ := issue_eq_ok_iff.1 hissued
  obtain ⟨⟨ss', hss'⟩, rfl⟩ := issue_eq_ok_iff.1 hissued'
  have hhashes := hashes_eq_of_identifier_eq hleaves hidentifier
  have hsalted' := hsalted.swap
  have hless := saysNoMore_of_hashes_eq hss hss' hc hc' hsalted hhashes
  have hmore := saysNoMore_of_hashes_eq hss' hss hc' hc hsalted' hhashes.symm
  have hfacts := hless.facts_eq hmore
  refine ⟨hless.holder_eq hmore, hfacts, ?_, ?_⟩
  · intro hschema
    exact Content.properties_eq_of_facts_eq hschema hfacts
  · refine OrderedMap.ext_get? fun digest => Option.ext fun nonce => ⟨?_, ?_⟩
    · exact get?_nonces_of_hashes_eq hss hss' hclean.left hclean.right hsalted hhashes
    · exact get?_nonces_of_hashes_eq hss' hss hclean.right hclean.left hsalted' hhashes.symm

/-- Where the person is at home is said under two schemas, of which one ends later than the other,
and the identifier is the same. -/
theorem identifier_binds_home :
    ∃ c c', (issue Sample.hasher (.counting "n") Sample.home [] 0).1 = .ok c ∧
      (issue Sample.hasher (.counting "n") Sample.homeCutLater [] 0).1 = .ok c' ∧
      c.identifier = c'.identifier ∧ c.content.facts = c'.content.facts ∧ c.nonces = c'.nonces ∧
      c.content.schema ≠ c'.content.schema := by
  have hissued : (issue Sample.hasher (.counting "n") Sample.home [] 0).1 = .ok _ :=
    issue_of_statements _ _ _ _ rfl
  have hissued' : (issue Sample.hasher (.counting "n") Sample.homeCutLater [] 0).1 = .ok _ :=
    issue_of_statements _ _ _ _ rfl
  have hhashes : (issued Sample.hasher (.counting "n") Sample.home [] 0).hashes =
      (issued Sample.hasher (.counting "n") Sample.homeCutLater [] 0).hashes := by
    rw [hashes_issued, hashes_issued]
    exact congrArg Digest.sort (by decide)
  have hidentifier := identifier_eq_of_hashes_eq hhashes
  have hleaves : Sample.hasher.CollisionFree
      [(issued Sample.hasher (.counting "n") Sample.home [] 0).leaves,
        (issued Sample.hasher (.counting "n") Sample.homeCutLater [] 0).leaves] := by
    rw [leaves_eq_of_hashes_eq hhashes]
    exact Hasher.collisionFree_same _ _
  obtain ⟨-, hfacts, -, hnonces⟩ := identifier_binds hissued hissued' (by decide)
    (by decide) (by decide) (by decide) hleaves hidentifier
  exact ⟨_, _, hissued, hissued', hidentifier, hfacts, hnonces, by decide⟩

end Credential

end SelectiveDisclosure
