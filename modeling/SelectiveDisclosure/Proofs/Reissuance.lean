import SelectiveDisclosure.Proofs.Issuance
import SelectiveDisclosure.Proofs.Rehashing

/-!
# Issuing again with recorded nonces

Issuance draws nonces one after the other, from a source that may change with every draw. A
credential that is issued again has its nonces looked up, in a map that forgot in which order they
were drawn. It is the same credential all the same: each nonce is found under the digest of the very
statement that it was drawn for, since no two statements have one digest.

If a nonce is missing, nothing is issued, and the fault names the first statement without one. So an
entry that is taken out of the map of an issued credential is told by the statement that it was for.

## Main definitions

* `Content.unrecorded?` — the first statement of a content that has no recorded nonce.

## Main results

* `SaltedStatement.lookUpAll_map_statement` — statements are salted again as they were drawn.
* `Content.recommit_eq_error_of_unrecorded` — the statement that is named if a nonce is missing.
* `Credential.issued_again` — what issuing again gives, with all nonces or without one.
-/

namespace SelectiveDisclosure

variable {σ : Type} {h : Hasher} {source : NonceSource σ} {state : σ} {content : Content}
  {evidence : List Credential} {ss : List Statement} {s : Statement} {nonces : NonceMap}

namespace SaltedStatement

/-- Statements whose nonces are recorded are salted again as they were drawn. -/
theorem lookUpAll_map_statement {ds : List SaltedStatement}
    (hdrawn : ∀ d ∈ ds, d = of h d.statement d.nonce)
    (hnonces : ∀ d ∈ ds, nonces.get? (d.statement.digest h) = some d.nonce) :
    lookUpAll h nonces (ds.map (·.statement)) = .ok ds := by
  induction ds with
  | nil => rfl
  | cons d rest ih =>
    obtain ⟨hd, hrest⟩ := List.forall_mem_cons.1 hdrawn
    obtain ⟨hnonce, hnonces⟩ := List.forall_mem_cons.1 hnonces
    exact lookUpAll_cons_eq_ok_iff.2
      ⟨d.nonce, rest, hnonce, ih hrest hnonces, congrArg (· :: rest) hd⟩

end SaltedStatement

namespace Content

/-- The first statement of a content, in the order of the statements, that has no recorded nonce. -/
def unrecorded? (h : Hasher) (nonces : NonceMap) (c : Content) : Option Statement :=
  c.stated.find? fun s => !nonces.contains (s.digest h)

theorem unrecorded?_eq_some_iff (hss : content.statements = .ok ss) :
    content.unrecorded? h nonces = some s ↔
      ∃ front rest, ss = front ++ s :: rest ∧
        (∀ s' ∈ front, ∃ nonce, nonces.get? (s'.digest h) = some nonce) ∧
          nonces.get? (s.digest h) = none := by
  rw [unrecorded?, stated_eq hss, List.find?_eq_some_iff_append]
  simp only [OrderedMap.contains, Bool.not_eq_true', Bool.not_not, Option.isSome_eq_false_iff,
    Option.isNone_iff_eq_none, Option.isSome_iff_exists]
  constructor
  · rintro ⟨hnone, front, rest, rfl, hfront⟩
    exact ⟨front, rest, rfl, hfront, hnone⟩
  · rintro ⟨front, rest, rfl, hfront, hnone⟩
    exact ⟨hnone, front, rest, rfl, hfront⟩

/-- **The first statement without a nonce is named** if there is one, and nothing is committed
to. -/
theorem recommit_eq_error_of_unrecorded (hss : content.statements = .ok ss)
    (hfirst : content.unrecorded? h nonces = some s) :
    content.recommit h nonces = .error (.missingNonce s.text) := by
  obtain ⟨front, rest, hsplit, hfront, hnone⟩ := (unrecorded?_eq_some_iff hss).1 hfirst
  exact recommit_eq_error_iff.2 (.inr ⟨ss, hss, SaltedStatement.lookUpAll_eq_error_iff.2
    ⟨front, s, rest, hsplit, hfront, hnone, rfl⟩⟩)

/-- If all statements have nonces but one, this is the first without. -/
theorem unrecorded?_erase (hss : content.statements = .ok ss)
    (hclean : h.CollisionFree content.statementMessages)
    (hnonces : ∀ s ∈ ss, ∃ nonce, nonces.get? (s.digest h) = some nonce) (hs : s ∈ ss) :
    content.unrecorded? h (nonces.erase (s.digest h)) = some s := by
  obtain ⟨front, rest, rfl⟩ := List.append_of_mem hs
  refine (unrecorded?_eq_some_iff hss).2 ⟨front, rest, rfl, fun s' hs' => ?_, ?_⟩
  · have hmem : s' ∈ front ++ s :: rest := List.mem_append_left _ hs'
    have htext : s'.text ≠ s.text :=
      (List.pairwise_append.1 (pairwise_text_ne hss)).2.2 s' hs' s List.mem_cons_self
    have hdigest : s'.digest h ≠ s.digest h :=
      fun heq => htext (text_eq_of_digest_eq hss hclean hmem hs heq)
    rw [OrderedMap.get?_erase, if_neg hdigest]
    exact hnonces s' hmem
  · rw [OrderedMap.get?_erase, if_pos rfl]

end Content

namespace Credential

variable {c : Credential}

/-- Committing to a content with the nonces of what was issued gives what was issued. -/
theorem recommit_nonces_issued (source : NonceSource σ) (evidence : List Credential) (state : σ)
    (hss : content.statements = .ok ss) (hclean : h.CollisionFree content.statementMessages) :
    content.recommit h (issued h source content evidence state).nonces =
      .ok (.ofSalted (content.drawn h source state)) := by
  refine Content.recommit_eq_ok_iff.2 ⟨ss, _, hss, ?_, rfl⟩
  rw [← Content.map_statement_drawn h source state hss]
  exact SaltedStatement.lookUpAll_map_statement
    (fun d hd => SaltedStatement.eq_of_mem_drawAll hd) fun d hd => get?_nonces_issued hss hclean hd

theorem exists_nonce_issued (source : NonceSource σ) (evidence : List Credential) (state : σ)
    (hss : content.statements = .ok ss) (hclean : h.CollisionFree content.statementMessages)
    (hs : s ∈ ss) :
    ∃ nonce, (issued h source content evidence state).nonces.get? (s.digest h) = some nonce :=
  (covered_issued evidence hss hclean hs).imp fun _ => And.left

theorem issueRecorded_eq_error_of_unrecorded (hss : content.statements = .ok ss)
    (hfirst : content.unrecorded? h nonces = some s) :
    issueRecorded h nonces content = .error (.missingNonce s.text) := by
  rw [issueRecorded, Content.recommit_eq_error_of_unrecorded hss hfirst]
  rfl

/-- **What was issued can be issued again.** With the nonces that a credential was issued with, from
whatever source, the same hashes and nonces are committed to and the same credential is issued. With
other nonces nothing is if a statement has none, and the first such statement is named. Without the
entry of a statement that is this statement. -/
theorem issued_again (hissued : (issue h source content [] state).1 = .ok c)
    (hclean : h.CollisionFree content.statementMessages) :
    content.recommit h c.nonces = .ok ⟨c.hashes, c.nonces⟩ ∧
      issueRecorded h c.nonces content = .ok c ∧
      (∀ nonces s, content.unrecorded? h nonces = some s →
        content.recommit h nonces = .error (.missingNonce s.text) ∧
          issueRecorded h nonces content = .error (.missingNonce s.text)) ∧
      ∀ s ∈ content.stated,
        content.unrecorded? h (c.nonces.erase (s.digest h)) = some s ∧
          issueRecorded h (c.nonces.erase (s.digest h)) content =
            .error (.missingNonce s.text) := by
  obtain ⟨⟨ss, hss⟩, rfl⟩ := issue_eq_ok_iff.1 hissued
  have hcommitment := recommit_nonces_issued source [] state hss hclean
  refine ⟨hcommitment, ?_, fun nonces s hfirst =>
    ⟨Content.recommit_eq_error_of_unrecorded hss hfirst,
      issueRecorded_eq_error_of_unrecorded hss hfirst⟩, fun s hs => ?_⟩
  · rw [issueRecorded, hcommitment]
    rfl
  · rw [Content.stated_eq hss] at hs
    have hfirst := Content.unrecorded?_erase hss hclean
      (fun s' hs' => exists_nonce_issued source [] state hss hclean hs') hs
    exact ⟨hfirst, issueRecorded_eq_error_of_unrecorded hss hfirst⟩

/-- The certificate is issued again as it was. Without the nonce of the holder it is not, and the
statement about the holder is named. -/
theorem certificate_issued_again :
    Hasher.blake2b.CollisionFree Sample.person.statementMessages ∧
      issueRecorded .blake2b Sample.certificate.nonces Sample.person = .ok Sample.certificate ∧
      issueRecorded .blake2b
          (Sample.certificate.nonces.erase ((Statement.ofHolder "alice").digest .blake2b))
          Sample.person =
        .error (.missingNonce "\x7b\"@id\":\"alice\"\x7d") := by
  have hissued : (issue .blake2b .uuids Sample.person [] 0).1 = .ok Sample.certificate :=
    issue_of_statements _ _ _ _ rfl
  have hclean : Hasher.blake2b.CollisionFree Sample.person.statementMessages := by decide +kernel
  obtain ⟨-, hagain, -, herased⟩ := issued_again hissued hclean
  exact ⟨hclean, hagain, (herased (.ofHolder "alice") (by decide)).2⟩

end Credential

end SelectiveDisclosure
