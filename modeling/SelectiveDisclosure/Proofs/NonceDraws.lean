import Mathlib.Data.List.Forall2
import SelectiveDisclosure.Proofs.Issuance

/-!
# Issuance draws all of its nonces or none

A nonce that was drawn is spent, so it matters at what point an issuance fails. It fails before the
first draw: first all evidence is verified, then the content is made into statements, and only when
nothing can fail any more are nonces drawn, one for each statement in order. Since the evidence
comes first, bad evidence is what is reported, even if there is something wrong with the content
too.

How often a source was asked cannot be told from its state, which need not change with a draw. So
the draws are counted by a source that writes them down. It gives what the source gives that it
stands before, and an agent that has it does the same as before.

## Main definitions

* `Draw` — a nonce that was drawn, and the digest that it was drawn for.
* `NonceSource.logged`, `Agent.logged` — a source that writes down its draws, and an agent with it.

## Main results

* `SaltedStatement.drawAll_logged` — one draw for each statement is written down.
* `Agent.firstBad_eq_some_iff` — which evidence is the first that is bad.
* `Agent.issue_logged` — what issuing with a log gives and what it writes down.
* `Agent.issue_draws_all_or_none` — when issuance fails with bad evidence, and what is drawn.
-/

namespace SelectiveDisclosure

variable {σ : Type} {h : Hasher} {source : NonceSource σ} {content : Content}
  {evidence : List Credential} {ss : List Statement} {fault : Fault}

/-! ### Logs of draws -/

/-- A nonce that was drawn for a digest. -/
structure Draw where
  digest : Digest
  nonce : String
  deriving DecidableEq

/-- The draw that a statement was salted with. -/
def SaltedStatement.draw (d : SaltedStatement) : Draw := ⟨d.digest, d.nonce⟩

/-- The same source, with a log to which it adds each of its draws. -/
def NonceSource.logged (source : NonceSource σ) : NonceSource (σ × List Draw) where
  draw digest state :=
    let drawn := source.draw digest state.1
    (drawn.1, drawn.2, state.2 ++ [⟨digest, drawn.1⟩])

theorem NonceSource.draw_logged (source : NonceSource σ) (digest : Digest) (state : σ)
    (log : List Draw) :
    source.logged.draw digest (state, log) =
      ((source.draw digest state).1, (source.draw digest state).2,
        log ++ [⟨digest, (source.draw digest state).1⟩]) := rfl

/-- **One draw for each statement is written down**, and the statements are salted as before. -/
theorem SaltedStatement.drawAll_logged (h : Hasher) (source : NonceSource σ) (ss : List Statement)
    (state : σ) (log : List Draw) :
    drawAll h source.logged ss (state, log) =
      ((drawAll h source ss state).1, (drawAll h source ss state).2,
        log ++ (drawAll h source ss state).1.map (·.draw)) := by
  induction ss generalizing state log with
  | nil => simp [drawAll]
  | cons s rest ih =>
    simp only [drawAll, NonceSource.draw_logged, ih, List.map_cons, List.append_assoc,
      List.singleton_append]
    rfl

theorem Content.drawn_logged (h : Hasher) (source : NonceSource σ) (content : Content) (state : σ)
    (log : List Draw) :
    content.drawn h source.logged (state, log) = content.drawn h source state := by
  rw [drawn, drawn, SaltedStatement.drawAll_logged]

theorem Credential.issued_logged (h : Hasher) (source : NonceSource σ) (content : Content)
    (evidence : List Credential) (state : σ) (log : List Draw) :
    issued h source.logged content evidence (state, log) =
      issued h source content evidence state := by
  rw [issued, issued, Content.drawn_logged]

/-- Statements and draws, one by one, are what is in the salted statements. -/
theorem Content.forall₂_draws_iff (hss : content.statements = .ok ss) (state : σ)
    {R : Statement → Draw → Prop} :
    List.Forall₂ R ss ((content.drawn h source state).map (·.draw)) ↔
      ∀ d ∈ content.drawn h source state, R d.statement d.draw := by
  conv_lhs => rw [← map_statement_drawn h source state hss]
  rw [List.forall₂_map_left_iff, List.forall₂_map_right_iff, List.forall₂_same]

/-- The draws are for the digests of the statements, one for each in order. -/
theorem Content.forall₂_drawn (hss : content.statements = .ok ss) (state : σ) :
    List.Forall₂ (fun s draw => draw.digest = s.digest h) ss
      ((content.drawn h source state).map (·.draw)) :=
  (forall₂_draws_iff hss state).2 fun _ hd => digest_eq_of_mem_drawn hd

/-- What was drawn for a statement is recorded under its digest. -/
theorem Credential.forall₂_recorded (evidence : List Credential) (hss : content.statements = .ok ss)
    (hclean : h.CollisionFree content.statementMessages) (state : σ) :
    List.Forall₂
      (fun s draw =>
        (issued h source content evidence state).nonces.get? (s.digest h) = some draw.nonce)
      ss ((content.drawn h source state).map (·.draw)) :=
  (Content.forall₂_draws_iff hss state).2 fun _ hd => get?_nonces_issued hss hclean hd

namespace Agent

variable {a : Agent σ} {bad : Credential} {index : Nat}

/-! ### The first bad evidence -/

/-- The first bad credential of a list is the one at the least index at which one does not
verify. -/
theorem firstBad_eq_some_iff {cs : List Credential} :
    a.firstBad cs = some (bad, index) ↔
      cs[index]? = some bad ∧ (a.verify bad).verified = false ∧
        ∀ j < index, ∀ c, cs[j]? = some c → (a.verify c).verified = true := by
  rw [firstBad, List.find?_eq_some_iff_getElem]
  simp only [List.getElem_zipIdx, Nat.zero_add, List.length_zipIdx, Prod.mk.injEq, Bool.not_not,
    Bool.not_eq_true']
  constructor
  · rintro ⟨hbad, i, hi, ⟨rfl, rfl⟩, hfront⟩
    refine ⟨List.getElem?_eq_getElem hi, hbad, fun j hj c hc => ?_⟩
    obtain ⟨hlength, rfl⟩ := List.getElem?_eq_some_iff.1 hc
    exact hfront j hj
  · rintro ⟨hindex, hbad, hfront⟩
    obtain ⟨hi, rfl⟩ := List.getElem?_eq_some_iff.1 hindex
    refine ⟨hbad, index, hi, ⟨rfl, rfl⟩, fun j hj => ?_⟩
    exact hfront j hj _ (List.getElem?_eq_getElem (Nat.lt_trans hj hi))

theorem exists_firstBad_iff {cs : List Credential} :
    (∃ bad index, a.firstBad cs = some (bad, index)) ↔
      ∃ c ∈ cs, (a.verify c).verified = false := by
  have hnone : a.firstBad cs ≠ none ↔ ∃ c ∈ cs, (a.verify c).verified = false := by
    rw [ne_eq, firstBad_eq_none_iff]
    simp
  rw [← hnone, Option.ne_none_iff_exists']
  simp

/-! ### What issuance comes to -/

theorem issue_of_firstBad (content : Content) (state : σ)
    (hbad : a.firstBad evidence = some (bad, index)) :
    a.issue content evidence state =
      ⟨.error (.invalidEvidence index (a.verify bad).findings), state,
        credentialEvents bad (a.verify bad)⟩ := by
  rw [issue, hbad]

theorem issue_of_malformed (state : σ) (hgood : a.firstBad evidence = none)
    (hfault : content.statements = .error fault) :
    a.issue content evidence state = ⟨.error (.fault fault), state, []⟩ := by
  rw [issue, hgood, Credential.issue, Content.commit, hfault]
  rfl

theorem issue_of_statements (state : σ) (hgood : a.firstBad evidence = none)
    (hss : content.statements = .ok ss) :
    a.issue content evidence state =
      let c := Credential.issued a.hasher a.source content evidence state
      ⟨.ok c, (SaltedStatement.drawAll a.hasher a.source ss state).2,
        [.issued c.identifier c.hashes.length c.evidence.length]⟩ := by
  rw [issue, hgood, Credential.issue, Content.commit, Credential.issued, Content.drawn,
    Content.stated_eq hss, hss]
  rfl

/-- **Issuance fails with bad evidence exactly if there is some**, and names the first. -/
theorem issue_result_eq_invalidEvidence_iff {state : σ} {findings : List Finding} :
    (a.issue content evidence state).result = .error (.invalidEvidence index findings) ↔
      ∃ bad, a.firstBad evidence = some (bad, index) ∧ findings = (a.verify bad).findings := by
  cases hbad : a.firstBad evidence with
  | some found =>
    obtain ⟨bad, i⟩ := found
    rw [issue_of_firstBad content state hbad]
    simp only [Except.error.injEq, AgentFault.invalidEvidence.injEq, Option.some.injEq,
      Prod.mk.injEq]
    constructor
    · rintro ⟨rfl, rfl⟩
      exact ⟨bad, ⟨rfl, rfl⟩, rfl⟩
    · rintro ⟨_, ⟨rfl, rfl⟩, rfl⟩
      exact ⟨rfl, rfl⟩
  | none =>
    cases hss : content.statements with
    | error fault => simp [issue_of_malformed state hbad hss]
    | ok ss => simp [issue_of_statements state hbad hss]

/-- It does so whatever is wrong with the content. -/
theorem exists_invalidEvidence_iff {state : σ} :
    (∃ index findings,
        (a.issue content evidence state).result = .error (.invalidEvidence index findings)) ↔
      ∃ e ∈ evidence, (a.verify e).verified = false := by
  rw [← exists_firstBad_iff]
  constructor
  · rintro ⟨index, findings, hfails⟩
    obtain ⟨bad, hbad, -⟩ := issue_result_eq_invalidEvidence_iff.1 hfails
    exact ⟨bad, index, hbad⟩
  · rintro ⟨bad, index, hbad⟩
    exact ⟨index, _, issue_result_eq_invalidEvidence_iff.2 ⟨bad, hbad, rfl⟩⟩

/-! ### Issuing with a log -/

/-- The same agent, with a source that writes down its draws. -/
def logged (a : Agent σ) : Agent (σ × List Draw) := ⟨a.hasher, a.source.logged, a.policy⟩

/-- What issuance draws: nothing if it fails, else a nonce for each statement. -/
def issueDraws (a : Agent σ) (content : Content) (evidence : List Credential) (state : σ) :
    List Draw :=
  match (a.issue content evidence state).result with
  | .ok _ => (content.drawn a.hasher a.source state).map (·.draw)
  | .error _ => []

/-- **With a log issuance does the same**, and what it draws is written down. -/
theorem issue_logged (a : Agent σ) (content : Content) (evidence : List Credential) (state : σ)
    (log : List Draw) :
    a.logged.issue content evidence (state, log) =
      ⟨(a.issue content evidence state).result,
        ((a.issue content evidence state).nonces, log ++ a.issueDraws content evidence state),
        (a.issue content evidence state).events⟩ := by
  rw [issueDraws]
  cases hbad : a.firstBad evidence with
  | some found =>
    obtain ⟨bad, index⟩ := found
    rw [issue_of_firstBad content state hbad, issue_of_firstBad (a := a.logged) content _ hbad,
      List.append_nil]
    rfl
  | none =>
    cases hss : content.statements with
    | error fault =>
      rw [issue_of_malformed state hbad hss, issue_of_malformed (a := a.logged) _ hbad hss,
        List.append_nil]
    | ok ss =>
      rw [issue_of_statements state hbad hss, issue_of_statements (a := a.logged) _ hbad hss]
      simp only [logged, Credential.issued_logged, SaltedStatement.drawAll_logged, Content.drawn,
        Content.stated_eq hss]

theorem nonces_of_issue_error {state : σ} {cause : AgentFault}
    (hfails : (a.issue content evidence state).result = .error cause) :
    (a.issue content evidence state).nonces = state ∧
      a.issueDraws content evidence state = [] := by
  refine ⟨?_, by rw [issueDraws, hfails]⟩
  cases hbad : a.firstBad evidence with
  | some found => rw [issue_of_firstBad content state hbad]
  | none =>
    cases hss : content.statements with
    | error fault => rw [issue_of_malformed state hbad hss]
    | ok ss => simp [issue_of_statements state hbad hss] at hfails

/-- What is drawn when a credential is issued, and what of it is recorded. -/
theorem draws_of_issue_ok {state : σ} {c : Credential}
    (hc : (a.issue content evidence state).result = .ok c) :
    ∃ ss, content.statements = .ok ss ∧
      List.Forall₂ (fun s draw => draw.digest = s.digest a.hasher) ss
        (a.issueDraws content evidence state) ∧
        (a.hasher.CollisionFree content.statementMessages →
          List.Forall₂ (fun s draw => c.nonces.get? (s.digest a.hasher) = some draw.nonce) ss
            (a.issueDraws content evidence state)) := by
  obtain ⟨-, hissued⟩ := issue_result_eq_ok_iff.1 hc
  obtain ⟨⟨ss, hss⟩, rfl⟩ := Credential.issue_eq_ok_iff.1 hissued
  rw [issueDraws, hc]
  exact ⟨ss, hss, Content.forall₂_drawn hss state,
    fun hclean => Credential.forall₂_recorded evidence hss hclean state⟩

/-- **Issuance draws all of its nonces or none.** It can be watched with a log, which changes
nothing else. If it fails, nothing was drawn. It fails with bad evidence exactly if there is some,
with the least index of any and with the findings about the evidence there, whatever the content is
like. If it succeeds, one nonce was drawn for each statement, in order and for the digest of the
statement, and under this digest the credential has the nonce that was drawn. -/
theorem issue_draws_all_or_none (a : Agent σ) (content : Content) (evidence : List Credential)
    (state : σ) (log : List Draw) :
    let plain := a.issue content evidence state
    let logged := a.logged.issue content evidence (state, log)
    (logged.result = plain.result ∧ logged.nonces.1 = plain.nonces ∧
        logged.events = plain.events) ∧
      (∀ cause, plain.result = .error cause →
        plain.nonces = state ∧ logged.nonces = (state, log)) ∧
      (∀ index findings, plain.result = .error (.invalidEvidence index findings) ↔
        ∃ bad, evidence[index]? = some bad ∧ (a.verify bad).verified = false ∧
          (∀ j < index, ∀ e, evidence[j]? = some e → (a.verify e).verified = true) ∧
            findings = (a.verify bad).findings) ∧
      ((∃ index findings, plain.result = .error (.invalidEvidence index findings)) ↔
        ∃ e ∈ evidence, (a.verify e).verified = false) ∧
      ∀ c, plain.result = .ok c → ∃ ss draws, content.statements = .ok ss ∧
        logged.nonces.2 = log ++ draws ∧
          List.Forall₂ (fun s draw => draw.digest = s.digest a.hasher) ss draws ∧
            (a.hasher.CollisionFree content.statementMessages →
              List.Forall₂ (fun s draw => c.nonces.get? (s.digest a.hasher) = some draw.nonce)
                ss draws) := by
  intro plain logged
  have hlogged : logged = ⟨plain.result,
      (plain.nonces, log ++ a.issueDraws content evidence state), plain.events⟩ :=
    issue_logged a content evidence state log
  rw [hlogged]
  refine ⟨⟨rfl, rfl, rfl⟩, fun cause hfails => ?_, fun index findings => ?_,
    exists_invalidEvidence_iff, fun c hc => ?_⟩
  · obtain ⟨hstate, hnone⟩ := nonces_of_issue_error hfails
    exact ⟨hstate, by rw [hnone, List.append_nil, ← hstate]⟩
  · refine issue_result_eq_invalidEvidence_iff.trans (exists_congr fun bad => ?_)
    rw [firstBad_eq_some_iff, and_assoc, and_assoc]
  · obtain ⟨ss, hss, hdigests, hrecorded⟩ := draws_of_issue_ok hc
    exact ⟨ss, _, hss, rfl, hdigests, hrecorded⟩

/-- The claim about the person is issued, and its nonces are drawn. A claim with a null for the age
could not be, but the evidence for it is not in order either, and it is the second piece of this
that is reported. No nonce is drawn. -/
theorem issue_draws_of_person :
    let ageless : Content :=
      .ofProperties "person" "registry" (some "alice") [("age", .null)]
    let broken : Credential := { Sample.personal with hashes := [] }
    Sample.hasher.CollisionFree Sample.person.statementMessages ∧
      (∃ ss draws, Sample.person.statements = .ok ss ∧
        (Sample.agent.logged.issue Sample.person [] (0, [])).nonces.2 = draws ∧
          List.Forall₂ (fun s draw => draw.digest = s.digest Sample.hasher) ss draws ∧
            List.Forall₂ (fun s draw =>
              Sample.personal.nonces.get? (s.digest Sample.hasher) = some draw.nonce) ss draws) ∧
      (Sample.agent.issue ageless [Sample.personal, broken, broken] 2).result =
        .error (.invalidEvidence 1
          [.structural "nonce map has 2 entries for 0 content hashes"]) ∧
      (Sample.agent.logged.issue ageless [Sample.personal, broken, broken] (2, [])).nonces =
        (2, []) := by
  intro ageless broken
  have hclean : Sample.hasher.CollisionFree Sample.person.statementMessages := by decide
  have hissued := issue_result_of_verified Sample.agent Sample.person [] 0 (by simp) rfl
  have hbroken : (Sample.agent.verify broken).findings =
      [.structural "nonce map has 2 entries for 0 content hashes"] := by decide +kernel
  obtain ⟨-, -, -, -, hok⟩ := issue_draws_all_or_none Sample.agent Sample.person [] 0 []
  obtain ⟨ss, draws, hss, hlog, hdigests, hrecorded⟩ := hok _ hissued
  obtain ⟨-, hfailed, hbad, -⟩ := issue_draws_all_or_none Sample.agent ageless
    [Sample.personal, broken, broken] 2 []
  have hfails := (hbad 1 _).2 ⟨broken, rfl, by rw [Report.verified, hbroken]; rfl, ?_, rfl⟩
  · rw [hbroken] at hfails
    exact ⟨hclean, ⟨ss, draws, hss, hlog, hdigests, hrecorded hclean⟩, hfails, (hfailed _ hfails).2⟩
  · intro j hj e he
    obtain rfl : j = 0 := by omega
    obtain rfl : Sample.personal = e := by simpa using he
    exact Sample.verified_personal

end Agent

end SelectiveDisclosure
