import SelectiveDisclosure.Verification

/-!
# Agents

An agent works for an issuer, a holder or a verifier: it has a hash function, a source of nonces and
a policy for verification. It issues credentials over evidence that has been verified, presents
copies of them and verifies both.

Operations leave a trace of events. An issuance or presentation that succeeds is one, and so is a
verification that fails, also that of evidence during an issuance.

## Main definitions

* `Agent` — hash function, nonces and policy.
* `Agent.issue` — verifies the evidence and commits to a content.
* `Agent.present` — shows copies of credentials together.
* `Agent.verify`, `Agent.verifyPresentation` — verification under the agent's policy.
* `Event`, `Outcome` — what an operation leaves behind.

## Main results

* `Agent.firstBad_eq_none_iff` — no evidence is bad exactly if all of it verifies.
-/

namespace SelectiveDisclosure

/-- Why an agent could not carry an operation out. -/
inductive AgentFault where
  | fault (cause : Fault)
  /-- The evidence at this index does not verify. -/
  | invalidEvidence (index : Nat) (findings : List Finding)
  deriving DecidableEq

/-- The text of a fault. -/
def AgentFault.message : AgentFault → String
  | fault cause => "core error: " ++ cause.message
  | invalidEvidence index findings =>
    "evidence " ++ toString index ++ " does not verify (" ++ toString findings.length ++ " errors)"

/-- What operations leave in the trace. -/
inductive Event where
  | issued (identifier : String) (statements evidence : Nat)
  | assembled (credentials : Nat) (signed : Bool)
  | credentialRejected (identifier : String) (findings : Nat)
  | presentationRejected (holder : Option String) (findings : Nat)
  deriving DecidableEq, Repr

/-- The result of an operation, with the state of the nonce source and the events. -/
structure Outcome (σ α : Type) where
  result : Except AgentFault α
  nonces : σ
  events : List Event

/-- How credentials are presented. -/
structure PresentationRequest where
  selection : Selection
  challenge : Option String
  signer : Option Signer

/-- A hash function, a source of nonces with states of type `σ`, and a policy for verification. -/
structure Agent (σ : Type) where
  hasher : Hasher
  source : NonceSource σ
  policy : Policy

namespace Agent

variable {σ : Type}

/-! ### Verification -/

/-- Verifies a credential. -/
def verify (a : Agent σ) (c : Credential) : Report := c.verify a.hasher a.policy

/-- Verifies a presentation. -/
def verifyPresentation (a : Agent σ) (check : SignatureCheck) (expected : Option String)
    (p : Presentation) : Report :=
  p.verify a.hasher check expected a.policy

/-- The event of a verification of a credential, if it failed. -/
def credentialEvents (c : Credential) (r : Report) : List Event :=
  if r.verified then [] else [.credentialRejected c.identifier r.findings.length]

/-- The event of a verification of a presentation, if it failed. -/
def presentationEvents (p : Presentation) (r : Report) : List Event :=
  if r.verified then [] else [.presentationRejected p.holder r.findings.length]

/-! ### Issuance -/

/-- The first credential of a list that does not verify, with its index. -/
def firstBad (a : Agent σ) (cs : List Credential) : Option (Credential × Nat) :=
  cs.zipIdx.find? fun e => !(a.verify e.1).verified

theorem firstBad_eq_none_iff {a : Agent σ} {cs : List Credential} :
    a.firstBad cs = none ↔ ∀ c ∈ cs, (a.verify c).verified = true := by
  rw [firstBad, List.find?_eq_none]
  constructor
  · intro h c hc
    obtain ⟨i, hi, rfl⟩ := List.getElem_of_mem hc
    simpa using h (cs[i], i) (by simp [List.mem_zipIdx_iff_getElem?])
  · intro h e he
    simpa using h e.1 (List.fst_mem_of_mem_zipIdx he)

/-- Issues a credential over evidence, all of which has to verify. -/
def issue (a : Agent σ) (content : Content) (evidence : List Credential) (state : σ) :
    Outcome σ Credential :=
  match a.firstBad evidence with
  | some (c, index) =>
    let report := a.verify c
    ⟨.error (.invalidEvidence index report.findings), state, credentialEvents c report⟩
  | none =>
    match Credential.issue a.hasher a.source content evidence state with
    | (.error fault, state) => ⟨.error (.fault fault), state, []⟩
    | (.ok c, state) => ⟨.ok c, state, [.issued c.identifier c.hashes.length c.evidence.length]⟩

/-! ### Disclosure -/

/-- Commits to a content again with recorded nonces. -/
def recommit (a : Agent σ) (content : Content) (nonces : NonceMap) :
    Except AgentFault Commitment :=
  (content.recommit a.hasher nonces).mapError .fault

/-- The copy of a credential without the named properties. -/
def remove (a : Agent σ) (c : Credential) (names : List String) : Except AgentFault Credential :=
  (c.remove a.hasher names).mapError .fault

/-- Shows copies of credentials together, all with the same selection. -/
def present (a : Agent σ) (cs : List Credential) (request : PresentationRequest) :
    Except AgentFault Presentation :=
  let presentation : Except Fault Presentation := do
    let copies ← cs.mapM (·.disclose a.hasher request.selection)
    Presentation.assemble copies request.challenge request.signer
  presentation.mapError .fault

/-- The event of a presentation that was put together. -/
def assembledEvents : Except AgentFault Presentation → List Event
  | .ok p => [.assembled p.credentials.length p.isSigned]
  | .error _ => []

end Agent

end SelectiveDisclosure
