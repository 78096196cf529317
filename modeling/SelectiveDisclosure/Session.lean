import SelectiveDisclosure.Json.Edit
import SelectiveDisclosure.Agent
import SelectiveDisclosure.Wire.Reader
import SelectiveDisclosure.Wire.Writer

/-!
# Sessions

A session is an agent together with named credentials, named presentations and a ring of keys.
It is carried on step by step. A step that fails leaves the names and the registry as they were;
nonces that it drew stay drawn.

## Main definitions

* `Session` — the state between steps.
* `Session.Step` — what can be done in a step.
* `Session.Answer`, `Session.Failure` — how a step turns out.
* `Session.step` — carries a session one step on.

## Main results

* `Session.step_failure` — a step that fails changes neither names nor registry.

## Implementation notes

Credentials and presentations have names of their own, so a credential and a presentation may share
a name. A text or value that a step brings along is read within the step, after names have been
looked up.
-/

namespace SelectiveDisclosure

/-- A record that has not been read: a text, or a JSON value. -/
inductive Unread where
  | text (s : String)
  | json (j : Json)

/-- Reads a record. -/
def Unread.read {α : Type} (reader : Origin → Tree → Except Misread α) :
    Unread → Except Misread α
  | .text s => Misread.ofText reader s
  | .json j => Misread.ofJson reader j

/-- An agent with the state of its nonce source, names and keys. -/
structure Session (σ : Type) where
  agent : Agent σ
  nonces : σ
  credentials : OrderedMap String Credential
  presentations : OrderedMap String Presentation
  keys : Keyring

namespace Session

/-- What can be done in a step. The last name is that under which the outcome is stored. -/
inductive Step where
  /-- Tells the policy. -/
  | policy
  /-- Issues a credential over named evidence. -/
  | issue (content : Unread) (evidence : List String) (name : String)
  /-- Stores a credential. -/
  | load (credential : Unread) (name : String)
  /-- Changes a presentation of this name, else a credential, in its JSON form. -/
  | edit (target : String) (path : List Json.Step) (change : Json.Change) (name : String)
  /-- Stores a copy of a credential without some properties. -/
  | remove (source : String) (properties : List String) (name : String)
  /-- Presents named credentials together. -/
  | present (sources : List String) (request : PresentationRequest) (name : String)
  /-- Stores a credential of a presentation. -/
  | take (presentation : String) (index : Nat) (name : String)
  /-- Registers a key given by its text. -/
  | registerText (keyUri key : String)
  /-- Registers the public key of a pair. -/
  | registerPair (keyUri : String) (pair : KeyPair)
  | verify (target : String)
  | verifyPresentation (target : String) (expected : Option String)
  /-- Checks a content, or that of the credential, against nonces and hashes of the credential. -/
  | verifyDisclosure (target : String) (content : Option Unread)
  /-- Commits again to a content, or that of the credential, with the nonces of the credential. -/
  | recommit (target : String) (content : Option Unread)
  /-- Tells the identifier of a credential's root hash. -/
  | identifier (target : String)

/-- What a step tells if it succeeds. -/
inductive Answer where
  | policy (policy : Policy)
  | credential (c : Credential)
  | presentation (p : Presentation)
  | key (key : PublicKey)
  | report (report : Report)
  /-- A commitment, and whether its hashes are those of the credential. -/
  | commitment (commitment : Commitment) (same : Bool)
  /-- An identifier and the hash of its text. -/
  | identifier (identifier : Identifier) (probe : Digest)

/-- Why a step fails. -/
inductive Failure where
  | noSuchName
  | noSuchPath
  | misread (cause : Misread)
  | fault (cause : Fault)
  | agent (cause : AgentFault)

variable {σ : Type}

/-- The credential with a name. -/
def credential (s : Session σ) (name : String) : Except Failure Credential :=
  match s.credentials.get? name with
  | some c => .ok c
  | none => .error .noSuchName

/-- The presentation with a name. -/
def presentation (s : Session σ) (name : String) : Except Failure Presentation :=
  match s.presentations.get? name with
  | some p => .ok p
  | none => .error .noSuchName

/-- The content that is given, or else that of a credential. -/
def contentOr (c : Credential) : Option Unread → Except Failure Content
  | none => .ok c.content
  | some unread => (unread.read Content.read).mapError .misread

/-- The session with a credential stored under a name. -/
def storeCredential (s : Session σ) (name : String) (c : Credential) : Session σ :=
  { s with credentials := s.credentials.insert name c }

/-- The session with a presentation stored under a name. -/
def storePresentation (s : Session σ) (name : String) (p : Presentation) : Session σ :=
  { s with presentations := s.presentations.insert name p }

/-- The session with a key registered under a URI. -/
def register (s : Session σ) (keyUri : String) (key : PublicKey) : Session σ :=
  { s with keys := s.keys.insert keyUri key }

/-- The record that a changed JSON value is read as. -/
def edited {α : Type} (reader : Origin → Tree → Except Misread α) (change : Json.Change)
    (path : List Json.Step) (j : Json) : Except Failure α :=
  match j.edit? change path with
  | none => .error .noSuchPath
  | some j => (Misread.ofJson reader j).mapError .misread

/-- How a step turns out: what it tells, the events it leaves and the session after it. -/
structure Turn (σ : Type) where
  result : Except Failure Answer
  events : List Event
  session : Session σ

/-- A turn that leaves no events; the session changes only if it succeeds. -/
def quiet (s : Session σ) (result : Except Failure (Answer × Session σ)) : Turn σ :=
  match result with
  | .ok (answer, after) => ⟨.ok answer, [], after⟩
  | .error failure => ⟨.error failure, [], s⟩

/-- A turn that has failed before anything happened. -/
def failed (s : Session σ) (failure : Failure) : Turn σ := ⟨.error failure, [], s⟩

/-- Issues a credential and stores it. -/
def issueStep (s : Session σ) (content : Unread) (evidence : List String) (name : String) :
    Turn σ :=
  match (do
    let evidence ← evidence.mapM s.credential
    let content ← (content.read Content.read).mapError .misread
    return (content, evidence) : Except Failure _) with
  | .error failure => s.failed failure
  | .ok (content, evidence) =>
    let outcome := s.agent.issue content evidence s.nonces
    let after := { s with nonces := outcome.nonces }
    match outcome.result with
    | .error fault => ⟨.error (.agent fault), outcome.events, after⟩
    | .ok c => ⟨.ok (.credential c), outcome.events, after.storeCredential name c⟩

/-- Presents credentials and stores the presentation. -/
def presentStep (s : Session σ) (sources : List String) (request : PresentationRequest)
    (name : String) : Turn σ :=
  match sources.mapM s.credential with
  | .error failure => s.failed failure
  | .ok credentials =>
    let result := s.agent.present credentials request
    let events := Agent.assembledEvents result
    match result with
    | .error fault => ⟨.error (.agent fault), events, s⟩
    | .ok p => ⟨.ok (.presentation p), events, s.storePresentation name p⟩

/-- Carries a session one step on. -/
def step (s : Session σ) : Step → Turn σ
  | .policy => s.quiet (.ok (.policy s.agent.policy, s))
  | .issue content evidence name => s.issueStep content evidence name
  | .load unread name => s.quiet do
    let c ← (unread.read Credential.read).mapError .misread
    return (.credential c, s.storeCredential name c)
  | .edit target path change name => s.quiet do
    match s.presentations.get? target with
    | some p =>
      let p ← edited Presentation.read change path p.toJson
      return (.presentation p, s.storePresentation name p)
    | none =>
      let c ← s.credential target
      let c ← edited Credential.read change path c.toJson
      return (.credential c, s.storeCredential name c)
  | .remove source properties name => s.quiet do
    let c ← s.credential source
    let c ← (s.agent.remove c properties).mapError .agent
    return (.credential c, s.storeCredential name c)
  | .present sources request name => s.presentStep sources request name
  | .take source index name => s.quiet do
    let p ← s.presentation source
    match p.credentials[index]? with
    | some c => return (.credential c, s.storeCredential name c)
    | none => .error .noSuchName
  | .registerText keyUri text => s.quiet do
    let key ← (PublicKey.ofHex text).mapError .fault
    return (.key key, s.register keyUri key)
  | .registerPair keyUri pair =>
    s.quiet (.ok (.key pair.publicKey, s.register keyUri pair.publicKey))
  | .verify target =>
    match s.credential target with
    | .error failure => s.failed failure
    | .ok c =>
      let report := s.agent.verify c
      ⟨.ok (.report report), Agent.credentialEvents c report, s⟩
  | .verifyPresentation target expected =>
    match s.presentation target with
    | .error failure => s.failed failure
    | .ok p =>
      let report := s.agent.verifyPresentation s.keys.signatureCheck expected p
      ⟨.ok (.report report), Agent.presentationEvents p report, s⟩
  | .verifyDisclosure target unread => s.quiet do
    let c ← s.credential target
    let content ← contentOr c unread
    return (.report ⟨content.disclosureFindings s.agent.hasher c.nonces c.hashes⟩, s)
  | .recommit target unread => s.quiet do
    let c ← s.credential target
    let content ← contentOr c unread
    let commitment ← (s.agent.recommit content c.nonces).mapError .agent
    return (.commitment commitment (commitment.hashes = c.hashes), s)
  | .identifier target => s.quiet do
    let c ← s.credential target
    let id := c.rootIdentifier
    return (.identifier id (s.agent.hasher.hash (utf8 id.text)), s)

theorem quiet_failure {s : Session σ} {result : Except Failure (Answer × Session σ)} {f : Failure}
    (h : (s.quiet result).result = .error f) : (s.quiet result).session = s := by
  cases result <;> simp_all [quiet]

/-- A step that fails changes neither names nor registry. -/
theorem step_failure {s : Session σ} {next : Step} {f : Failure}
    (h : (s.step next).result = .error f) :
    (s.step next).session = { s with nonces := (s.step next).session.nonces } := by
  have quiet {r} (h : (s.quiet r).result = .error f) :
      (s.quiet r).session = { s with nonces := (s.quiet r).session.nonces } := by
    rw [quiet_failure h]
  cases next with
  | issue content evidence name =>
    simp only [step, issueStep] at h ⊢
    split
    · rfl
    · split <;> simp_all
  | present sources request name =>
    simp only [step, presentStep] at h ⊢
    split
    · rfl
    · split <;> simp_all
  | verify target =>
    simp only [step] at h ⊢
    split <;> rfl
  | verifyPresentation target expected =>
    simp only [step] at h ⊢
    split <;> rfl
  | _ => exact quiet h

/-- Carries a session on through all steps, telling how each turns out. -/
def run (s : Session σ) : List Step → List (Turn σ)
  | [] => []
  | next :: rest =>
    let turn := s.step next
    turn :: turn.session.run rest

end Session

end SelectiveDisclosure
