import SelectiveDisclosure.Digest
import SelectiveDisclosure.Fault

/-!
# Findings

A verification does not stop at the first problem it meets. Every problem is a finding, and the
verification passes if there is none.

## Main definitions

* `Finding` — a problem with a credential or presentation.
* `Finding.message` — the text of a finding.
* `Finding.ofFault` — the finding that a fault amounts to during verification.
* `Report` — the findings of a verification, in the order they were made.

## Main results

* `Report.verified_iff` — a verification passes exactly if it found nothing.
-/

namespace SelectiveDisclosure

/-- A problem with a credential or presentation. -/
inductive Finding where
  /-- The statement has no nonce. -/
  | noProof (statement : String)
  /-- The salted hash of the statement was not committed to. -/
  | invalidProof (statement : String)
  /-- The root hash is not that of the committed hashes and the evidence. -/
  | rootMismatch (stored computed : Digest)
  /-- The identifier does not encode the root hash. -/
  | identifierMismatch (expected found : String)
  /-- The content has no statements. -/
  | malformedContent (detail : String)
  /-- The parts of the credential or presentation do not fit together. -/
  | structural (detail : String)
  /-- A piece of evidence has a problem of its own. -/
  | invalidEvidence (index : Nat) (source : Finding)
  /-- The evidence is nested more deeply than allowed. -/
  | evidenceTooDeep (limit : Nat)
  /-- A challenge was expected and nothing is signed. -/
  | missingSignature
  /-- The signature does not verify. -/
  | signatureFailed
  /-- The signing key is not one of the holder. -/
  | signerNotHolder (keyUri holder : String)
  /-- The presentation was made for another challenge, or for none. -/
  | challengeMismatch (expected : String) (got : Option String)
  /-- The credentials have different holders. -/
  | holderMismatch
  deriving DecidableEq

namespace Finding

/-- A text that may be absent, as reports show it. -/
def optionalText : Option String → String
  | none => "None"
  | some s => "Some(" ++ Text.quoted s ++ ")"

/-- The text of a finding. -/
def message : Finding → String
  | noProof statement => "no proof for statement " ++ statement
  | invalidProof statement => "invalid proof for statement " ++ statement
  | rootMismatch stored computed =>
    "root hash unverifiable: stored " ++ stored.text ++ ", computed " ++ computed.text
  | identifierMismatch expected found =>
    "identifier " ++ found ++ " does not encode the root hash (expected " ++ expected ++ ")"
  | malformedContent detail => "malformed content: " ++ detail
  | structural detail => "structural error: " ++ detail
  | invalidEvidence index source =>
    "evidence " ++ toString index ++ " is invalid: " ++ source.message
  | evidenceTooDeep limit =>
    "evidence chain exceeds the maximum depth of " ++ toString limit
  | missingSignature => "presentation is not signed"
  | signatureFailed => "presentation signature does not verify"
  | signerNotHolder keyUri holder =>
    "signing key " ++ keyUri ++ " does not belong to holder " ++ holder
  | challengeMismatch expected got =>
    "challenge mismatch: expected " ++ Text.quoted expected ++ ", got " ++ optionalText got
  | holderMismatch => "credentials in a presentation have different holders"

/-- The finding that a fault amounts to during verification. -/
def ofFault (fault : Fault) : Finding :=
  match fault with
  | .missingVocabulary | .malformedProperty _ _ => malformedContent fault.message
  | .missingNonce statement => noProof statement
  | .invalidSignature | .invalidPublicKey | .unknownKey _ => signatureFailed
  | .holderMismatch => holderMismatch
  | .emptyPresentation => structural fault.message
  | .malformedDigest detail | .invalidIdentifier detail | .encoding detail => structural detail

end Finding

/-- The findings of a verification, in the order they were made. -/
structure Report where
  findings : List Finding
  deriving DecidableEq

namespace Report

/-- The report of a verification that found nothing. -/
def passed : Report := ⟨[]⟩

/-- Whether the verification found nothing. -/
def verified (r : Report) : Bool := r.findings.isEmpty

/-- The report with one more finding. -/
def push (r : Report) (finding : Finding) : Report := ⟨r.findings ++ [finding]⟩

/-- The report with the findings of another behind its own. -/
def merge (r other : Report) : Report := ⟨r.findings ++ other.findings⟩

theorem verified_iff {r : Report} : r.verified = true ↔ r.findings = [] := by
  simp [verified]

theorem verified_eq_false_of_mem {r : Report} {finding : Finding} (h : finding ∈ r.findings) :
    r.verified = false :=
  Bool.eq_false_iff.2 fun hverified => List.ne_nil_of_mem h (verified_iff.1 hverified)

end Report

end SelectiveDisclosure
