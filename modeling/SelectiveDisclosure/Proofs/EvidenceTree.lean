import SelectiveDisclosure.Proofs.StatementTexts
import SelectiveDisclosure.Verification

/-!
# Verification decides whether the whole tree is in order

Verification walks down the evidence of a credential with a depth to spare, stops early at a
credential whose parts do not fit, and collects everything else. What it decides can be said without
any of that: the evidence nests no deeper than allowed, and every credential of the tree is in order
by itself.

The induction is on the depth to spare. It is for all credentials at once, and for the limit that a
finding names separately from the depth to spare, because evidence is verified with less to spare
and the same limit.

Of the content a verifier needs no more than that its statements are covered. Everything else that
it looks at stands in the frame of the credential: hashes, nonces, evidence, root hash and
identifier.

## Main definitions

* `Credential.SoundFrame` — everything but the content is in order.
* `Credential.withContent` — another content in the same frame.

## Main results

* `Credential.findingsWithin_eq_nil_iff` — nothing is found exactly if the tree is no higher than
  the depth to spare and in order.
* `Credential.verified_iff` — the same for a verification as a whole.
* `Credential.structureFinding?_eq_none_iff` — the parts of a credential that have to fit.
* `Credential.verified_iff_soundFrame` — a credential verifies exactly if its frame is in order and
  the statements of its content are covered.
* `Presentation.verified_iff` — what has to be in order for a presentation to be accepted.
-/

namespace SelectiveDisclosure

namespace Credential

theorem evidenceFindings_eq_nil_iff {about : Credential → List Finding}
    {evidence : List Credential} :
    evidenceFindings about evidence = [] ↔ ∀ e ∈ evidence, about e = [] := by
  rw [evidenceFindings, List.flatMap_eq_nil_iff]
  constructor
  · intro h e he
    obtain ⟨i, hi, rfl⟩ := List.getElem_of_mem he
    simpa using h (evidence[i], i) (by simp [List.mem_zipIdx_iff_getElem?])
  · intro h x hx
    simpa using h x.1 (List.fst_mem_of_mem_zipIdx hx)

theorem rootFinding?_eq_none_iff {h : Hasher} {c : Credential} :
    c.rootFinding? h = none ↔ c.computedRoot h = c.root := by
  simp [rootFinding?]

theorem height_le_zero_iff {c : Credential} : c.height ≤ 0 ↔ c.evidence = [] := by
  rw [height_eq, heightAbove_le_iff]
  constructor
  · intro h
    cases hc : c.evidence with
    | nil => rfl
    | cons e rest => exact absurd (h e (by simp [hc])) (by omega)
  · intro h e he
    simp [h] at he

theorem height_le_succ_iff {c : Credential} {n : Nat} :
    c.height ≤ n + 1 ↔ ∀ e ∈ c.evidence, e.height ≤ n := by
  rw [height_eq, heightAbove_le_iff]
  simp only [Nat.add_le_add_iff_right]

/-- **Nothing is found exactly if the tree is no higher than the depth to spare and in order.** -/
theorem findingsWithin_eq_nil_iff {h : Hasher} {checkIdentifier : Bool} {limit room : Nat}
    {c : Credential} :
    findingsWithin h checkIdentifier limit room c = [] ↔
      c.height ≤ room ∧ SoundTree h checkIdentifier c := by
  induction room generalizing c with
  | zero =>
    rw [findingsWithin, height_le_zero_iff, soundTree_iff, Sound, ← rootFinding?_eq_none_iff]
    cases hstructure : c.structureFinding? checkIdentifier with
    | some finding => simp
    | none =>
      simp only [List.append_eq_nil_iff, Option.toList_eq_nil_iff, true_and]
      cases hc : c.evidence with
      | nil => simp
      | cons e rest => simp
  | succ room ih =>
    rw [findingsWithin, height_le_succ_iff, soundTree_iff, Sound, ← rootFinding?_eq_none_iff]
    cases hstructure : c.structureFinding? checkIdentifier with
    | some finding => simp
    | none =>
      simp only [List.append_eq_nil_iff, Option.toList_eq_nil_iff, evidenceFindings_eq_nil_iff, ih,
        true_and]
      constructor
      · rintro ⟨hroot, hevidence, hdisclosed⟩
        exact ⟨fun e he => (hevidence e he).1, ⟨hroot, hdisclosed⟩, fun e he => (hevidence e he).2⟩
      · rintro ⟨hheight, ⟨hroot, hdisclosed⟩, htrees⟩
        exact ⟨hroot, fun e he => ⟨hheight e he, htrees e he⟩, hdisclosed⟩

/-- **A credential verifies exactly if its evidence nests no deeper than allowed and every
credential of the tree is in order by itself.** -/
theorem verified_iff {h : Hasher} {policy : Policy} {c : Credential} :
    (c.verify h policy).verified = true ↔
      c.height ≤ policy.maxDepth ∧ SoundTree h policy.checkIdentifier c := by
  rw [Report.verified_iff]
  exact findingsWithin_eq_nil_iff

/-- The parts of a credential that have to fit. -/
theorem structureFinding?_eq_none_iff {checkIdentifier : Bool} {c : Credential} :
    c.structureFinding? checkIdentifier = none ↔
      Text.isBlank c.content.schema = false ∧ c.hashes.Pairwise (· < ·) ∧
        c.nonces.size ≤ c.hashes.length ∧ (∀ nonce ∈ c.nonces.values, nonce ≠ "") ∧
          (checkIdentifier = true → c.rootIdentifier.text = c.identifier) := by
  have empty : c.nonces.values.any (·.isEmpty) = false ↔ ∀ nonce ∈ c.nonces.values, nonce ≠ "" := by
    simp [List.any_eq_false]
  rw [← strictlyAscending_iff, ← empty, structureFinding?]
  split
  · next h => simp [h]
  split
  · next h => simp_all
  split
  · next h =>
    simp only [reduceCtorEq, false_iff]
    omega
  split
  · next h => simp [h]
  split
  · next h => simp_all
  · next hblank hascending hsize hempty hidentifier =>
    refine iff_of_true rfl ⟨by simpa using hblank, by simpa using hascending,
      Nat.not_lt.1 hsize, Bool.not_eq_true _ ▸ hempty, ?_⟩
    simpa using hidentifier

/-! ### Frame and content -/

/-- Whether everything about a credential but its content is in order. -/
def SoundFrame (h : Hasher) (policy : Policy) (c : Credential) : Prop :=
  c.hashes.Pairwise (· < ·) ∧ c.nonces.size ≤ c.hashes.length ∧
    (∀ nonce ∈ c.nonces.values, nonce ≠ "") ∧
      (policy.checkIdentifier = true → c.rootIdentifier.text = c.identifier) ∧
        c.computedRoot h = c.root ∧ heightAbove c.evidence ≤ policy.maxDepth ∧
          ∀ e ∈ c.evidence, SoundTree h policy.checkIdentifier e

/-- The credential with another content in the same frame. -/
def withContent (c : Credential) (content : Content) : Credential := { c with content }

theorem soundFrame_withContent_iff {h : Hasher} {policy : Policy} {c : Credential}
    {content : Content} :
    SoundFrame h policy (c.withContent content) ↔ SoundFrame h policy c := Iff.rfl

/-- **A credential verifies exactly if its frame is in order and the statements of its content are
covered.** -/
theorem verified_iff_soundFrame {h : Hasher} {policy : Policy} {c : Credential} :
    (c.verify h policy).verified = true ↔
      SoundFrame h policy c ∧
        ∃ ss, c.content.statements = .ok ss ∧ ∀ s ∈ ss, s.Covered h c.nonces c.hashes := by
  rw [verified_iff, soundTree_iff, Sound, structureFinding?_eq_none_iff, disclosureFindings,
    Content.disclosureFindings_eq_nil_iff, height_eq, SoundFrame]
  constructor
  · rintro ⟨hheight, ⟨⟨-, hhashes, hsize, hnonces, hidentifier⟩, hroot, hcovered⟩, htrees⟩
    exact ⟨⟨hhashes, hsize, hnonces, hidentifier, hroot, hheight, htrees⟩, hcovered⟩
  · rintro ⟨⟨hhashes, hsize, hnonces, hidentifier, hroot, hheight, htrees⟩, ss, hss, hcovered⟩
    have hschema := (Content.statements_eq_ok_iff.1 hss).1
    exact ⟨hheight, ⟨⟨hschema, hhashes, hsize, hnonces, hidentifier⟩, hroot, ss, hss, hcovered⟩,
      htrees⟩

/-- A credential that verifies still does when its content says less. -/
theorem verified_withContent_of_subset {h : Hasher} {policy : Policy} {c : Credential}
    {content : Content} {ss ss' : List Statement} (hc : (c.verify h policy).verified = true)
    (hss : c.content.statements = .ok ss) (hss' : content.statements = .ok ss') (hsub : ss' ⊆ ss) :
    ((c.withContent content).verify h policy).verified = true := by
  obtain ⟨hframe, covered, hcovered, hall⟩ := verified_iff_soundFrame.1 hc
  obtain rfl := Except.ok.inj (hss.symm.trans hcovered)
  exact verified_iff_soundFrame.2 ⟨hframe, ss', hss', fun s hs => hall s (hsub hs)⟩

/-- Properties may be left out of a credential that verifies. -/
theorem verified_without {h : Hasher} {policy : Policy} {c : Credential}
    (hc : (c.verify h policy).verified = true) (names : List String) :
    ((c.withContent (c.content.without names)).verify h policy).verified = true := by
  obtain ⟨-, ss, hss, -⟩ := verified_iff_soundFrame.1 hc
  obtain ⟨ss', hss', hsub⟩ := Content.exists_statements_without hss names
  exact verified_withContent_of_subset hc hss hss' hsub

end Credential

namespace Presentation

variable {h : Hasher} {check : SignatureCheck} {expected : Option String} {policy : Policy}
  {p : Presentation}

theorem challengeFinding?_eq_none_iff :
    p.challengeFinding? expected = none ↔ expected = none ∨ p.challenge = expected := by
  cases expected <;> simp [challengeFinding?]

theorem signerFinding?_eq_none_iff {s : SignedBy} :
    p.signerFinding? s = none ↔ ∀ holder, p.holder = some holder → keyOwner s.keyUri = holder := by
  rw [signerFinding?]
  cases p.holder <;> simp

/-- A signature is in order if it is made with a key of the holder, if there is one, and checks. -/
theorem signatureFindings_eq_nil_iff {s : SignedBy} (hs : p.signature = some s) :
    p.signatureFindings check expected = [] ↔
      (∀ holder, p.holder = some holder → keyOwner s.keyUri = holder) ∧
        check.check p.message s.signature s.keyUri = .ok () := by
  rw [signatureFindings, hs, ← signerFinding?_eq_none_iff]
  cases hcheck : check.check p.message s.signature s.keyUri with
  | error fault => simp [hcheck]
  | ok _ => simp [hcheck]

/-- **A presentation verifies exactly if its credentials do and have one holder, its challenge is
the one expected, and its signature is in order.** -/
theorem verified_iff :
    (p.verify h check expected policy).verified = true ↔
      p.credentials ≠ [] ∧ oneHolder p.credentials = true ∧
        (∀ c ∈ p.credentials, (c.verify h policy).verified = true) ∧
          (expected = none ∨ p.challenge = expected) ∧
            p.signatureFindings check expected = [] := by
  rw [Report.verified_iff, verify, findings, ← challengeFinding?_eq_none_iff]
  simp only [Report.verified_iff, Credential.verify]
  split
  · next hempty => simp_all
  · next hempty =>
    simp only [List.append_eq_nil_iff, List.flatMap_eq_nil_iff, Option.toList_eq_nil_iff]
    split <;> simp_all

/-- The credentials of an accepted presentation are accepted. -/
theorem verified_of_mem (hp : (p.verify h check expected policy).verified = true)
    {c : Credential} (hc : c ∈ p.credentials) : (c.verify h policy).verified = true :=
  (verified_iff.1 hp).2.2.1 c hc

end Presentation

end SelectiveDisclosure
