import SelectiveDisclosure.Proofs.AcceptedPresentations
import SelectiveDisclosure.Proofs.DisclosedCopies
import SelectiveDisclosure.Proofs.Traversals

/-!
# What is presented is accepted

Whoever presents credentials that verify cannot fail but in two ways: there are no credentials, or
they are of different holders. What comes out otherwise is as good as the verifier expects it to be.
The copies verify since the credentials do, they have one holder, and the signature is over the root
hashes and the challenge that the verifier reads off again.

Two things are left that presenting does not look at. One is whether the verifier expects a
challenge, and which. The other is whose key the signer has: anybody can sign a presentation, and a
verifier rejects it if the key is not one of the holder.

## Main definitions

* `SignatureCheck.Accepts` — a signer's signature over a message is accepted.
* `Presentation.SignedWith` — a presentation is signed by a signer, if there is one.

## Main results

* `Presentation.assemble_eq_ok_iff` — which presentation is put together.
* `Presentation.verified_iff_of_signedWith` — when a presentation of sound credentials is accepted.
* `Agent.present_eq_ok_iff` — which presentation shows copies of credentials.
* `Agent.message_of_present` — what it is signed over.
* `Agent.present_agrees_with_verify` — presenting and verifying agree.
-/

namespace SelectiveDisclosure

/-- Whether a check accepts what a signer signs a message with. -/
def SignatureCheck.Accepts (check : SignatureCheck) (signer : Signer) (message : Bytes) : Prop :=
  ∀ signature, signer.sign message = .ok signature →
    check.check message signature signer.keyUri = .ok ()

namespace Presentation

variable {h : Hasher} {check : SignatureCheck} {expected challenge holder : Option String}
  {policy : Policy} {p : Presentation} {cs : List Credential} {signer : Option Signer}

/-! ### Putting credentials together -/

/-- Whether a presentation is signed by a signer, or is not signed where there is none. -/
def SignedWith (signer : Option Signer) (p : Presentation) : Prop :=
  match signer with
  | none => p.signature = none
  | some signer => ∃ signature, signer.sign p.message = .ok signature ∧
      p.signature = some ⟨signer.keyUri, signature⟩

theorem assemble_of_not_oneHolder (hcs : cs ≠ []) (hone : oneHolder cs = false) :
    assemble cs challenge signer = .error .holderMismatch := by
  simp [assemble, hcs, hone]

/-- Which presentation is put together: the credentials as they are, signed by the signer. -/
theorem assemble_eq_ok_iff :
    assemble cs challenge signer = .ok p ↔
      cs ≠ [] ∧ oneHolder cs = true ∧ p.credentials = cs ∧ p.challenge = challenge ∧
        p.SignedWith signer := by
  obtain ⟨credentials, signature, answer⟩ := p
  simp only [assemble, ite_error_eq_ok_iff, List.isEmpty_iff, Bool.not_eq_true', Bool.not_eq_false]
  refine and_congr_right fun _ => and_congr_right fun _ => ?_
  cases signer with
  | none =>
    simp only [SignedWith, Except.ok.injEq, Presentation.mk.injEq]
    constructor
    · rintro ⟨rfl, rfl, rfl⟩
      exact ⟨rfl, rfl, rfl⟩
    · rintro ⟨rfl, rfl, rfl⟩
      exact ⟨rfl, rfl, rfl⟩
  | some signer =>
    simp only [SignedWith, bind_eq_ok_iff, pure_eq_ok_iff, Presentation.mk.injEq]
    constructor
    · rintro ⟨signed, hsigned, rfl, rfl, rfl⟩
      exact ⟨rfl, rfl, signed, hsigned, rfl⟩
    · rintro ⟨rfl, rfl, signed, hsigned, rfl⟩
      exact ⟨signed, hsigned, rfl, rfl, rfl⟩

/-- It is put together if the signer, if there is one, signs the root hashes and the challenge. -/
theorem exists_assemble_eq_ok (hcs : cs ≠ []) (hone : oneHolder cs = true)
    (hsigns : ∀ s, signer = some s →
      ∃ signature, s.sign (messageOver (cs.map (·.root)) challenge) = .ok signature) :
    ∃ p, assemble cs challenge signer = .ok p := by
  cases signer with
  | none => exact ⟨⟨cs, none, challenge⟩, assemble_eq_ok_iff.2 ⟨hcs, hone, rfl, rfl, rfl⟩⟩
  | some s =>
    obtain ⟨signature, hsignature⟩ := hsigns s rfl
    exact ⟨⟨cs, some ⟨s.keyUri, signature⟩, challenge⟩,
      assemble_eq_ok_iff.2 ⟨hcs, hone, rfl, rfl, signature, hsignature, rfl⟩⟩

/-! ### Verifying what was put together -/

/-- **When a presentation of sound credentials is accepted**: it depends on what is expected and on
whose key the signer has. -/
theorem verified_iff_of_signedWith (hp : p.HeldBy h policy holder) (hsigned : p.SignedWith signer)
    (haccepts : ∀ s, signer = some s → check.Accepts s p.message) :
    (p.verify h check expected policy).verified = true ↔
      (expected = none ∨ p.challenge = expected ∧ signer ≠ none) ∧
        ∀ s, signer = some s → ∀ owner, holder = some owner → keyOwner s.keyUri = owner := by
  rw [verified_iff_of_heldBy hp]
  cases signer with
  | none =>
    have hsignature : p.signature = none := hsigned
    simp [hsignature]
  | some s =>
    obtain ⟨signature, hsignature, hs⟩ := hsigned
    have hchecks := haccepts s rfl signature hsignature
    simp [hs, SignedBy.Vouches, hchecks, keyOwner_eq_iff]

end Presentation

/-! ### Presenting by agents -/

namespace Credential

variable {h : Hasher} {policy : Policy} {s : Selection} {cs copies : List Credential}

/-- Credentials that verify can all be disclosed. -/
theorem exists_disclosed (hcs : ∀ c ∈ cs, (c.verify h policy).verified = true) (s : Selection) :
    ∃ copies, List.Forall₂ (fun c copy => c.disclose h s = .ok copy) cs copies := by
  induction cs with
  | nil => exact ⟨[], .nil⟩
  | cons c rest ih =>
    rw [List.forall_mem_cons] at hcs
    obtain ⟨copy, hcopy, -⟩ := exists_verified_disclose hcs.1 s
    obtain ⟨copies, hcopies⟩ := ih hcs.2
    exact ⟨copy :: copies, .cons hcopy hcopies⟩

theorem copies_of_disclosed
    (hcopies : List.Forall₂ (fun c copy => c.disclose h s = .ok copy) cs copies) :
    List.Forall₂ (CopyOf h) cs copies :=
  hcopies.imp fun _ _ hcopy => .inr ⟨s, hcopy⟩

end Credential

namespace Presentation

/-- Copies of sound credentials are sound. -/
theorem heldBy_of_copies {h : Hasher} {policy : Policy} {holder : Option String}
    {p : Presentation} {cs : List Credential} (hnonempty : cs ≠ [])
    (hheld : ∀ c ∈ cs, c.holder = holder) (hcs : ∀ c ∈ cs, (c.verify h policy).verified = true)
    (hcopies : List.Forall₂ (Credential.CopyOf h) cs p.credentials) :
    p.HeldBy h policy holder := by
  refine ⟨?_, ?_, ?_⟩
  · intro hempty
    rw [hempty, List.forall₂_nil_right_iff] at hcopies
    exact hnonempty hcopies
  · intro copy hmem
    obtain ⟨c, hc, hcopy⟩ := exists_of_mem_copies hcopies hmem
    rw [hcopy.holder_eq, hheld c hc]
  · intro copy hmem
    obtain ⟨c, hc, hcopy⟩ := exists_of_mem_copies hcopies hmem
    exact hcopy.verified (hcs c hc)

end Presentation

namespace Agent

variable {σ : Type} {a : Agent σ} {request : PresentationRequest} {cs copies : List Credential}

theorem present_of_disclosed (hcopies : List.Forall₂
      (fun c copy => c.disclose a.hasher request.selection = .ok copy) cs copies) :
    a.present cs request =
      (Presentation.assemble copies request.challenge request.signer).mapError .fault := by
  simp only [present, mapM_eq_ok_iff.2 hcopies]
  rfl

/-- Which presentation shows copies of credentials. -/
theorem present_eq_ok_iff {p : Presentation} :
    a.present cs request = .ok p ↔
      List.Forall₂ (fun c copy => c.disclose a.hasher request.selection = .ok copy) cs
          p.credentials ∧
        p.credentials ≠ [] ∧ Presentation.oneHolder p.credentials = true ∧
          p.challenge = request.challenge ∧ p.SignedWith request.signer := by
  simp only [present, mapError_eq_ok_iff, bind_eq_ok_iff, mapM_eq_ok_iff,
    Presentation.assemble_eq_ok_iff]
  constructor
  · rintro ⟨copies, hcopies, hnonempty, hone, rfl, hrest⟩
    exact ⟨hcopies, hnonempty, hone, hrest⟩
  · rintro ⟨hcopies, hnonempty, hone, hrest⟩
    exact ⟨_, hcopies, hnonempty, hone, rfl, hrest⟩

/-- A presentation is signed over the root hashes of the credentials that it was made from. -/
theorem message_of_present {p : Presentation} (hp : a.present cs request = .ok p) :
    p.message = Presentation.messageOver (cs.map (·.root)) request.challenge := by
  obtain ⟨hcopies, -, -, hchallenge, -⟩ := present_eq_ok_iff.1 hp
  rw [Presentation.message, hchallenge, Presentation.map_eq_of_copies
    (fun _ _ hcopy => hcopy.root_eq) (Credential.copies_of_disclosed hcopies)]

theorem present_nil : a.present [] request = .error (.fault .emptyPresentation) :=
  present_of_disclosed .nil

/-- Credentials of different holders are not presented together. -/
theorem present_of_holder_ne (request : PresentationRequest)
    (hcs : ∀ c ∈ cs, (a.verify c).verified = true) {c c' : Credential} (hc : c ∈ cs)
    (hc' : c' ∈ cs) (hne : c.holder ≠ c'.holder) :
    a.present cs request = .error (.fault .holderMismatch) := by
  obtain ⟨copies, hcopies⟩ := Credential.exists_disclosed hcs request.selection
  have hholders := Presentation.map_eq_of_copies (fun _ _ hcopy => hcopy.holder_eq)
    (Credential.copies_of_disclosed hcopies)
  have hone : Presentation.oneHolder copies = false := by
    rw [Presentation.oneHolder_congr hholders, Bool.eq_false_iff, ne_eq,
      Presentation.oneHolder_iff]
    rintro ⟨holder, hheld⟩
    exact hne ((hheld c hc).trans (hheld c' hc').symm)
  have hnonempty : copies ≠ [] := by
    rintro rfl
    rw [List.forall₂_nil_right_iff.1 hcopies] at hc
    simp at hc
  rw [present_of_disclosed hcopies, Presentation.assemble_of_not_oneHolder hnonempty hone]
  rfl

/-- Sound credentials of one holder are presented, if the signer, if there is one, signs. -/
theorem exists_present_eq_ok {holder : Option String}
    (hcs : ∀ c ∈ cs, (a.verify c).verified = true)
    (hsigns : ∀ signer, request.signer = some signer → ∃ signature,
      signer.sign (Presentation.messageOver (cs.map (·.root)) request.challenge) =
        .ok signature)
    (hnonempty : cs ≠ []) (hheld : ∀ c ∈ cs, c.holder = holder) :
    ∃ p, a.present cs request = .ok p ∧ p.HeldBy a.hasher a.policy holder ∧
      p.challenge = request.challenge ∧ p.SignedWith request.signer := by
  obtain ⟨copies, hdisclosed⟩ := Credential.exists_disclosed hcs request.selection
  have hcopies := Credential.copies_of_disclosed hdisclosed
  have hroots := Presentation.map_eq_of_copies (fun _ _ hcopy => hcopy.root_eq) hcopies
  have hcopied : (⟨copies, none, none⟩ : Presentation).HeldBy a.hasher a.policy holder :=
    Presentation.heldBy_of_copies hnonempty hheld hcs hcopies
  obtain ⟨p, hassembled⟩ := Presentation.exists_assemble_eq_ok hcopied.nonempty
    (Presentation.oneHolder_iff.2 ⟨holder, hcopied.held⟩) (hroots ▸ hsigns)
  have hp : a.present cs request = .ok p := by rw [present_of_disclosed hdisclosed, hassembled]; rfl
  obtain ⟨hshown, -, -, hchallenge, hsigned⟩ := present_eq_ok_iff.1 hp
  refine ⟨p, hp, ?_, hchallenge, hsigned⟩
  exact Presentation.heldBy_of_copies hnonempty hheld hcs (Credential.copies_of_disclosed hshown)

/-- **Presenting and verifying agree.** Credentials that verify can be presented, unless there are
none or they are of different holders. What is presented is accepted by whoever accepts what the
signer signs, if a challenge that is expected is the one presented and signed for, and the key of
the signer is one of the holder. -/
theorem present_agrees_with_verify (a : Agent σ) (request : PresentationRequest)
    (hcs : ∀ c ∈ cs, (a.verify c).verified = true)
    (hsigns : ∀ signer, request.signer = some signer → ∃ signature,
      signer.sign (Presentation.messageOver (cs.map (·.root)) request.challenge) =
        .ok signature) :
    (a.present cs request = .error (.fault .emptyPresentation) ↔ cs = []) ∧
      (a.present cs request = .error (.fault .holderMismatch) ↔
        ∃ c ∈ cs, ∃ c' ∈ cs, c.holder ≠ c'.holder) ∧
      (cs ≠ [] → (∀ c ∈ cs, ∀ c' ∈ cs, c.holder = c'.holder) →
        ∃ p, a.present cs request = .ok p ∧
          ∀ check : SignatureCheck,
            (∀ signer, request.signer = some signer → check.Accepts signer p.message) →
              ∀ expected, (a.verifyPresentation check expected p).verified = true ↔
                (expected = none ∨ expected = request.challenge ∧ request.signer ≠ none) ∧
                  ∀ signer, request.signer = some signer → ∀ c ∈ cs, ∀ holder,
                    c.holder = some holder → keyOwner signer.keyUri = holder) := by
  cases cs with
  | nil => simp [present_nil]
  | cons first rest =>
    by_cases hholders : ∀ c ∈ first :: rest, c.holder = first.holder
    · obtain ⟨p, hp, hheld, hchallenge, hsigned⟩ :=
        exists_present_eq_ok hcs hsigns (List.cons_ne_nil first rest) hholders
      refine ⟨by simp [hp], ?_, ?_⟩
      · rw [hp]
        refine iff_of_false nofun ?_
        rintro ⟨c, hc, c', hc', hne⟩
        exact hne ((hholders c hc).trans (hholders c' hc').symm)
      · intro _ _
        refine ⟨p, hp, fun check haccepts expected => ?_⟩
        rw [verifyPresentation, Presentation.verified_iff_of_signedWith hheld hsigned haccepts,
          hchallenge, eq_comm (a := request.challenge)]
        refine and_congr_right fun _ => ⟨fun howner signer hsigner c hc holder hholder => ?_,
          fun howner signer hsigner => howner signer hsigner first (.head _)⟩
        exact howner signer hsigner holder (hholders c hc ▸ hholder)
    · obtain ⟨c, hc, hne⟩ : ∃ c ∈ first :: rest, c.holder ≠ first.holder := by simpa using hholders
      have hpresent := present_of_holder_ne request hcs hc (.head _) hne
      refine ⟨by simp [hpresent], iff_of_true hpresent ⟨c, hc, first, .head _, hne⟩, ?_⟩
      intro _ hsame
      exact absurd (hsame c hc first (.head _)) hne

end Agent

namespace Sample

/-- What the person signs for today checks. -/
theorem check_signed_today :
    alice.keys.signatureCheck.check
      (Presentation.messageOver [certificate.root] (some "today"))
      (alice.pair.sign (Presentation.messageOver [certificate.root] (some "today")))
      alice.keyUri = .ok () := by
  have hpass := Presentation.check_of_verified (p := pass) rfl verified_pass
  have hmessage : pass.message = Presentation.messageOver [certificate.root] (some "today") := rfl
  rw [hmessage] at hpass
  exact hpass

end Sample

namespace Agent

/-- The person presents a certificate without their age, signed for today. It is accepted today and
by whoever does not ask, and not tomorrow. -/
theorem present_agrees_with_verify_of_certificate :
    ∃ request p, request.signer = some Sample.alice.signer ∧
      Agent.standard.present [Sample.certificate] request = .ok p ∧
      (Agent.standard.verifyPresentation Sample.alice.keys.signatureCheck (some "today")
        p).verified = true ∧
      (Agent.standard.verifyPresentation Sample.alice.keys.signatureCheck none
        p).verified = true ∧
      (Agent.standard.verifyPresentation Sample.alice.keys.signatureCheck (some "tomorrow")
        p).verified = false := by
  obtain ⟨-, -, haccepted⟩ := present_agrees_with_verify Agent.standard
    ⟨⟨none, ["age"]⟩, some "today", some Sample.alice.signer⟩
    (List.forall_mem_singleton.2 Sample.verified_certificate) (by rintro _ ⟨⟩; exact ⟨_, rfl⟩)
  obtain ⟨p, hp, hverified⟩ := haccepted (by simp) (by simp)
  have hchecks : ∀ signer, some Sample.alice.signer = some signer →
      Sample.alice.keys.signatureCheck.Accepts signer p.message := by
    rintro _ ⟨⟩ signature hsignature
    rw [message_of_present hp] at hsignature ⊢
    obtain rfl := Except.ok.inj hsignature
    exact Sample.check_signed_today
  have howner : ∀ signer, some Sample.alice.signer = some signer →
      ∀ c ∈ [Sample.certificate], ∀ holder, c.holder = some holder →
        keyOwner signer.keyUri = holder := by
    rintro _ ⟨⟩ c hc holder hholder
    obtain rfl := List.mem_singleton.1 hc
    rw [← Option.some.inj hholder]
    decide
  refine ⟨_, p, rfl, hp, (hverified _ hchecks _).2 ⟨.inr ⟨rfl, by simp⟩, howner⟩,
    (hverified _ hchecks _).2 ⟨.inl rfl, howner⟩, Bool.eq_false_iff.2 fun hlate => ?_⟩
  exact absurd ((hverified _ hchecks _).1 hlate).1 (by simp)

end Agent

end SelectiveDisclosure
