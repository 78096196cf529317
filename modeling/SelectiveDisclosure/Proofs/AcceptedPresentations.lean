import SelectiveDisclosure.Proofs.EvidenceTree

/-!
# Which presentations are accepted

Verification finds what is wrong with a presentation in one place after another. Some of these are
passed over: there is nothing to compare where no challenge is expected, nothing to check where
nothing is signed, and no key to ask for where there is no holder. The holder is that of the first
credential. What is accepted in the end can be said without any of that.

The credentials are there, they are all of one holder or all of none, and each of them verifies. If
there is a signature, it checks, and it is by a key of the holder. If a challenge is expected, it is
the one that the presentation answers, and there is a signature.

## Whose key it is

A key is one of a holder if its URI is the holder, or the holder with a separator and anything
behind. It is not enough for the URI to begin with the holder, since one holder can begin with
another. And no key is one of a holder with a separator in it, since only what is in front of the
first separator counts.

## Main definitions

* `IsKeyOf` — a URI is that of a key of a holder.
* `SignedBy.Vouches` — a signature checks, and its key is one of the holder.
* `Presentation.HeldBy` — what the credentials of a presentation have to be like.

## Main results

* `keyOwner_eq_iff` — the owner of a key is the holder that it is a key of.
* `Presentation.oneHolder_iff` — the credentials have the holder of the first if they have one.
* `Presentation.verified_iff_of_heldBy` — when a presentation of sound credentials is accepted.
* `Presentation.verified_iff_heldBy` — which presentations are accepted, for any expectation.
* `Presentation.accepted_iff` — the same with a challenge and without one.
-/

namespace SelectiveDisclosure

/-! ### Keys of a holder -/

/-- Whether a URI is that of a key of a holder: the holder itself, or the holder with a separator
and anything behind. There is no separator in a holder that has keys. -/
def IsKeyOf (holder keyUri : String) : Prop :=
  '#' ∉ holder.toList ∧ (keyUri = holder ∨ ∃ fragment, keyUri = holder ++ "#" ++ fragment)

/-- What is in front of the first separator. -/
theorem takeWhile_ne_eq_iff {α : Type} [DecidableEq α] {separator : α} {whole front : List α} :
    whole.takeWhile (· ≠ separator) = front ↔
      separator ∉ front ∧ (whole = front ∨ ∃ rest, whole = front ++ separator :: rest) := by
  constructor
  · rintro rfl
    refine ⟨fun hmem => by simpa using List.all_eq_true.1 List.all_takeWhile _ hmem, ?_⟩
    have hcut := List.takeWhile_append_dropWhile (p := (· ≠ separator)) (l := whole)
    cases hrest : whole.dropWhile (· ≠ separator) with
    | nil =>
      rw [hrest, List.append_nil] at hcut
      exact .inl hcut.symm
    | cons first rest =>
      have hfirst := List.head_dropWhile_not (· ≠ separator) (hrest ▸ List.cons_ne_nil first rest)
      simp only [hrest, List.head_cons, decide_eq_false_iff_not, Decidable.not_not] at hfirst
      rw [hrest, hfirst] at hcut
      exact .inr ⟨rest, hcut.symm⟩
  · rintro ⟨hfront, hwhole⟩
    have hall : ∀ a ∈ front, decide (a ≠ separator) = true :=
      fun a ha => decide_eq_true fun heq => hfront (heq ▸ ha)
    rcases hwhole with rfl | ⟨rest, rfl⟩
    · rw [← List.append_nil whole, List.takeWhile_append_of_pos hall, List.takeWhile_nil]
    · rw [List.takeWhile_append_of_pos hall, List.takeWhile_cons_of_neg (by simp), List.append_nil]

/-- **The owner of a key is the holder that it is a key of.** -/
theorem keyOwner_eq_iff {holder keyUri : String} :
    keyOwner keyUri = holder ↔ IsKeyOf holder keyUri := by
  have hfragment : (∃ rest, keyUri.toList = holder.toList ++ '#' :: rest) ↔
      ∃ fragment, keyUri = holder ++ "#" ++ fragment := by
    constructor
    · rintro ⟨rest, hrest⟩
      exact ⟨String.ofList rest, String.toList_inj.1 (by simpa using hrest)⟩
    · rintro ⟨fragment, rfl⟩
      exact ⟨fragment.toList, by simp⟩
  rw [keyOwner, ← String.toList_inj, String.toList_ofList, takeWhile_ne_eq_iff, hfragment,
    String.toList_inj, IsKeyOf]

example : keyOwner "alice2#key-1" ≠ "alice" := by decide

namespace SignedBy

/-- Whether a signature over a message checks, and its key is one of the holder, if there is a
holder. -/
def Vouches (check : SignatureCheck) (holder : Option String) (message : Bytes) (s : SignedBy) :
    Prop :=
  check.check message s.signature s.keyUri = .ok () ∧
    ∀ owner, holder = some owner → IsKeyOf owner s.keyUri

end SignedBy

namespace Presentation

variable {h : Hasher} {check : SignatureCheck} {expected holder : Option String} {policy : Policy}
  {p : Presentation}

/-! ### One holder -/

/-- The credentials of a list have the holder of the first exactly if they have one holder. -/
theorem oneHolder_iff {cs : List Credential} :
    oneHolder cs = true ↔ ∃ holder, ∀ c ∈ cs, c.holder = holder := by
  cases cs with
  | nil => simp [oneHolder]
  | cons first rest =>
    simp only [oneHolder, List.all_eq_true, decide_eq_true_eq, List.forall_mem_cons]
    constructor
    · intro hrest
      exact ⟨first.holder, rfl, hrest⟩
    · rintro ⟨holder, hfirst, hrest⟩ c hc
      rw [hrest c hc, hfirst]

/-- Whether a presentation shows credentials, all of one holder or all of none, that verify. -/
structure HeldBy (h : Hasher) (policy : Policy) (holder : Option String) (p : Presentation) :
    Prop where
  nonempty : p.credentials ≠ []
  held : ∀ c ∈ p.credentials, c.holder = holder
  verified : ∀ c ∈ p.credentials, (c.verify h policy).verified = true

theorem HeldBy.holder_eq (hp : p.HeldBy h policy holder) : p.holder = holder := by
  obtain ⟨first, rest, hcredentials⟩ := List.exists_cons_of_ne_nil hp.nonempty
  rw [Presentation.holder, hcredentials]
  exact hp.held first (by simp [hcredentials])

theorem exists_heldBy_iff :
    (∃ holder, p.HeldBy h policy holder) ↔
      p.credentials ≠ [] ∧ oneHolder p.credentials = true ∧
        ∀ c ∈ p.credentials, (c.verify h policy).verified = true := by
  rw [oneHolder_iff]
  constructor
  · rintro ⟨holder, hnonempty, hheld, hverified⟩
    exact ⟨hnonempty, ⟨holder, hheld⟩, hverified⟩
  · rintro ⟨hnonempty, ⟨holder, hheld⟩, hverified⟩
    exact ⟨holder, hnonempty, hheld, hverified⟩

/-! ### Acceptance -/

/-- Nothing is found about the signature if there is one where a challenge is expected, and it
vouches for the holder. -/
theorem signatureFindings_eq_nil_iff_vouches :
    p.signatureFindings check expected = [] ↔
      (expected = none ∨ p.signature ≠ none) ∧
        ∀ s, p.signature = some s → s.Vouches check p.holder p.message := by
  cases hs : p.signature with
  | none => cases expected <;> simp [signatureFindings, hs]
  | some s =>
    rw [Presentation.signatureFindings_eq_nil_iff hs]
    simp [SignedBy.Vouches, keyOwner_eq_iff, and_comm]

/-- When a presentation of sound credentials is accepted. -/
theorem verified_iff_of_heldBy (hp : p.HeldBy h policy holder) :
    (p.verify h check expected policy).verified = true ↔
      (expected = none ∨ p.challenge = expected ∧ p.signature ≠ none) ∧
        ∀ s, p.signature = some s → s.Vouches check holder p.message := by
  obtain ⟨hnonempty, hone, hverified⟩ := exists_heldBy_iff.1 ⟨holder, hp⟩
  rw [verified_iff, and_iff_right hnonempty, and_iff_right hone, and_iff_right hverified,
    signatureFindings_eq_nil_iff_vouches, hp.holder_eq, or_and_left, and_assoc]

/-- **Which presentations are accepted**, whether a challenge is expected or not. -/
theorem verified_iff_heldBy :
    (p.verify h check expected policy).verified = true ↔
      ∃ holder, p.HeldBy h policy holder ∧
        (expected = none ∨ p.challenge = expected ∧ p.signature ≠ none) ∧
          ∀ s, p.signature = some s → s.Vouches check holder p.message := by
  constructor
  · intro hverified
    obtain ⟨hnonempty, hone, hcredentials, -⟩ := verified_iff.1 hverified
    obtain ⟨holder, hheld⟩ := exists_heldBy_iff.2 ⟨hnonempty, hone, hcredentials⟩
    exact ⟨holder, hheld, (verified_iff_of_heldBy hheld).1 hverified⟩
  · rintro ⟨holder, hheld, hrest⟩
    exact (verified_iff_of_heldBy hheld).2 hrest

/-- The signature of an accepted presentation checks. -/
theorem check_of_verified {s : SignedBy} (hs : p.signature = some s)
    (hp : (p.verify h check expected policy).verified = true) :
    check.check p.message s.signature s.keyUri = .ok () := by
  obtain ⟨_, -, -, hvouches⟩ := verified_iff_heldBy.1 hp
  exact (hvouches s hs).1

/-- An accepted presentation answers the challenge that was expected. -/
theorem challenge_of_verified {challenge : String}
    (hp : (p.verify h check (some challenge) policy).verified = true) :
    p.challenge = some challenge := by
  obtain ⟨_, -, hexpected, -⟩ := verified_iff_heldBy.1 hp
  exact (hexpected.resolve_left nofun).1

/-- **Accepted presentations, exactly.** A presentation is accepted for a challenge if its
credentials are those of one holder and verify, the challenge is its own, and a signature over the
root hashes and this challenge vouches for the holder. Where no challenge is expected, it need not
be signed, and a signature is one over its own challenge. -/
theorem accepted_iff (h : Hasher) (check : SignatureCheck) (policy : Policy) (p : Presentation) :
    (∀ challenge, (p.verify h check (some challenge) policy).verified = true ↔
        ∃ holder, p.HeldBy h policy holder ∧ p.challenge = some challenge ∧
          ∃ s, p.signature = some s ∧
            s.Vouches check holder
              (messageOver (p.credentials.map (·.root)) (some challenge))) ∧
      ((p.verify h check none policy).verified = true ↔
        ∃ holder, p.HeldBy h policy holder ∧
          ∀ s, p.signature = some s →
            s.Vouches check holder (messageOver (p.credentials.map (·.root)) p.challenge)) := by
  constructor
  · intro challenge
    rw [verified_iff_heldBy]
    refine exists_congr fun holder => and_congr_right fun _ => ?_
    constructor
    · rintro ⟨hexpected, hvouches⟩
      obtain ⟨hchallenge, hsigned⟩ := hexpected.resolve_left nofun
      obtain ⟨s, hs⟩ := Option.ne_none_iff_exists'.1 hsigned
      exact ⟨hchallenge, s, hs, hchallenge ▸ hvouches s hs⟩
    · rintro ⟨hchallenge, s, hs, hvouches⟩
      refine ⟨.inr ⟨hchallenge, by simp [hs]⟩, fun s' hs' => ?_⟩
      obtain rfl := Option.some.inj (hs.symm.trans hs')
      rw [message, hchallenge]
      exact hvouches
  · rw [verified_iff_heldBy]
    simp only [true_or, true_and, message]

end Presentation

end SelectiveDisclosure
