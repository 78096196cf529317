import Mathlib.Algebra.Group.Nat.Defs
import SelectiveDisclosure.Proofs.AcceptedPresentations
import SelectiveDisclosure.Proofs.DisclosedCopies

/-!
# What a signature over a presentation cannot be used for again

A signature is over one byte string: how many root hashes there are, the root hashes, and the
challenge. None of the three is separated from the next, and the challenge is any text. Still there
is only one way to read the bytes. The number takes four of them and says where the root hashes
end, as each takes 32; the byte behind them tells no challenge from an empty one; the rest is text.

So whoever takes the signature from a presentation can use it again only with credentials of the
same root hashes, in the same order, and only in answer to the same challenge. It takes a verifier
that accepts a signature by a key over one message at most.

## Where the number starts over

Four bytes are enough for fewer than `2 ^ 32` root hashes. With that many more the number is the
same, and then a challenge can be read as root hashes.

## Main definitions

* `SignatureCheck.Binds` — a signature is accepted over one message at most.
* `SignatureCheck.recorded` — a check that knows what has been signed.

## Main results

* `Bytes.ofNatBE_eq_iff` — the lowest bytes of two numbers are the same.
* `Presentation.messageOver_inj` — the bytes that are signed fix root hashes and challenge.
* `Presentation.signature_fixes_roots_and_challenge` — so does a signature, among presentations that
  are accepted.
* `Presentation.messageOver_wraps` — they no longer do with `2 ^ 32` root hashes more.
-/

namespace SelectiveDisclosure

/-! ### The number of root hashes -/

namespace Bytes

theorem ofNat_eq_iff {n m : ℕ} : UInt8.ofNat n = UInt8.ofNat m ↔ n % 256 = m % 256 := by
  rw [← UInt8.toNat_inj, UInt8.toNat_ofNat', UInt8.toNat_ofNat']

/-- The lowest bytes of two numbers are the same exactly if the numbers differ by a multiple of what
the bytes can count. -/
theorem ofNatLE_eq_iff {width n m : ℕ} :
    ofNatLE width n = ofNatLE width m ↔ n % 256 ^ width = m % 256 ^ width := by
  induction width generalizing n m with
  | zero => simp [ofNatLE, Nat.mod_one]
  | succ width ih =>
    rw [ofNatLE, ofNatLE, List.cons.injEq, ofNat_eq_iff, ih, pow_succ', Nat.mod_mul, Nat.mod_mul]
    generalize n / 256 % 256 ^ width = high, m / 256 % 256 ^ width = high'
    omega

theorem ofNatBE_eq_iff {width n m : ℕ} :
    ofNatBE width n = ofNatBE width m ↔ n % 256 ^ width = m % 256 ^ width := by
  rw [ofNatBE, ofNatBE, List.reverse_inj, ofNatLE_eq_iff]

end Bytes

/-! ### Reading what was signed -/

theorem challengeBytes_inj {challenge challenge' : Option String}
    (h : challengeBytes challenge = challengeBytes challenge') : challenge = challenge' := by
  cases challenge <;> cases challenge' <;> simp_all [challengeBytes]
  exact utf8_inj h

namespace Presentation

variable {roots roots' : List Digest} {challenge challenge' : Option String}

theorem length_flatMap_bytes (roots : List Digest) :
    (roots.flatMap (·.bytes)).length = 32 * roots.length := by
  induction roots with
  | nil => rfl
  | cons root rest ih =>
    rw [List.flatMap_cons, List.length_append, ih, root.length_bytes, List.length_cons]
    omega

/-- **The bytes that are signed fix the root hashes and the challenge**, unless there are so many
root hashes that their number does not fit. -/
theorem messageOver_inj (hroots : roots.length < 2 ^ 32) (hroots' : roots'.length < 2 ^ 32)
    (h : messageOver roots challenge = messageOver roots' challenge') :
    roots = roots' ∧ challenge = challenge' := by
  simp only [messageOver, List.append_assoc, List.append_cancel_left_eq] at h
  -- only the number says where the root hashes end, so it has to be compared first
  obtain ⟨hcount, hrest⟩ := List.append_inj h (by simp)
  have hlength : roots.length = roots'.length := by
    have := Bytes.ofNatBE_eq_iff.1 hcount
    omega
  obtain ⟨hbytes, htag⟩ := List.append_inj hrest (by simp only [length_flatMap_bytes, hlength])
  rw [List.flatMap_def, List.flatMap_def] at hbytes
  exact ⟨Digest.flatten_bytes_inj hbytes, challengeBytes_inj htag⟩

end Presentation

/-! ### Using a signature again -/

namespace SignatureCheck

/-- Whether a signature by a key is accepted over one message at most. -/
def Binds (check : SignatureCheck) (s : SignedBy) : Prop :=
  ∀ message message', check.check message s.signature s.keyUri = .ok () →
    check.check message' s.signature s.keyUri = .ok () → message = message'

/-- A check that knows over which message a signature was made. -/
def recorded (message : Bytes) (s : SignedBy) : SignatureCheck :=
  ⟨fun other signature keyUri =>
    if other = message ∧ signature = s.signature ∧ keyUri = s.keyUri then .ok ()
    else .error .invalidSignature⟩

theorem recorded_check_eq_ok_iff {message other : Bytes} {s s' : SignedBy} :
    (recorded message s).check other s'.signature s'.keyUri = .ok () ↔
      other = message ∧ s'.signature = s.signature ∧ s'.keyUri = s.keyUri := by
  simp only [recorded]
  split
  · next heq => exact iff_of_true rfl heq
  · next hne => exact iff_of_false nofun hne

theorem binds_recorded (message : Bytes) (s s' : SignedBy) : (recorded message s).Binds s' := by
  intro first second hfirst hsecond
  rw [(recorded_check_eq_ok_iff.1 hfirst).1, (recorded_check_eq_ok_iff.1 hsecond).1]

end SignatureCheck

namespace Presentation

variable {h : Hasher} {check check' : SignatureCheck} {expected : Option String} {policy : Policy}
  {p : Presentation} {s : SignedBy}

/-- A presentation that is accepted is accepted with any other check that its signature passes. -/
theorem verified_of_check (hs : p.signature = some s)
    (hp : (p.verify h check expected policy).verified = true)
    (hcheck : check'.check p.message s.signature s.keyUri = .ok ()) :
    (p.verify h check' expected policy).verified = true := by
  obtain ⟨hnonempty, hone, hverified, hchallenge, hsignature⟩ := verified_iff.1 hp
  have howner := ((signatureFindings_eq_nil_iff hs).1 hsignature).1
  exact verified_iff.2 ⟨hnonempty, hone, hverified, hchallenge,
    (signatureFindings_eq_nil_iff hs).2 ⟨howner, hcheck⟩⟩

/-- **A signature over a presentation fixes the root hashes and the challenge.** It is over bytes
that can be read in one way only, as long as the number of root hashes fits. So of two presentations
with one signature that are accepted, wherever and under whatever policy, neither shows other root
hashes than the other, nor in another order, and neither answers another challenge. -/
theorem signature_fixes_roots_and_challenge :
    (∀ (roots roots' : List Digest) (challenge challenge' : Option String),
        roots.length < 2 ^ 32 → roots'.length < 2 ^ 32 →
          messageOver roots challenge = messageOver roots' challenge' →
            roots = roots' ∧ challenge = challenge') ∧
      ∀ (check : SignatureCheck) (s : SignedBy), check.Binds s →
        ∀ (h h' : Hasher) (policy policy' : Policy) (expected expected' : Option String)
          (p p' : Presentation), p.signature = some s → p'.signature = some s →
            p.credentials.length < 2 ^ 32 → p'.credentials.length < 2 ^ 32 →
              (p.verify h check expected policy).verified = true →
                (p'.verify h' check expected' policy').verified = true →
                  p.credentials.map (·.root) = p'.credentials.map (·.root) ∧
                    p.challenge = p'.challenge ∧
                      ∀ c c', expected = some c → expected' = some c' → c = c' := by
  constructor
  · intro roots roots' challenge challenge' hroots hroots' heq
    exact messageOver_inj hroots hroots' heq
  · intro check s hbinds h h' policy policy' expected expected' p p' hs hs' hlength hlength' hp hp'
    have hmessage : p.message = p'.message :=
      hbinds _ _ (check_of_verified hs hp) (check_of_verified hs' hp')
    obtain ⟨hroots, hchallenge⟩ :=
      messageOver_inj (by rwa [List.length_map]) (by rwa [List.length_map]) hmessage
    refine ⟨hroots, hchallenge, ?_⟩
    rintro c c' rfl rfl
    have hc : p.challenge = some c := challenge_of_verified hp
    have hc' : p'.challenge = some c' := challenge_of_verified hp'
    exact Option.some.inj (hc.symm.trans (hchallenge.trans hc'))

/-- The signature of the pass is accepted with a copy that says less, for the same root hash and
the same challenge. What is signed for tomorrow is something else. -/
theorem signature_fixes_roots_and_challenge_of_pass :
    ∃ (check : SignatureCheck) (s : SignedBy) (copy : Credential), check.Binds s ∧
      Sample.pass.signature = some s ∧ copy.content.get? "age" = none ∧
      (Sample.pass.verify .blake2b check (some "today") .standard).verified = true ∧
      ((Sample.pass.withCredentials [copy]).verify .blake2b check (some "today")
        .standard).verified = true ∧
      Sample.pass.credentials.map (·.root) = [copy.root] ∧
      messageOver [copy.root] (some "today") ≠ messageOver [copy.root] (some "tomorrow") := by
  obtain ⟨copy, hcopy, -⟩ :=
    Credential.exists_verified_disclose Sample.verified_certificate ⟨none, ["age"]⟩
  obtain ⟨s, hs⟩ : ∃ s, Sample.pass.signature = some s := ⟨_, rfl⟩
  have hbinds := SignatureCheck.binds_recorded Sample.pass.message s s
  have hpass := verified_of_check hs Sample.verified_pass
    (SignatureCheck.recorded_check_eq_ok_iff.2 ⟨rfl, rfl, rfl⟩)
  have hshown := verified_withCredentials hpass (.cons (.inr ⟨_, hcopy⟩) .nil)
  obtain ⟨hfixed, hsigned⟩ := signature_fixes_roots_and_challenge
  have hroots : Sample.pass.credentials.map (·.root) = [copy].map (·.root) :=
    (hsigned _ s hbinds .blake2b .blake2b .standard .standard (some "today") (some "today")
      Sample.pass (Sample.pass.withCredentials [copy]) hs hs (by simp [Sample.pass])
      (by simp [withCredentials]) hpass hshown).1
  refine ⟨_, s, copy, hbinds, hs, ?_, hpass, hshown, hroots, ?_⟩
  · refine Option.eq_none_iff_forall_ne_some.2 fun value hvalue => ?_
    exact absurd (((Credential.shows_of_disclose hcopy).properties "age" value).1 hvalue).2.2
      (by decide)
  · intro heq
    exact absurd (hfixed _ _ _ _ (by simp) (by simp) heq).2 (by decide)

/-! ### Too many root hashes -/

/-- The digest of 32 bytes, each of them one. -/
def ones : Digest := ⟨List.replicate 32 1, by simp⟩

theorem flatMap_bytes_replicate_ones (n : ℕ) :
    (List.replicate n ones).flatMap (·.bytes) = List.replicate (n * 32) 1 := by
  rw [List.flatMap_replicate]
  exact List.flatten_replicate_replicate

theorem utf8_replicate_one (n : ℕ) :
    utf8 (String.ofList (List.replicate n '\x01')) = List.replicate n 1 := by
  have hone : String.utf8EncodeChar '\x01' = List.replicate 1 1 := rfl
  rw [utf8_ofList, List.flatMap_replicate, hone, List.flatten_replicate_replicate, Nat.mul_one]

/-- A challenge whose bytes are those of root hashes with no challenge behind them. -/
theorem challengeBytes_of_ones (n : ℕ) :
    challengeBytes (some (String.ofList (List.replicate n '\x01') ++ "\x00")) =
      List.replicate (n + 1) 1 ++ challengeBytes none := by
  change 1 :: utf8 (_ ++ _) = _
  rw [utf8_append, utf8_replicate_one, List.replicate_succ, List.cons_append]
  rfl

/-- **Their number starts over with `2 ^ 32` root hashes more**, and then a challenge can be read as
root hashes. -/
theorem messageOver_wraps (n : ℕ) :
    ∃ challenge, messageOver (List.replicate (n + 2 ^ 32) ones) none =
      messageOver (List.replicate n ones) (some challenge) := by
  have hcount : Bytes.ofNatBE 4 (n + 2 ^ 32) = Bytes.ofNatBE 4 n :=
    Bytes.ofNatBE_eq_iff.2 (by omega)
  refine ⟨String.ofList (List.replicate (2 ^ 32 * 32 - 1) '\x01') ++ "\x00", ?_⟩
  rw [messageOver, messageOver, List.length_replicate, List.length_replicate, hcount,
    flatMap_bytes_replicate_ones, flatMap_bytes_replicate_ones, challengeBytes_of_ones,
    Nat.sub_add_cancel (by omega), Nat.add_mul, ← List.replicate_append_replicate]
  simp only [List.append_assoc]

end Presentation

end SelectiveDisclosure
