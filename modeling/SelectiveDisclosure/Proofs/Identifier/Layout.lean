import SelectiveDisclosure.Identifier.Codec
import SelectiveDisclosure.Proofs.Base58

/-!
# How the decoder divides a packed form

Nothing in a packed form says where the kind ends and where the checksum begins. The decoder has the
first byte and the total length, and for each of these there is at most one division that it will
take. So what it accepts can be said without following it: bytes that are one of two forms of a
kind, a payload and a checksum, whose lengths stand together in a table.

The table has a row that the encoder does not use: with a kind of two bytes, a payload of 32 may
have a checksum of one byte in place of two. And the form with two bytes holds every kind, among
them those that the encoder writes with one byte and those that are reserved.

## Main definitions

* `Codec.wideKind`, `Codec.Heads` — the forms of a kind.
* `Codec.layouts` — how many bytes kind, payload and checksum have together.
* `Codec.finish` — what the decoder does when it knows where to divide.
* `Codec.Packed` — bytes are a packed form of a kind and a payload.
* `Codec.Options.Allows` — a kind is one that is asked for.

## Main results

* `Codec.unpack_eq_ok_iff` — which bytes the decoder accepts, and what it makes of them.
* `Codec.decode_eq_ok_iff` — the same for texts.
-/

namespace SelectiveDisclosure.Codec

/-! ### The forms of a kind -/

/-- The form of a kind with two bytes. -/
def wideKind (kind : Nat) : Bytes :=
  [UInt8.ofNat (64 + kind / 4 % 64), UInt8.ofNat (kind / 256 + kind % 4 * 64)]

/-- Whether bytes are one of the forms of a kind. -/
inductive Heads : Bytes → Nat → Prop where
  /-- One byte, which is the kind. -/
  | narrow {kind : Nat} (small : kind < 64) (free : kind ∉ reservedKinds) :
    Heads [UInt8.ofNat kind] kind
  /-- Two bytes. They hold any kind, a reserved one too. -/
  | wide {kind : Nat} (small : kind ≤ maxKind) : Heads (wideKind kind) kind

/-- Whether no kind begins with a byte. -/
def Stops (b : UInt8) : Prop := 128 ≤ b.toNat ∨ b.toNat ∈ reservedKinds

instance (b : UInt8) : Decidable (Stops b) := inferInstanceAs (Decidable (_ ∨ _))

theorem kindLength_eq_one_or_two (b : UInt8) : kindLength b = 1 ∨ kindLength b = 2 := by
  rw [kindLength]
  split <;> simp

/-! The second byte has the lowest two bits of the kind in front of the highest six; the first byte
has the six between them. -/

theorem kind_of_bits {high mid low : Nat} (hhigh : high < 64) (hmid : mid < 64) :
    (64 + mid) % 64 * 4 + (high + low * 64) / 64 + (high + low * 64) % 64 * 256 =
      mid * 4 + low + high * 256 := by
  omega

theorem bits_of_kind (high : Nat) {mid low : Nat} (hmid : mid < 64) (hlow : low < 4) :
    (mid * 4 + low + high * 256) / 256 = high ∧ (mid * 4 + low + high * 256) / 4 % 64 = mid ∧
      (mid * 4 + low + high * 256) % 4 = low := by
  refine ⟨?_, ?_, ?_⟩ <;> omega

theorem bits_sum (kind : Nat) : kind / 4 % 64 * 4 + kind % 4 + kind / 256 * 256 = kind := by
  have hhigh : kind / 256 = kind / 4 / 64 := (Nat.div_div_eq_div_mul kind 4 64).symm
  omega

/-- Two bytes that can begin a packed form together are the form of the kind that they hold. -/
theorem wideKind_of_bytes {b0 : UInt8} (b1 : UInt8) (hsmall : b0.toNat < 128)
    (hbit : b0.toNat / 64 % 2 = 1) :
    wideKind (b0.toNat % 64 * 4 + b1.toNat / 64 + b1.toNat % 64 * 256) = [b0, b1] := by
  have hb1 := b1.toNat_lt
  have hmid : b0.toNat % 64 < 64 := by omega
  have hlow : b1.toNat / 64 < 4 := by omega
  have hfirst : 64 + b0.toNat % 64 = b0.toNat := by omega
  have hsecond : b1.toNat % 64 + b1.toNat / 64 * 64 = b1.toNat := by omega
  obtain ⟨hhigh, hmid, hlow⟩ := bits_of_kind (b1.toNat % 64) hmid hlow
  rw [wideKind, hhigh, hmid, hlow, hfirst, hsecond, UInt8.ofNat_toNat, UInt8.ofNat_toNat]

/-- What the decoder reads of a packed form that begins with a form of a kind. -/
theorem Heads.reads {head : Bytes} {kind : Nat} (h : Heads head kind) (rest : Bytes) :
    ¬ Stops ((head ++ rest).getD 0 0) ∧ kindLength ((head ++ rest).getD 0 0) = head.length ∧
      kindOf (head ++ rest) = kind := by
  cases h with
  | narrow small free =>
    have hbyte : (UInt8.ofNat kind).toNat = kind :=
      UInt8.toNat_ofNat_of_lt' (show kind < 256 by omega)
    have hlength : kindLength (UInt8.ofNat kind) = 1 := by
      rw [kindLength, hbyte, if_neg (by omega)]
    refine ⟨?_, hlength, ?_⟩
    · rw [Stops, List.cons_append, List.getD_cons_zero, hbyte]
      exact not_or.2 ⟨by omega, free⟩
    · simp [kindOf, hlength, hbyte]
  | wide small =>
    rw [maxKind] at small
    have hfirst : (UInt8.ofNat (64 + kind / 4 % 64)).toNat = 64 + kind / 4 % 64 :=
      UInt8.toNat_ofNat_of_lt' (show _ < 256 by omega)
    have hsecond : (UInt8.ofNat (kind / 256 + kind % 4 * 64)).toNat = kind / 256 + kind % 4 * 64 :=
      UInt8.toNat_ofNat_of_lt' (show _ < 256 by omega)
    have hlength : kindLength (UInt8.ofNat (64 + kind / 4 % 64)) = 2 := by
      rw [kindLength, hfirst, if_pos (by omega)]
    refine ⟨?_, hlength, ?_⟩
    · simp only [Stops, wideKind, List.cons_append, List.getD_cons_zero, hfirst, reservedKinds,
        List.mem_cons, List.not_mem_nil, or_false]
      omega
    · simp only [kindOf, wideKind, List.cons_append, List.getD_cons_zero, List.getD_cons_succ,
        hlength, hfirst, hsecond]
      rw [if_neg (by decide), kind_of_bits (by omega) (by omega), bits_sum]

/-- What the decoder takes for the kind is a form of the kind that it reads. -/
theorem heads_take {packed : Bytes} (hopen : ¬ Stops (packed.getD 0 0))
    (hlong : kindLength (packed.getD 0 0) ≤ packed.length) :
    Heads (packed.take (kindLength (packed.getD 0 0))) (kindOf packed) := by
  cases packed with
  | nil => exact absurd hlong (by decide)
  | cons b0 rest =>
    rw [List.getD_cons_zero] at hopen hlong ⊢
    obtain ⟨hsmall, hfree⟩ := not_or.1 hopen
    by_cases hbit : b0.toNat / 64 % 2 = 1
    · have hlength : kindLength b0 = 2 := if_pos hbit
      rw [hlength] at hlong ⊢
      cases rest with
      | nil => exact absurd hlong (by simp)
      | cons b1 rest =>
        have hb1 := b1.toNat_lt
        have hkind : kindOf (b0 :: b1 :: rest) =
            b0.toNat % 64 * 4 + b1.toNat / 64 + b1.toNat % 64 * 256 := by
          simp [kindOf, hlength]
        have hsmall' : b0.toNat < 128 := by omega
        rw [hkind, List.take_succ_cons, List.take_succ_cons, List.take_zero,
          ← wideKind_of_bytes b1 hsmall' hbit]
        exact .wide (by rw [maxKind]; omega)
    · have hlength : kindLength b0 = 1 := if_neg hbit
      have hkind : kindOf (b0 :: rest) = b0.toNat := by simp [kindOf, hlength]
      rw [hlength, List.take_succ_cons, List.take_zero]
      have hnarrow : Heads [UInt8.ofNat b0.toNat] b0.toNat := .narrow (by omega) hfree
      rwa [UInt8.ofNat_toNat, ← hkind] at hnarrow

/-! ### The lengths -/

/-- How many bytes kind, payload and checksum have together. -/
def layouts : List (Nat × Nat × Nat) :=
  [(1, 1, 1), (1, 2, 1), (1, 4, 1), (1, 8, 1), (1, 32, 2), (1, 33, 2),
    (2, 1, 1), (2, 32, 1), (2, 32, 2), (2, 33, 2)]

/-- The length of the checksum that the decoder settles for. -/
def sumLength (length kindLength : Nat) : Nat :=
  if length = 34 + kindLength ∨ length = 35 + kindLength then 2 else 1

/-- Whatever the decoder settles for is in the table. -/
theorem mem_layouts_of_lengths : ∀ k ∈ [1, 2], ∀ n ∈ packedLengths,
    ¬(n - sumLength n k ≤ k ∨ n - sumLength n k - k ∉ payloadLengths) →
      (k, n - sumLength n k - k, sumLength n k) ∈ layouts := by
  decide

/-- Everything in the table is what the decoder settles for. -/
theorem lengths_of_mem_layouts {k n s : ℕ} (h : (k, n, s) ∈ layouts) :
    k + n + s ∈ packedLengths ∧ sumLength (k + n + s) k = s ∧ 0 < n ∧ n ∈ payloadLengths ∧
      s ≤ 2 := by
  have hall : ∀ l ∈ layouts, l.1 + l.2.1 + l.2.2 ∈ packedLengths ∧
      sumLength (l.1 + l.2.1 + l.2.2) l.1 = l.2.2 ∧ 0 < l.2.1 ∧ l.2.1 ∈ payloadLengths ∧
        l.2.2 ≤ 2 := by decide
  exact hall _ h

/-- The last checks of the decoder, when it is known how many bytes kind, body and checksum have. -/
def finish (options : Options) (packed : Bytes) (k body sum : Nat) :
    Except DecodeProblem Decoded :=
  if options.skipChecksum = false ∧ packed.drop body ≠ (checksum (packed.take body)).take sum then
    .error .checksum
  else
    match options.expected with
    | some expected =>
      if kindOf packed ≠ expected then .error (.unexpected expected (kindOf packed))
      else .ok ⟨kindOf packed, (packed.take body).drop k⟩
    | none => .ok ⟨kindOf packed, (packed.take body).drop k⟩

/-- The checks of the decoder, one after the other. -/
theorem unpack_eq {options : Options} {packed : Bytes} {k sum body : Nat}
    (hk : kindLength (packed.getD 0 0) = k) (hsum : sumLength packed.length k = sum)
    (hbody : packed.length - sum = body) :
    unpack options packed =
      if packed.length ∉ packedLengths then .error (.length packed.length)
      else if Stops (packed.getD 0 0) then .error (.kindByte (packed.getD 0 0))
      else if body ≤ k ∨ body - k ∉ payloadLengths then .error .payload
      else finish options packed k body sum := by
  subst hk hsum hbody
  rfl

/-! ### Packed forms -/

/-- Whether bytes are a packed form of a kind and a payload, with the right checksum unless it is
skipped. -/
def Packed (skipChecksum : Bool) (d : Decoded) (packed : Bytes) : Prop :=
  ∃ head sum, packed = head ++ d.payload ++ sum ∧ Heads head d.kind ∧
    (head.length, d.payload.length, sum.length) ∈ layouts ∧
      (skipChecksum = false → sum = (checksum (head ++ d.payload)).take sum.length)

/-- Whether a kind is one that is asked for. -/
def Options.Allows (options : Options) (kind : Nat) : Prop :=
  options.expected = none ∨ options.expected = some kind

theorem allows_any (skipChecksum : Bool) (kind : Nat) : Options.Allows ⟨none, skipChecksum⟩ kind :=
  .inl rfl

theorem allows_ofKind_iff {asked kind : Nat} :
    (Options.ofKind asked).Allows kind ↔ asked = kind := by
  simp [Options.Allows, Options.ofKind]

/-- The last of the decoder's checks, which is on the kind. -/
theorem check_expected_eq_ok_iff (options : Options) (found d : Decoded) :
    (match options.expected with
      | some expected =>
        if found.kind ≠ expected then
          (.error (.unexpected expected found.kind) : Except DecodeProblem Decoded)
        else .ok found
      | none => .ok found) = .ok d ↔ options.Allows found.kind ∧ d = found := by
  rw [Options.Allows]
  cases options.expected with
  | none => simp [eq_comm]
  | some expected =>
    rw [ite_error_eq_ok_iff, Decidable.not_not]
    simp [eq_comm]

/-- What has to be passed for a packed form to be accepted. -/
theorem unpack_eq_ok_iff_checks {options : Options} {packed : Bytes} {d : Decoded} {k sum body : ℕ}
    (hk : kindLength (packed.getD 0 0) = k) (hsum : sumLength packed.length k = sum)
    (hbody : packed.length - sum = body) :
    unpack options packed = .ok d ↔
      packed.length ∈ packedLengths ∧ ¬ Stops (packed.getD 0 0) ∧
        ¬(body ≤ k ∨ body - k ∉ payloadLengths) ∧
          (options.skipChecksum = false →
            packed.drop body = (checksum (packed.take body)).take sum) ∧
              options.Allows (kindOf packed) ∧
                d = ⟨kindOf packed, (packed.take body).drop k⟩ := by
  rw [unpack_eq hk hsum hbody, finish, ite_error_eq_ok_iff, ite_error_eq_ok_iff,
    ite_error_eq_ok_iff, ite_error_eq_ok_iff, Decidable.not_not, not_and, Decidable.not_not,
    ← check_expected_eq_ok_iff options ⟨kindOf packed, _⟩ d]

/-- The decoder cuts parts whose lengths are in the table where they end. -/
theorem cut_of_mem_layouts {head payload sum : Bytes}
    (h : (head.length, payload.length, sum.length) ∈ layouts) :
    (head ++ payload ++ sum).length ∈ packedLengths ∧
      sumLength (head ++ payload ++ sum).length head.length = sum.length ∧
        (head ++ payload ++ sum).length - sum.length = (head ++ payload).length ∧
          ¬((head ++ payload).length ≤ head.length ∨
            (head ++ payload).length - head.length ∉ payloadLengths) := by
  obtain ⟨htotal, hsum, hpos, hpayload, -⟩ := lengths_of_mem_layouts h
  rw [List.length_append, List.length_append, Nat.add_sub_cancel, Nat.add_sub_cancel_left]
  exact ⟨htotal, hsum, rfl, not_or.2 ⟨by omega, not_not.2 hpayload⟩⟩

/-- A checksum is as long as is asked of it. -/
theorem length_take_checksum {n : Nat} (hn : n ≤ 2) (body : Bytes) :
    ((checksum body).take n).length = n := by
  rw [List.length_take, checksum, Hash.Blake2b.length_hash le_rfl]
  omega

/-- **What is accepted is a packed form** of the kind that is asked for, if one is. -/
theorem unpack_eq_ok_iff {options : Options} {packed : Bytes} {d : Decoded} :
    unpack options packed = .ok d ↔
      Packed options.skipChecksum d packed ∧ options.Allows d.kind := by
  constructor
  · intro h
    obtain ⟨hlength, hopen, hcut, hsum, hkind, rfl⟩ := (unpack_eq_ok_iff_checks rfl rfl rfl).1 h
    set k := kindLength (packed.getD 0 0)
    set s := sumLength packed.length k
    set body := packed.length - s
    have hlayout : (k, body - k, s) ∈ layouts :=
      mem_layouts_of_lengths k (by simpa using kindLength_eq_one_or_two _) _ hlength hcut
    have hkbody : k < body := not_le.1 (not_or.1 hcut).1
    have hlengths : (packed.take k).length = k ∧ ((packed.take body).drop k).length = body - k ∧
        (packed.drop body).length = s := by
      simp only [List.length_take, List.length_drop]
      omega
    have htake : (packed.take body).take k = packed.take k := by
      rw [List.take_take, min_eq_left hkbody.le]
    refine ⟨⟨packed.take k, packed.drop body, ?_, heads_take hopen (by omega), ?_, ?_⟩, hkind⟩
    · rw [← htake, List.take_append_drop, List.take_append_drop]
    · rwa [hlengths.1, hlengths.2.1, hlengths.2.2]
    · rwa [hlengths.2.2, ← htake, List.take_append_drop]
  · rintro ⟨⟨head, sum, rfl, hhead, hlayout, hsum⟩, hkind⟩
    obtain ⟨hlength, hsumLength, hbody, hcut⟩ := cut_of_mem_layouts hlayout
    obtain ⟨hopen, hk, hkindOf⟩ := hhead.reads (d.payload ++ sum)
    rw [← List.append_assoc] at hopen hk hkindOf
    refine (unpack_eq_ok_iff_checks hk hsumLength hbody).2 ⟨hlength, hopen, hcut, ?_, ?_, ?_⟩
    · rwa [List.drop_left, List.take_left]
    · rwa [hkindOf]
    · rw [hkindOf, List.take_left, List.drop_left]

/-- **What is read is the text of a packed form** of the kind that is asked for, if one is. -/
theorem decode_eq_ok_iff {s : String} {options : Options} {d : Decoded} :
    decode s options = .ok d ↔
      (∃ packed, s = Base58.encode packed ∧ Packed options.skipChecksum d packed) ∧
        options.Allows d.kind := by
  have hstep : decode s options = .ok d ↔
      ∃ packed, Base58.decode s = .ok packed ∧ unpack options packed = .ok d := by
    rw [decode]
    cases Base58.decode s <;> simp
  simp only [hstep, Base58.decode_eq_ok_iff, unpack_eq_ok_iff, ← and_assoc, exists_and_right]

end SelectiveDisclosure.Codec
