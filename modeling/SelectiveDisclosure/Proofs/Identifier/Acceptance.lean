import Mathlib.Data.Nat.PSub
import SelectiveDisclosure.Proofs.Identifier.Spellings

/-!
# What the decoder accepts

The decoder takes whatever text it is given, and what it takes apart may be of any length. It has to
know that the bytes that it looks at are there. They are, because the length is checked before
anything else, and the shortest of the lengths that pass has room for a kind of two bytes.

What it accepts can be said byte for byte. It is a kind, a payload and the beginning of their
checksum; the kind is a byte below 64 or has the two bytes that any kind can have, and how much of
the checksum there has to be goes by the length of the payload. With two bytes of kind and a payload
of 32 either one byte or two will do.

So to an encoded payload belong just the bytes of the checksum that stand behind it. If others stand
there, as many of them, the decoder divides the bytes as before and finds a wrong checksum.

## Main definitions

* `Codec.unpackGuarded`, `Codec.decodeGuarded` — the decoder with every access to bytes guarded.
* `Codec.withSum` — a head and a payload with the beginning of their checksum behind them.
* `Codec.twoBytes` — the form of a kind with two bytes, bit by bit.
* `Codec.Sealed` — which bytes are accepted, and as what kind and payload.

## Main results

* `Codec.unpackGuarded_eq` — the guards never apply.
* `Codec.packed_iff_sealed` — the packed forms with a right checksum, byte for byte.
* `Identifier.decode_accepts_exactly` — what is accepted, and that all else is no identifier.
* `Identifier.corrupted_checksum` — with another checksum nothing that was encoded is accepted.
-/

namespace SelectiveDisclosure

namespace Codec

variable {packed head payload sum : Bytes} {kind : Nat}

/-! ### Access to bytes -/

/-- The bytes from one place up to another, if both places are there and in this order. -/
def slice? (bs : Bytes) (start stop : Nat) : Option Bytes :=
  if start ≤ stop ∧ stop ≤ bs.length then some ((bs.take stop).drop start) else none

theorem slice?_eq {bs : Bytes} {start stop : Nat} (horder : start ≤ stop)
    (hstop : stop ≤ bs.length) : slice? bs start stop = some ((bs.take stop).drop start) :=
  if_pos ⟨horder, hstop⟩

/-- The kind in front of a packed form that begins with `b0`, if all of its bytes are there. -/
def kindGuarded (packed : Bytes) (b0 : UInt8) : Option Nat :=
  if kindLength b0 = 1 then some b0.toNat
  else packed[1]?.map fun b1 => b0.toNat % 64 * 4 + b1.toNat / 64 + b1.toNat % 64 * 256

/-- Whether the bytes behind the body are the beginning of its checksum, if they all are there. -/
def checksumGuarded (packed : Bytes) (body sum : Nat) : Option Bool := do
  let found ← slice? packed body packed.length
  let hash := checksum (← slice? packed 0 body)
  return found = (← slice? hash 0 sum)

/-- The last checks of the decoder, with every access to bytes guarded. -/
def finishGuarded (options : Options) (packed : Bytes) (kind k body sum : Nat) :
    Option (Except DecodeProblem Decoded) := do
  let right ← if options.skipChecksum then some true else checksumGuarded packed body sum
  if !right then some (.error .checksum)
  else
    match options.expected with
    | some expected =>
      if kind ≠ expected then some (.error (.unexpected expected kind))
      else do return .ok ⟨kind, ← slice? packed k body⟩
    | none => do return .ok ⟨kind, ← slice? packed k body⟩

/-- Takes a packed form apart like `unpack`, but looks at bytes only where there are any and takes
away from a length only what it has. Else there is no outcome. -/
def unpackGuarded (options : Options) (packed : Bytes) : Option (Except DecodeProblem Decoded) :=
  if packed.length ∉ packedLengths then some (.error (.length packed.length))
  else do
    let b0 ← packed[0]?
    if Stops b0 then some (.error (.kindByte b0))
    else do
      let k := kindLength b0
      let kind ← kindGuarded packed b0
      let sum := sumLength packed.length k
      let body ← packed.length.psub sum
      if body ≤ k then some (.error .payload)
      else do
        let length ← body.psub k
        if length ∉ payloadLengths then some (.error .payload)
        else finishGuarded options packed kind k body sum

/-- Decodes a text like `decode`, with the access to its bytes guarded. -/
def decodeGuarded (s : String) (options : Options) : Option (Except DecodeProblem Decoded) :=
  match Base58.decode s with
  | .error problem => some (.error (.base58 problem))
  | .ok packed => unpackGuarded options packed

theorem sumLength_le_two (length kindLength : Nat) : sumLength length kindLength ≤ 2 := by
  rw [sumLength]
  split <;> omega

theorem kindGuarded_eq (b0 b1 : UInt8) (rest : Bytes) :
    kindGuarded (b0 :: b1 :: rest) b0 = some (kindOf (b0 :: b1 :: rest)) := by
  rw [kindGuarded, kindOf]
  split <;> simp_all

theorem checksumGuarded_eq {body n : Nat} (hbody : body ≤ packed.length) (hn : n ≤ 2) :
    checksumGuarded packed body n =
      some (decide (packed.drop body = (checksum (packed.take body)).take n)) := by
  have hhash : n ≤ (checksum (packed.take body)).length := by
    rw [checksum, Hash.Blake2b.length_hash le_rfl]
    omega
  rw [checksumGuarded, slice?_eq hbody le_rfl, slice?_eq (Nat.zero_le _) hbody, List.take_length,
    List.drop_zero]
  simp only [bind, Option.bind, slice?_eq (Nat.zero_le n) hhash, List.drop_zero]
  rfl

theorem finishGuarded_eq (options : Options) {k body n : Nat} (hk : k ≤ body)
    (hbody : body ≤ packed.length) (hn : n ≤ 2) :
    finishGuarded options packed (kindOf packed) k body n =
      some (finish options packed k body n) := by
  rw [finishGuarded, finish, checksumGuarded_eq hbody hn, slice?_eq hk hbody]
  obtain ⟨expected, skipChecksum⟩ := options
  by_cases hsum : packed.drop body = (checksum (packed.take body)).take n
  · cases skipChecksum <;> cases expected <;> simp [hsum, apply_ite some]
  · cases skipChecksum <;> cases expected <;> simp [hsum, apply_ite some]

/-- **The guards never apply.** -/
theorem unpackGuarded_eq (options : Options) (packed : Bytes) :
    unpackGuarded options packed = some (unpack options packed) := by
  rw [unpackGuarded, unpack_eq rfl rfl rfl]
  by_cases hlength : packed.length ∈ packedLengths
  · have hmany : ∀ n ∈ packedLengths, 2 < n := by decide
    -- a kind of two bytes has room in the shortest of the lengths
    obtain ⟨b0, b1, rest, rfl⟩ : ∃ b0 b1 rest, packed = b0 :: b1 :: rest := by
      match packed, hmany _ hlength with
      | b0 :: b1 :: rest, _ => exact ⟨b0, b1, rest, rfl⟩
    have hn := sumLength_le_two (b0 :: b1 :: rest).length (kindLength b0)
    have hsum := Nat.psub_eq_sub (hn.trans (hmany _ hlength).le)
    have hbody := Nat.sub_le (b0 :: b1 :: rest).length
      (sumLength (b0 :: b1 :: rest).length (kindLength b0))
    rw [if_neg (not_not.2 hlength), if_neg (not_not.2 hlength)]
    simp only [List.getElem?_cons_zero, List.getD_cons_zero, kindGuarded_eq, hsum,
      Option.bind_eq_bind, Option.bind_some]
    generalize (b0 :: b1 :: rest).length - sumLength (b0 :: b1 :: rest).length (kindLength b0) =
      body at hbody ⊢
    by_cases hstop : Stops b0
    · rw [if_pos hstop, if_pos hstop]
    rw [if_neg hstop, if_neg hstop]
    by_cases hshort : body ≤ kindLength b0
    · rw [if_pos hshort, if_pos (Or.inl hshort)]
    rw [if_neg hshort, Nat.psub_eq_sub (Nat.le_of_not_le hshort), Option.bind_some,
      finishGuarded_eq options (Nat.le_of_not_le hshort) hbody hn]
    by_cases hpayload : body - kindLength b0 ∈ payloadLengths
    · rw [if_neg (not_not.2 hpayload), if_neg (not_or.2 ⟨hshort, not_not.2 hpayload⟩)]
    · rw [if_pos hpayload, if_pos (Or.inr hpayload)]
  · rw [if_pos hlength, if_pos hlength]

theorem decodeGuarded_eq (s : String) (options : Options) :
    decodeGuarded s options = some (decode s options) := by
  rw [decodeGuarded, decode]
  cases Base58.decode s with
  | error problem => rfl
  | ok packed => exact unpackGuarded_eq options packed

/-! ### Packed forms, byte for byte -/

/-- A head and a payload, and behind them the first `n` bytes of their checksum. -/
def withSum (head payload : Bytes) (n : Nat) : Bytes :=
  head ++ payload ++ (checksum (head ++ payload)).take n

/-- The form of a kind with two bytes, bit by bit. The second highest bit of the first byte is
set. -/
def twoBytes (kind : Nat) : Bytes :=
  [UInt8.ofNat (0x40 ||| (kind >>> 2 &&& 0x3F)), UInt8.ofNat (kind >>> 8 ||| (kind &&& 3) <<< 6)]

theorem wideKind_eq_twoBytes (hkind : kind ≤ maxKind) : wideKind kind = twoBytes kind := by
  rw [maxKind] at hkind
  have hmid : kind >>> 2 &&& 0x3F = kind / 4 % 64 := by
    rw [Nat.shiftRight_eq_div_pow]
    exact Nat.and_two_pow_sub_one_eq_mod _ 6
  have hlow : (kind &&& 3) <<< 6 = 2 ^ 6 * (kind % 4) := by
    rw [Nat.shiftLeft_eq, Nat.mul_comm, Nat.and_two_pow_sub_one_eq_mod kind 2]
  have hfirst : 0x40 ||| (kind >>> 2 &&& 0x3F) = 64 + kind / 4 % 64 := by
    rw [hmid]
    exact (Nat.two_pow_add_eq_or_of_lt (i := 6) (by omega) 1).symm
  have hsecond : kind >>> 8 ||| (kind &&& 3) <<< 6 = kind / 256 + kind % 4 * 64 := by
    rw [hlow, Nat.or_comm, Nat.shiftRight_eq_div_pow,
      ← Nat.two_pow_add_eq_or_of_lt (i := 6) (by omega)]
    omega
  rw [wideKind, twoBytes, hfirst, hsecond]

/-- Whether bytes are a kind and a payload under their checksum. -/
inductive Sealed (kind : Nat) (payload : Bytes) : Bytes → Prop where
  /-- With the kind in one byte, a payload of any length goes with a checksum of just one length. -/
  | oneByte (small : kind < 64) (free : kind ≠ 46 ∧ kind ≠ 47)
    (fits : payload.length ∈ [1, 2, 4, 8, 32, 33]) :
    Sealed kind payload (withSum [UInt8.ofNat kind] payload
      (if payload.length = 32 ∨ payload.length = 33 then 2 else 1))
  /-- With the kind in two bytes there are fewer lengths, but a payload of 32 goes with checksums of
  two lengths. -/
  | twoBytes {n : Nat} (small : kind ≤ 16383)
    (fits : (payload.length, n) ∈ [(1, 1), (32, 1), (32, 2), (33, 2)]) :
    Sealed kind payload (withSum (twoBytes kind) payload n)

/-- **The packed forms with a right checksum**, byte for byte. -/
theorem packed_iff_sealed : Packed false ⟨kind, payload⟩ packed ↔ Sealed kind payload packed := by
  constructor
  · rintro ⟨head, sum, rfl, hhead, hlayout, hsum⟩
    rw [hsum rfl]
    have hlengths : ∀ l ∈ layouts,
        (l.1 = 1 → l.2.1 ∈ [1, 2, 4, 8, 32, 33] ∧
          l.2.2 = if l.2.1 = 32 ∨ l.2.1 = 33 then 2 else 1) ∧
        (l.1 = 2 → l.2 ∈ [(1, 1), (32, 1), (32, 2), (33, 2)]) := by decide
    obtain ⟨hone, htwo⟩ := hlengths _ hlayout
    cases hhead with
    | narrow small free =>
      obtain ⟨hfits, hn⟩ := hone rfl
      simp only at hn
      rw [hn]
      exact .oneByte small (not_mem_reservedKinds_iff.1 free) hfits
    | wide small =>
      rw [wideKind_eq_twoBytes small]
      exact .twoBytes small (htwo rfl)
  · rintro (⟨small, free, hfits⟩ | ⟨small, hfits⟩)
    · have hlayout : ∀ n ∈ [1, 2, 4, 8, 32, 33],
          (1, n, if n = 32 ∨ n = 33 then 2 else 1) ∈ layouts := by decide
      have hhead := Heads.narrow small (not_mem_reservedKinds_iff.2 free)
      exact packed_of_heads hhead (hlayout _ hfits) false
    · have hlayout : ∀ l ∈ [(1, 1), (32, 1), (32, 2), (33, 2)], (2, l) ∈ layouts := by decide
      rw [← wideKind_eq_twoBytes small]
      exact packed_of_heads (.wide small) (hlayout _ hfits) false

/-! ### Other checksums -/

/-- Where the checksum is wrong the bytes are divided as if it were right, and it is reported,
whatever kind is asked for. -/
theorem unpack_of_wrong_sum (hhead : Heads head kind)
    (hlayout : (head.length, payload.length, sum.length) ∈ layouts)
    (hwrong : sum ≠ (checksum (head ++ payload)).take sum.length) (expected : Option Nat) :
    unpack ⟨expected, false⟩ (head ++ payload ++ sum) = .error .checksum := by
  obtain ⟨hlength, hsum, hbody, hcut⟩ := cut_of_mem_layouts hlayout
  obtain ⟨hopen, hk, -⟩ := hhead.reads (payload ++ sum)
  rw [← List.append_assoc] at hopen hk
  rw [unpack_eq hk hsum hbody, if_neg (not_not.2 hlength), if_neg hopen, if_neg hcut, finish,
    List.drop_left, List.take_left, if_pos ⟨rfl, hwrong⟩]

/-! What the encoder packs has the checksum at its end. -/

theorem length_pack_sub (kind : Nat) (payload : Bytes) :
    (pack kind payload).length - checksumLength payload.length =
      (packKind kind ++ payload).length := by
  have hn : checksumLength payload.length ≤ 2 := by
    rw [checksumLength]
    split <;> omega
  rw [pack, List.length_append, length_take_checksum hn, Nat.add_sub_cancel]

theorem take_pack (kind : Nat) (payload : Bytes) :
    (pack kind payload).take ((pack kind payload).length - checksumLength payload.length) =
      packKind kind ++ payload := by
  rw [length_pack_sub, pack, List.take_left]

theorem drop_pack (kind : Nat) (payload : Bytes) :
    (pack kind payload).drop ((pack kind payload).length - checksumLength payload.length) =
      (checksum (packKind kind ++ payload)).take (checksumLength payload.length) := by
  rw [length_pack_sub, pack, List.drop_left]

/-- An encoded payload with another checksum is refused. -/
theorem decode_of_wrong_sum (hcarries : Carries kind payload.length)
    (hlength : sum.length = checksumLength payload.length)
    (hwrong : sum ≠
      (checksum (packKind kind ++ payload)).take (checksumLength payload.length))
    (expected : Option Nat) :
    decode (Base58.encode (packKind kind ++ payload ++ sum)) ⟨expected, false⟩ =
      .error .checksum := by
  have hlayout := mem_layouts_of_carries hcarries
  rw [← hlength] at hlayout hwrong
  rw [decode, Base58.decode_eq_ok_iff.2 rfl]
  exact unpack_of_wrong_sum (heads_packKind hcarries) hlayout hwrong expected

/-- It is read if the checksum is skipped, whatever this is. -/
theorem decode_skipping (hcarries : Carries kind payload.length)
    (hlength : sum.length = checksumLength payload.length) {expected : Option Nat}
    (hallows : Options.Allows ⟨expected, true⟩ kind) :
    decode (Base58.encode (packKind kind ++ payload ++ sum)) ⟨expected, true⟩ =
      .ok ⟨kind, payload⟩ := by
  have hlayout := mem_layouts_of_carries hcarries
  rw [← hlength] at hlayout
  exact decode_eq_ok_iff.2
    ⟨⟨_, rfl, packKind kind, sum, rfl, heads_packKind hcarries, hlayout, nofun⟩, hallows⟩

end Codec

namespace Identifier

open Codec

variable {s : String} {kind : Nat} {payload : Bytes}

/-- The texts of sealed packed forms are read, and no others. -/
theorem decode_standard_eq_ok_iff :
    decode s .standard = .ok ⟨kind, payload⟩ ↔
      ∃ packed, Sealed kind payload packed ∧ s = Base58.encode packed := by
  have hallows : Options.standard.Allows kind := allows_any _ _
  rw [decode_eq_ok_iff, Codec.decode_eq_ok_iff, and_iff_left hallows]
  exact exists_congr fun packed => by rw [← packed_iff_sealed, and_comm]; rfl

theorem decode_of_problem {options : Options} {problem : DecodeProblem}
    (h : Codec.decode s options = .error problem) :
    decode s options = .error (.invalidIdentifier (problem.message s)) := by
  rw [decode, h]
  rfl

/-- **What the decoder accepts.** It always finds the bytes that it looks at. It reads a text as a
kind and a payload exactly if the text spells them under their checksum, and every other text it
refuses as no identifier. -/
theorem decode_accepts_exactly (s : String) :
    Codec.decodeGuarded s .standard = some (Codec.decode s .standard) ∧
      (∀ kind payload, decode s .standard = .ok ⟨kind, payload⟩ ↔
        ∃ packed, Sealed kind payload packed ∧ s = Base58.encode packed) ∧
      ((¬ ∃ kind payload packed, Sealed kind payload packed ∧ s = Base58.encode packed) ↔
        ∃ problem : DecodeProblem,
          decode s .standard = .error (.invalidIdentifier (problem.message s))) := by
  refine ⟨decodeGuarded_eq s .standard, fun kind payload => decode_standard_eq_ok_iff, ?_⟩
  simp only [← decode_standard_eq_ok_iff]
  cases hdecode : Codec.decode s .standard with
  | error problem =>
    have hfails := decode_of_problem hdecode
    exact iff_of_true (by simp [hfails]) ⟨problem, hfails⟩
  | ok d =>
    have hreads : decode s .standard = .ok ⟨d.kind, d.payload⟩ := decode_eq_ok_iff.2 hdecode
    exact iff_of_false (not_not.2 ⟨d.kind, d.payload, hreads⟩) (by simp [hreads])

/-- The kind 7 in two bytes, where the encoder would write one. -/
example : decode (Base58.encode (withSum (twoBytes 7) [1] 1)) .standard = .ok ⟨7, [1]⟩ := by
  decide +kernel

/-- **With another checksum nothing that was encoded is accepted.** Whatever bytes take the place of
the checksum, as many of them but not the same, the text is refused because of its checksum, whether
one kind is asked for or any. If the checksum is skipped, the kind and the payload are read. -/
theorem corrupted_checksum (hencode : encode payload kind = .ok s) :
    ∃ packed, Base58.decode s = .ok packed ∧
      let front := packed.length - checksumLength payload.length
      ∀ sum : Bytes, sum.length = checksumLength payload.length → sum ≠ packed.drop front →
        let text := Base58.encode (packed.take front ++ sum)
        (∀ expected, decode text ⟨expected, false⟩ =
            .error (.invalidIdentifier (text ++ ": checksum mismatch"))) ∧
          decode text ⟨none, true⟩ = .ok ⟨kind, payload⟩ ∧
            decode text ⟨some kind, true⟩ = .ok ⟨kind, payload⟩ := by
  obtain ⟨hcarries, rfl⟩ := encode_eq_ok_iff.1 hencode
  refine ⟨pack kind payload, Base58.decode_eq_ok_iff.2 rfl, fun sum hlength hwrong => ?_⟩
  rw [drop_pack] at hwrong
  rw [take_pack]
  refine ⟨fun expected => ?_, ?_, ?_⟩
  · exact decode_of_problem (decode_of_wrong_sum hcarries hlength hwrong expected)
  · exact decode_eq_ok_iff.2 (decode_skipping hcarries hlength (.inl rfl))
  · exact decode_eq_ok_iff.2 (decode_skipping hcarries hlength (.inr rfl))

/-- Two zero bytes under the kind zero, with a zero for the checksum too. -/
theorem corrupted_checksum_of_zeros :
    encode [0, 0] 0 = .ok "1113U" ∧
      decode "1111" .standard = .error (.invalidIdentifier "1111: checksum mismatch") ∧
        decode "1111" (.ofKind 0) = .error (.invalidIdentifier "1111: checksum mismatch") ∧
          decode "1111" ⟨none, true⟩ = .ok ⟨0, [0, 0]⟩ := by
  have hencode : encode [0, 0] 0 = .ok "1113U" := by decide +kernel
  have hpacked : Base58.decode "1113U" = .ok [0, 0, 0, 143] := by decide +kernel
  obtain ⟨packed, hdecode, hcorrupted⟩ := corrupted_checksum hencode
  obtain rfl : packed = [0, 0, 0, 143] := Except.ok.inj (hdecode.symm.trans hpacked)
  obtain ⟨hfails, hskips, -⟩ := hcorrupted [0] (by decide) (by decide)
  exact ⟨hencode, hfails none, hfails (some 0), hskips⟩

end Identifier

end SelectiveDisclosure
