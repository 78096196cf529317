import SelectiveDisclosure.Identifier.Basic
import SelectiveDisclosure.Proofs.Identifier.Layout

/-!
# Encoding and decoding

What is encoded decodes to the same kind and payload, whatever the checksum is, and to nothing else.
So the text determines both, and identifiers of different digests or kinds have different texts.

The other way round there is an exception. The encoder looks at the kind, but the decoder only at
the first byte, and a reserved kind can hide in two bytes of which the first is not reserved. Such a
text decodes, to a kind that may never be used and that cannot be encoded again.

## Main results

* `Codec.encode_round_trip` — the encoder's domain, and that the decoder inverts the encoder on it.
* `Codec.exists_decode_eq_ok_iff` — what decodes is what can be encoded, and some payloads of
  reserved kinds.
* `Codec.reserved_kind_decodes` — a text that decodes to a reserved kind.
-/

namespace SelectiveDisclosure

namespace Codec

variable {kind : Nat} {payload : Bytes} {d : Decoded} {s : String}

/-! ### Encoded payloads -/

theorem not_mem_reservedKinds_iff : kind ∉ reservedKinds ↔ kind ≠ 46 ∧ kind ≠ 47 := by
  simp [reservedKinds]

/-- The encoder writes a form of the kind. -/
theorem heads_packKind {n : Nat} (h : Carries kind n) : Heads (packKind kind) kind := by
  obtain ⟨hkind, h46, h47, -⟩ := h
  by_cases hsmall : kind < 64
  · rw [packKind, if_pos hsmall]
    exact .narrow hsmall (not_mem_reservedKinds_iff.2 ⟨h46, h47⟩)
  · rw [packKind, if_neg hsmall]
    exact .wide hkind

/-- The lengths that the encoder lets through are in the table. -/
theorem mem_layouts_of_carries {n : Nat} (h : Carries kind n) :
    ((packKind kind).length, n, checksumLength n) ∈ layouts := by
  obtain ⟨-, -, -, hn⟩ := h
  rw [length_packKind]
  split at hn
  · next hkind =>
    rw [if_pos hkind]
    revert n
    decide
  · next hkind =>
    rw [if_neg hkind]
    revert n
    decide

/-- Lengths from the table and a form of the kind are all that a packed form takes. -/
theorem packed_of_heads {head : Bytes} {n : Nat} (hhead : Heads head kind)
    (hlayout : (head.length, payload.length, n) ∈ layouts) (skipChecksum : Bool) :
    Packed skipChecksum ⟨kind, payload⟩
      (head ++ payload ++ (checksum (head ++ payload)).take n) := by
  obtain ⟨-, -, -, -, hn⟩ := lengths_of_mem_layouts hlayout
  have hsum := length_take_checksum hn (head ++ payload)
  exact ⟨head, _, rfl, hhead, by rwa [hsum], fun _ => by rw [hsum]⟩

theorem packed_pack (h : Carries kind payload.length) (skipChecksum : Bool) :
    Packed skipChecksum ⟨kind, payload⟩ (pack kind payload) :=
  packed_of_heads (heads_packKind h) (mem_layouts_of_carries h) skipChecksum

/-- Asking for a kind makes a difference only after everything else has been checked. -/
theorem decode_expecting {skipChecksum : Bool} (h : decode s ⟨none, skipChecksum⟩ = .ok d)
    (kind : Nat) :
    decode s ⟨some kind, skipChecksum⟩ =
      if d.kind ≠ kind then .error (.unexpected kind d.kind) else .ok d := by
  rw [decode] at h ⊢
  cases hdecode : Base58.decode s with
  | error problem => simp [hdecode] at h
  | ok packed =>
    simp only [hdecode, unpack, ite_error_eq_ok_iff] at h ⊢
    obtain ⟨hlength, hopen, hcut, hsum, hd⟩ := h
    rw [if_neg hlength, if_neg hopen, if_neg hcut, if_neg hsum, ← Except.ok.inj hd]

theorem decode_encode (h : encode payload kind = .ok s) (skipChecksum : Bool) :
    decode s ⟨none, skipChecksum⟩ = .ok ⟨kind, payload⟩ := by
  obtain ⟨hcarries, rfl⟩ := encode_eq_ok_iff.1 h
  exact decode_eq_ok_iff.2 ⟨⟨_, rfl, packed_pack hcarries skipChecksum⟩, allows_any _ _⟩

/-- A text encodes just one payload under just one kind. -/
theorem encode_inj {payload' : Bytes} {kind' : Nat} (h : encode payload kind = .ok s)
    (h' : encode payload' kind' = .ok s) : payload = payload' ∧ kind = kind' := by
  have heq := Except.ok.inj ((decode_encode h false).symm.trans (decode_encode h' false))
  exact ⟨congrArg Decoded.payload heq, congrArg Decoded.kind heq⟩

end Codec

theorem Identifier.ofDigest_text_inj {kind kind' : Kind} {d d' : Digest}
    (h : (ofDigest kind d).text = (ofDigest kind' d').text) : kind = kind' ∧ d = d' := by
  have hencode := encode_digest kind d
  rw [h] at hencode
  obtain ⟨hbytes, htag⟩ := Codec.encode_inj hencode (encode_digest kind' d')
  exact ⟨Kind.tag_inj htag, Digest.ext_bytes hbytes⟩

namespace Codec

/-- **Encoding and decoding.** A payload can be encoded exactly if the kind carries payloads of its
length. The text then decodes to the kind and the payload, whether any kind is accepted or only this
one, and is refused if another one is asked for. It is the text of no other kind and payload. In
particular, no two identifiers of digests have the same text. -/
theorem encode_round_trip :
    (∀ (payload : Bytes) (kind : Nat),
      (∃ s, encode payload kind = .ok s) ↔ Carries kind payload.length) ∧
      (∀ (payload : Bytes) (kind : Nat) (s : String), encode payload kind = .ok s →
        decode s .standard = .ok ⟨kind, payload⟩ ∧
          decode s (.ofKind kind) = .ok ⟨kind, payload⟩ ∧
            (∀ other, other ≠ kind →
              decode s (.ofKind other) = .error (.unexpected other kind)) ∧
              ∀ payload' kind', encode payload' kind' = .ok s → payload' = payload ∧ kind' = kind) ∧
        ∀ (kind kind' : Kind) (d d' : Digest), kind ≠ kind' ∨ d ≠ d' →
          (Identifier.ofDigest kind d).text ≠ (Identifier.ofDigest kind' d').text := by
  refine ⟨fun payload kind => ?_, fun payload kind s h => ?_, fun kind kind' d d' hne htext => ?_⟩
  · simp [encode_eq_ok_iff]
  · have hdecode := decode_encode h false
    refine ⟨hdecode, ?_, fun other hother => ?_, fun payload' kind' h' => encode_inj h' h⟩
    · exact (decode_expecting hdecode kind).trans (if_neg (by simp))
    · exact (decode_expecting hdecode other).trans (if_pos hother.symm)
  · obtain ⟨rfl, rfl⟩ := Identifier.ofDigest_text_inj htext
    simp at hne

/-- Two zero bytes under the kind zero: three of the four bytes of the packed form are zero. -/
theorem round_trip_of_zeros :
    encode [0, 0] 0 = .ok "1113U" ∧ decode "1113U" .standard = .ok ⟨0, [0, 0]⟩ ∧
      decode "1113U" (.ofKind 0) = .ok ⟨0, [0, 0]⟩ ∧
        decode "1113U" (.ofKind 1) = .error (.unexpected 1 0) ∧
          (Identifier.ofDigest .credential Digest.zero).text ≠
            (Identifier.ofDigest .schema Digest.zero).text := by
  have hencode : encode [0, 0] 0 = .ok "1113U" := by decide +kernel
  obtain ⟨-, hround, hdigests⟩ := encode_round_trip
  obtain ⟨hany, hsame, hother, -⟩ := hround _ _ _ hencode
  exact ⟨hencode, hany, hsame, hother 1 (by decide), hdigests _ _ _ _ (.inl (by decide))⟩

/-! ### Decoded payloads -/

/-- What lengths a form of a kind goes with: those of the encoder, and with two bytes the same
ones for a reserved kind. -/
theorem exists_heads_iff {n : Nat} :
    (∃ head s, Heads head kind ∧ (head.length, n, s) ∈ layouts) ↔
      Carries kind n ∨ kind ∈ reservedKinds ∧ n ∈ [1, 32, 33] := by
  constructor
  · rintro ⟨head, s, hhead, hlayout⟩
    have hlengths : ∀ l ∈ layouts, (l.1 = 1 → l.2.1 ∈ payloadLengths) ∧
        (l.1 = 2 → l.2.1 ∈ [1, 32, 33]) := by decide
    cases hhead with
    | narrow small free =>
      have hn : n ∈ payloadLengths := (hlengths _ hlayout).1 rfl
      obtain ⟨h46, h47⟩ := not_mem_reservedKinds_iff.1 free
      exact .inl ⟨by omega, h46, h47, by rwa [if_pos small]⟩
    | wide small =>
      have hn : n ∈ [1, 32, 33] := (hlengths _ hlayout).2 rfl
      by_cases hkind : kind ∈ reservedKinds
      · exact .inr ⟨hkind, hn⟩
      · have hmore : ∀ n ∈ [1, 32, 33], n ∈ [1, 2, 4, 8, 32, 33] := by decide
        obtain ⟨h46, h47⟩ := not_mem_reservedKinds_iff.1 hkind
        refine .inl ⟨small, h46, h47, ?_⟩
        split
        · exact hmore n hn
        · exact hn
  · rintro (h | ⟨hkind, hn⟩)
    · exact ⟨_, _, heads_packKind h, mem_layouts_of_carries h⟩
    · have hlayout : ∀ n ∈ [1, 32, 33], (2, n, checksumLength n) ∈ layouts := by decide
      have hsmall : ∀ kind ∈ reservedKinds, kind ≤ maxKind := by decide
      exact ⟨wideKind kind, _, .wide (hsmall kind hkind), hlayout n hn⟩

/-- **What decodes can be encoded, reserved kinds apart.** A kind and a payload are decoded from
some text exactly if they can be encoded, or if the kind is reserved and the length is one that goes
with two bytes of kind. This holds whether or not the checksum is skipped. -/
theorem exists_decode_eq_ok_iff (options : Options) (d : Decoded) :
    (∃ s, decode s options = .ok d) ↔
      ((∃ s, encode d.payload d.kind = .ok s) ∨
        d.kind ∈ reservedKinds ∧ d.payload.length ∈ [1, 32, 33]) ∧ options.Allows d.kind := by
  have hencode : (∃ s, encode d.payload d.kind = .ok s) ↔ Carries d.kind d.payload.length := by
    simp [encode_eq_ok_iff]
  rw [hencode, ← exists_heads_iff]
  constructor
  · rintro ⟨s, h⟩
    obtain ⟨⟨packed, -, head, sum, -, hhead, hlayout, -⟩, hkind⟩ := decode_eq_ok_iff.1 h
    exact ⟨⟨head, sum.length, hhead, hlayout⟩, hkind⟩
  · rintro ⟨⟨head, n, hhead, hlayout⟩, hkind⟩
    exact ⟨_, decode_eq_ok_iff.2 ⟨⟨_, rfl, packed_of_heads hhead hlayout _⟩, hkind⟩⟩

/-- The two bytes 75 and 128 hold the reserved kind 46. -/
theorem reserved_kind_decodes :
    decode "2vw4ss" .standard = .ok ⟨46, [1]⟩ ∧ encode [1] 46 = .error (.kind 46) := by
  decide +kernel

end Codec

end SelectiveDisclosure
