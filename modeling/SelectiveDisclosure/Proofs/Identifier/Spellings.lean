import SelectiveDisclosure.Proofs.Identifier.RoundTrip
import SelectiveDisclosure.Wire.Reader

/-!
# The spellings of a digest

Identifiers are compared by their texts, so it matters how many texts are read as the identifier of
one digest. There are two under each registered kind. All of these kinds take two bytes, and then
the decoder infers from a packed form of 35 bytes that the payload has 32 and the checksum one. So
the text that is issued has a second one beside it, of the packed form without its last byte, which
stands for the same digest and makes a different identifier.

## Main definitions

* `Identifier.shortened` — the second identifier of a digest.
* `Identifier.WasRead` — an identifier was read from a text, a URI or a record.

## Main results

* `Identifier.packed_digest_iff` — the packed forms of a digest under a registered kind.
* `Identifier.digest_spellings` — the texts that are read as the identifier of a digest, and when
  two identifiers that were read are equal.
* `Identifier.shortened_zero_is_read` — a second text for a digest.
-/

namespace SelectiveDisclosure

namespace Kind

/-- Every registered kind takes two bytes. -/
theorem tag_bounds (kind : Kind) : 64 ≤ kind.tag ∧ kind.tag ≤ Codec.maxKind := by
  cases kind <;> decide

theorem ofTag?_eq_some_iff {tag : Nat} {kind : Kind} : ofTag? tag = some kind ↔ tag = kind.tag := by
  constructor
  · intro h
    have hfound := List.find?_some h
    exact (of_decide_eq_true hfound).symm
  · rintro rfl
    exact ofTag?_tag kind

end Kind

namespace Identifier

variable {s : String} {kind : Kind} {id : Identifier} {d : Digest}

/-! ### What was read decodes to its kind -/

theorem decode_eq_ok_iff {options : Codec.Options} {decoded : Codec.Decoded} :
    decode s options = .ok decoded ↔ Codec.decode s options = .ok decoded :=
  mapError_eq_ok_iff

/-- Asking for a kind is decoding and finding it. -/
theorem decode_ofKind_eq_ok_iff {tag : Nat} {decoded : Codec.Decoded} :
    Codec.decode s (.ofKind tag) = .ok decoded ↔
      Codec.decode s .standard = .ok decoded ∧ tag = decoded.kind := by
  rw [Codec.decode_eq_ok_iff, Codec.decode_eq_ok_iff, Codec.allows_ofKind_iff]
  exact and_congr_left fun _ => (and_iff_left (Codec.allows_any _ _)).symm

theorem parseAs_eq_ok_iff :
    parseAs s kind = .ok id ↔
      id = ⟨kind, s⟩ ∧ ∃ payload, Codec.decode s .standard = .ok ⟨kind.tag, payload⟩ := by
  rw [parseAs, bind_eq_ok_iff]
  simp only [decode_eq_ok_iff, decode_ofKind_eq_ok_iff, pure_eq_ok_iff]
  constructor
  · rintro ⟨⟨tag, payload⟩, ⟨hdecode, rfl⟩, rfl⟩
    exact ⟨rfl, payload, hdecode⟩
  · rintro ⟨rfl, payload, hdecode⟩
    exact ⟨⟨kind.tag, payload⟩, ⟨hdecode, rfl⟩, rfl⟩

theorem parse_eq_ok_iff :
    parse s = .ok id ↔
      id.text = s ∧ ∃ payload, Codec.decode s .standard = .ok ⟨id.kind.tag, payload⟩ := by
  rw [parse, bind_eq_ok_iff]
  simp only [decode_eq_ok_iff]
  constructor
  · rintro ⟨⟨tag, payload⟩, hdecode, hkind⟩
    cases hfound : Kind.ofTag? tag with
    | none => simp [hfound] at hkind
    | some kind =>
      obtain rfl := Kind.ofTag?_eq_some_iff.1 hfound
      simp only [hfound, Except.ok.injEq] at hkind
      exact ⟨by rw [← hkind], payload, by rwa [← hkind]⟩
  · rintro ⟨rfl, payload, hdecode⟩
    exact ⟨_, hdecode, by simp⟩

/-- Whether an identifier was read, from whatever it can be read from. -/
inductive WasRead : Identifier → Prop where
  | text {s : String} {id : Identifier} (h : parse s = .ok id) : WasRead id
  | textOfKind {s : String} {kind : Kind} {id : Identifier} (h : parseAs s kind = .ok id) :
    WasRead id
  | uri {s : String} {kind : Kind} {id : Identifier} (h : ofUri s kind = .ok id) : WasRead id
  | tree {o : Origin} {tree : Tree} {id : Identifier} (h : Identifier.read o tree = .ok id) :
    WasRead id

/-- Whatever an identifier was read from, its text decodes to its kind. -/
theorem WasRead.decodes (h : WasRead id) :
    ∃ payload, Codec.decode id.text .standard = .ok ⟨id.kind.tag, payload⟩ := by
  cases h with
  | text h =>
    obtain ⟨rfl, hdecode⟩ := parse_eq_ok_iff.1 h
    exact hdecode
  | textOfKind h =>
    obtain ⟨rfl, hdecode⟩ := parseAs_eq_ok_iff.1 h
    exact hdecode
  | uri h =>
    rw [ofUri] at h
    split at h
    · obtain ⟨rfl, hdecode⟩ := parseAs_eq_ok_iff.1 h
      exact hdecode
    · simp at h
  | tree h =>
    rw [Identifier.read, bind_eq_ok_iff] at h
    obtain ⟨s, -, hparse⟩ := h
    obtain ⟨rfl, hdecode⟩ := parse_eq_ok_iff.1 (mapError_eq_ok_iff.1 hparse)
    exact hdecode

theorem digest_eq_ok_iff {tag : Nat} {payload : Bytes}
    (htext : Codec.decode id.text .standard = .ok ⟨tag, payload⟩) :
    id.digest = .ok d ↔ payload = d.bytes := by
  rw [digest, bind_eq_ok_iff]
  simp only [decode_eq_ok_iff, htext, Except.ok.injEq, exists_eq_left']
  constructor
  · intro hdigest
    cases hbytes : Digest.ofBytes? payload with
    | none => simp [hbytes] at hdigest
    | some found =>
      obtain rfl : found = d := by simpa [hbytes] using hdigest
      exact (Digest.bytes_eq_of_ofBytes? hbytes).symm
  · rintro rfl
    simp

/-! ### Two packed forms of a digest -/

/-- The identifier that a digest has besides its own. -/
def shortened (kind : Kind) (d : Digest) : Identifier :=
  ⟨kind, Base58.encode (Codec.pack kind.tag d.bytes).dropLast⟩

/-- A packed form of a digest has a kind of two bytes and a checksum of two bytes. -/
theorem pack_digest (kind : Kind) (d : Digest) :
    Codec.pack kind.tag d.bytes = Codec.wideKind kind.tag ++ d.bytes ++
      (Codec.checksum (Codec.wideKind kind.tag ++ d.bytes)).take 2 := by
  have hsum : Codec.checksumLength d.bytes.length = 2 := by rw [d.length_bytes]; rfl
  have hkind : Codec.packKind kind.tag = Codec.wideKind kind.tag :=
    if_neg (not_lt.2 kind.tag_bounds.1)
  rw [Codec.pack, hsum, hkind]

theorem length_pack_digest (kind : Kind) (d : Digest) :
    (Codec.pack kind.tag d.bytes).length = 36 := by
  rw [pack_digest, List.length_append, List.length_append, d.length_bytes,
    Codec.length_take_checksum le_rfl]
  rfl

theorem dropLast_pack_digest (kind : Kind) (d : Digest) :
    (Codec.pack kind.tag d.bytes).dropLast = Codec.wideKind kind.tag ++ d.bytes ++
      (Codec.checksum (Codec.wideKind kind.tag ++ d.bytes)).take 1 := by
  have hsum := Codec.length_take_checksum le_rfl (Codec.wideKind kind.tag ++ d.bytes)
  have hne : (Codec.checksum (Codec.wideKind kind.tag ++ d.bytes)).take 2 ≠ [] := by
    intro hnil
    simp [hnil] at hsum
  rw [pack_digest, List.dropLast_append_of_ne_nil hne, List.dropLast_eq_take, hsum, List.take_take]
  rfl

/-- **The packed forms of a digest** under a registered kind are the one that is issued and the same
without its last byte. -/
theorem packed_digest_iff {packed : Bytes} :
    Codec.Packed false ⟨kind.tag, d.bytes⟩ packed ↔
      packed = Codec.pack kind.tag d.bytes ∨ packed = (Codec.pack kind.tag d.bytes).dropLast := by
  obtain ⟨hlow, hhigh⟩ := kind.tag_bounds
  rw [dropLast_pack_digest, pack_digest]
  constructor
  · rintro ⟨head, sum, rfl, hhead, hlayout, hsum⟩
    cases hhead with
    | narrow small _ => exact absurd small (not_lt.2 hlow)
    | wide _ =>
      have hlengths : ∀ l ∈ Codec.layouts, l.1 = 2 → l.2.1 = 32 → l.2.2 = 2 ∨ l.2.2 = 1 := by decide
      have hlength : sum.length = 2 ∨ sum.length = 1 := hlengths _ hlayout rfl d.length_bytes
      rw [hsum rfl]
      rcases hlength with hlength | hlength
      · exact .inl (by rw [hlength])
      · exact .inr (by rw [hlength])
  · have hhead : Codec.Heads (Codec.wideKind kind.tag) kind.tag := .wide hhigh
    have hlength : (Codec.wideKind kind.tag).length = 2 := rfl
    rintro (rfl | rfl)
    · exact Codec.packed_of_heads hhead (by rw [hlength, d.length_bytes]; decide) false
    · exact Codec.packed_of_heads hhead (by rw [hlength, d.length_bytes]; decide) false

theorem decode_digest_iff :
    Codec.decode s .standard = .ok ⟨kind.tag, d.bytes⟩ ↔
      s = (ofDigest kind d).text ∨ s = (shortened kind d).text := by
  have hallows : Codec.Options.standard.Allows kind.tag := Codec.allows_any _ _
  rw [Codec.decode_eq_ok_iff, and_iff_left hallows]
  simp only [Codec.Options.standard, packed_digest_iff]
  constructor
  · rintro ⟨packed, rfl, rfl | rfl⟩
    · exact .inl rfl
    · exact .inr rfl
  · rintro (rfl | rfl)
    · exact ⟨_, rfl, .inl rfl⟩
    · exact ⟨_, rfl, .inr rfl⟩

theorem dropLast_pack_digest_ne (kind : Kind) (d : Digest) :
    (Codec.pack kind.tag d.bytes).dropLast ≠ Codec.pack kind.tag d.bytes := by
  intro h
  have hlength := congrArg List.length h
  rw [List.length_dropLast, length_pack_digest] at hlength
  omega

theorem shortened_ne_ofDigest (kind : Kind) (d : Digest) : shortened kind d ≠ ofDigest kind d := by
  intro h
  exact dropLast_pack_digest_ne kind d (Base58.encode_inj (congrArg text h))

/-! ### Two identifiers of a digest -/

/-- Whether a text is read as the identifier of a digest. -/
def Spells (s : String) (kind : Kind) (d : Digest) : Prop :=
  ∃ id, parseAs s kind = .ok id ∧ id.digest = .ok d

theorem spells_iff_decode :
    Spells s kind d ↔ Codec.decode s .standard = .ok ⟨kind.tag, d.bytes⟩ := by
  constructor
  · rintro ⟨id, hparse, hdigest⟩
    obtain ⟨rfl, payload, hdecode⟩ := parseAs_eq_ok_iff.1 hparse
    rwa [← (digest_eq_ok_iff hdecode).1 hdigest]
  · intro h
    have hdecode : Codec.decode (Identifier.mk kind s).text .standard = .ok ⟨_, d.bytes⟩ := h
    exact ⟨⟨kind, s⟩, parseAs_eq_ok_iff.2 ⟨rfl, _, h⟩, (digest_eq_ok_iff hdecode).2 rfl⟩

theorem spells_encode_iff {packed : Bytes} :
    Spells (Base58.encode packed) kind d ↔
      packed = Codec.pack kind.tag d.bytes ∨ packed = (Codec.pack kind.tag d.bytes).dropLast := by
  rw [spells_iff_decode, decode_digest_iff]
  exact or_congr ⟨Base58.encode_inj, congrArg Base58.encode⟩
    ⟨Base58.encode_inj, congrArg Base58.encode⟩

/-- Of the packed form that is issued, one byte can be left off at the end, but no more. -/
theorem spells_take_iff {n : Nat} :
    Spells (Base58.encode ((Codec.pack kind.tag d.bytes).take n)) kind d ↔ 35 ≤ n := by
  have hlength := length_pack_digest kind d
  rw [spells_encode_iff]
  constructor
  · rintro (h | h)
    all_goals
      have := congrArg List.length h
      simp only [List.length_take, List.length_dropLast, hlength] at this
      omega
  · intro hn
    obtain rfl | hn : n = 35 ∨ 36 ≤ n := by omega
    · exact .inr (by rw [List.dropLast_eq_take, hlength])
    · exact .inl (List.take_of_length_le (by rwa [hlength]))

/-- Nothing can stand behind the packed form that is issued. -/
theorem spells_append_iff {rest : Bytes} :
    Spells (Base58.encode (Codec.pack kind.tag d.bytes ++ rest)) kind d ↔ rest = [] := by
  rw [spells_encode_iff]
  constructor
  · rintro (h | h)
    · exact List.append_right_eq_self.1 h
    · have hlength := congrArg List.length h
      rw [List.length_append, List.length_dropLast, length_pack_digest] at hlength
      omega
  · rintro rfl
    exact .inl (List.append_nil _)

theorem eq_iff_text_eq (id id' : Identifier) (h : id.kind = id'.kind) :
    id = id' ↔ id.text = id'.text := by
  cases id
  cases id'
  simpa using fun _ => h

/-- An identifier that was read has a digest exactly if it is one of the two that this has. -/
theorem WasRead.digest_eq_ok_iff (h : WasRead id) :
    id.digest = .ok d ↔ id = ofDigest id.kind d ∨ id = shortened id.kind d := by
  obtain ⟨payload, hdecode⟩ := h.decodes
  rw [eq_iff_text_eq id (ofDigest id.kind d) rfl, eq_iff_text_eq id (shortened id.kind d) rfl,
    ← decode_digest_iff, Identifier.digest_eq_ok_iff hdecode, hdecode]
  simp

/-- Identifiers that were read, one of them with a digest, are equal exactly if they have one kind
and one digest and are both shortened or both not. -/
theorem WasRead.eq_iff {id' : Identifier} (hid : WasRead id) (hid' : WasRead id')
    (hd : id.digest = .ok d) :
    id = id' ↔ id'.kind = id.kind ∧ id'.digest = .ok d ∧
      (id = shortened id.kind d ↔ id' = shortened id.kind d) := by
  constructor
  · rintro rfl
    exact ⟨rfl, hd, .rfl⟩
  · rintro ⟨hkind, hd', hshort⟩
    have hform := hid.digest_eq_ok_iff.1 hd
    have hform' := hid'.digest_eq_ok_iff.1 hd'
    rw [hkind] at hform'
    by_cases h : id = shortened id.kind d
    · exact h.trans (hshort.1 h).symm
    · exact (hform.resolve_right h).trans (hform'.resolve_right (mt hshort.2 h)).symm

/-- **Every digest has two identifiers** of every registered kind. Besides the text that is issued,
just one other text is read as the identifier of the digest; it spells the packed form without its
last byte. So identifiers that were read can differ although they have one kind and one digest, if
one of them is shortened and the other is not. No more bytes can be left off at the end, and none
can be added. -/
theorem digest_spellings (kind : Kind) (d : Digest) :
    shortened kind d ≠ ofDigest kind d ∧
      (∀ s, Spells s kind d ↔ s = (ofDigest kind d).text ∨ s = (shortened kind d).text) ∧
        (∀ id id', WasRead id → WasRead id' → id.kind = kind → id.digest = .ok d →
          (id = id' ↔ id'.kind = kind ∧ id'.digest = .ok d ∧
            (id = shortened kind d ↔ id' = shortened kind d))) ∧
          (∀ n, Spells (Base58.encode ((Codec.pack kind.tag d.bytes).take n)) kind d ↔ 35 ≤ n) ∧
            ∀ rest, Spells (Base58.encode (Codec.pack kind.tag d.bytes ++ rest)) kind d ↔
              rest = [] := by
  refine ⟨shortened_ne_ofDigest kind d, fun s => ?_, ?_, fun n => spells_take_iff,
    fun rest => spells_append_iff⟩
  · exact spells_iff_decode.trans decode_digest_iff
  · rintro id id' hid hid' rfl hd
    exact hid.eq_iff hid' hd

/-- The two identifiers of the digest of zeros, one read as a text and one as a text of its kind.
They differ in that one is shortened. -/
theorem digest_spellings_of_zero :
    let issued : Identifier := ⟨.credential, "gvh9fuWbxTAjHjHo1D9YEUb6vG5mJkLEck7x9KiacjgoUVdXY"⟩
    let short : Identifier := ⟨.credential, "A3eeJssCzsnhr6xTjeBzpuvVXeQHP9TZYD32csTe524ae3Qg"⟩
    issued.digest = .ok Digest.zero ∧ short.digest = .ok Digest.zero ∧ issued ≠ short ∧
      ¬(issued = shortened .credential Digest.zero ↔
        short = shortened .credential Digest.zero) := by
  intro issued short
  have hparse : parse issued.text = .ok issued := by decide +kernel
  have hparseAs : parseAs short.text .credential = .ok short := by decide +kernel
  have hdigest : issued.digest = .ok Digest.zero := by decide +kernel
  have hdigest' : short.digest = .ok Digest.zero := by decide +kernel
  have hne : issued ≠ short := by decide
  obtain ⟨-, -, hequal, -⟩ := digest_spellings .credential Digest.zero
  have heq_iff := hequal issued short (.text hparse) (.textOfKind hparseAs) rfl hdigest
  exact ⟨hdigest, hdigest', hne, fun hshort => hne (heq_iff.2 ⟨rfl, hdigest', hshort⟩)⟩

/-- A text is read as the identifier of the digest of zeros, though it is not the one that is
issued. -/
theorem shortened_zero_is_read :
    Spells "A3eeJssCzsnhr6xTjeBzpuvVXeQHP9TZYD32csTe524ae3Qg" .credential Digest.zero ∧
      "A3eeJssCzsnhr6xTjeBzpuvVXeQHP9TZYD32csTe524ae3Qg" ≠
        (ofDigest .credential Digest.zero).text := by
  have hdecode : Codec.decode "A3eeJssCzsnhr6xTjeBzpuvVXeQHP9TZYD32csTe524ae3Qg" .standard =
      .ok ⟨Kind.credential.tag, Digest.zero.bytes⟩ := by decide +kernel
  exact ⟨spells_iff_decode.2 hdecode, by decide +kernel⟩

end Identifier

end SelectiveDisclosure
