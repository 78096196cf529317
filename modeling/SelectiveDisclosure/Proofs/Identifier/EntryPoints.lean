import SelectiveDisclosure.Proofs.Identifier.Spellings

/-!
# The ways to an identifier agree

An identifier is made of a digest, or it is read: as a text of any kind, as a text of one kind, from
a URI or from a record. Each of these ways sees to it in its own manner that the text decodes to the
kind. When it is made, the text is encoded under the kind; a text of any kind is looked up by the
number that it decodes to; a text of one kind is decoded with this number asked for; and a URI says
the kind in front. Whatever is done with an identifier later relies on it, however it was come by.

So it does not matter which way is taken. A text that is read as one kind is read as any kind and
has this one. A URI is read back, as the kind that it was written for and as no other, since no two
kinds have beginnings of which one could pass for the other.

## Main definitions

* `Identifier.Obtained` — an identifier was made of a digest or read.

## Main results

* `Identifier.parseAs_eq_ok_iff_parse`, `Identifier.ofUri_eq_ok_iff` — one way in terms of another.
* `Identifier.Obtained.decodes` — the text of an identifier decodes to its kind.
* `Kind.uriStart_apart` — what begins like a URI of one kind does not of another.
* `Identifier.entry_points_agree` — all of the ways agree, and what they give can be relied on.
-/

namespace SelectiveDisclosure

/-- What begins like a URI of one kind does not begin like one of another. -/
theorem Kind.uriStart_apart {kind kind' : Kind} (hne : kind' ≠ kind) (rest : List Char) :
    ¬ kind'.uriStart.toList <+: kind.uriStart.toList ++ rest := by
  have hapart : ∀ k k' : Kind, k' ≠ k → ¬ k'.uriStart.toList <+: k.uriStart.toList := by
    intro k k'
    cases k <;> cases k' <;> decide
  intro hstart
  rcases List.prefix_or_prefix_of_prefix hstart (List.prefix_append _ rest) with h | h
  · exact hapart _ _ hne h
  · exact hapart _ _ hne.symm h

namespace Identifier

variable {s u : String} {kind : Kind} {id : Identifier}

/-! ### One way in terms of another -/

/-- A text is read as one kind exactly if it is read as any and has this one. -/
theorem parseAs_eq_ok_iff_parse : parseAs s kind = .ok id ↔ parse s = .ok id ∧ id.kind = kind := by
  rw [parseAs_eq_ok_iff, parse_eq_ok_iff]
  constructor
  · rintro ⟨rfl, hdecode⟩
    exact ⟨⟨rfl, hdecode⟩, rfl⟩
  · rintro ⟨⟨rfl, hdecode⟩, rfl⟩
    exact ⟨rfl, hdecode⟩

theorem ofUri_append (s : String) (kind : Kind) :
    ofUri (kind.uriStart ++ s) kind = parseAs s kind := by
  have hstart : kind.uriStart.toList.isPrefixOf (kind.uriStart ++ s).toList = true := by
    rw [String.toList_append]
    exact List.isPrefixOf_iff_prefix.2 (List.prefix_append _ _)
  rw [ofUri, if_pos hstart, String.toList_append, ← String.length_toList, List.drop_left,
    String.ofList_toList]

theorem ofUri_eq_error (h : ¬ kind.uriStart.toList <+: u.toList) :
    ofUri u kind =
      .error (.invalidIdentifier (u ++ ": missing " ++ kind.uriStart ++ " prefix")) := by
  rw [ofUri, if_neg (mt List.isPrefixOf_iff_prefix.1 h)]

/-- A URI is read as one kind exactly if it is the beginning for this kind with a text of this kind
behind it. -/
theorem ofUri_eq_ok_iff :
    ofUri u kind = .ok id ↔ ∃ s, u = kind.uriStart ++ s ∧ parseAs s kind = .ok id := by
  constructor
  · intro h
    by_cases hstart : kind.uriStart.toList <+: u.toList
    · obtain ⟨rest, hrest⟩ := hstart
      obtain rfl : u = kind.uriStart ++ String.ofList rest := by
        rw [← String.toList_inj, ← hrest, String.toList_append, String.toList_ofList]
      exact ⟨_, rfl, by rwa [ofUri_append] at h⟩
    · rw [ofUri_eq_error hstart] at h
      exact nomatch h
  · rintro ⟨s, rfl, h⟩
    rwa [ofUri_append]

/-! ### Identifiers, however they were come by -/

/-- Whether an identifier was made of a digest or read. -/
inductive Obtained : Identifier → Prop where
  | made (kind : Kind) (d : Digest) : Obtained (ofDigest kind d)
  | read {id : Identifier} (h : WasRead id) : Obtained id

theorem decode_ofDigest (kind : Kind) (d : Digest) :
    Codec.decode (ofDigest kind d).text .standard = .ok ⟨kind.tag, d.bytes⟩ :=
  decode_digest_iff.2 (.inl rfl)

/-- **The text of an identifier decodes to its kind**, however the identifier was come by. -/
theorem Obtained.decodes (h : Obtained id) :
    ∃ payload, Codec.decode id.text .standard = .ok ⟨id.kind.tag, payload⟩ := by
  cases h with
  | made kind d => exact ⟨d.bytes, decode_ofDigest kind d⟩
  | read h => exact h.decodes

/-- An identifier is read from its own URI. -/
theorem Obtained.ofUri_uri (h : Obtained id) : ofUri id.uri id.kind = .ok id := by
  rw [uri, ofUri_append]
  exact parseAs_eq_ok_iff.2 ⟨rfl, h.decodes⟩

/-- It is not read from it as another kind. -/
theorem ofUri_uri_of_ne (id : Identifier) (hne : kind ≠ id.kind) :
    ofUri id.uri kind =
      .error (.invalidIdentifier (id.uri ++ ": missing " ++ kind.uriStart ++ " prefix")) := by
  refine ofUri_eq_error ?_
  rw [uri, String.toList_append]
  exact Kind.uriStart_apart hne _

/-- An identifier has no digest exactly if its payload has not the length of one. -/
theorem exists_digest_error_iff {payload : Bytes} {tag : Nat}
    (hdecode : Codec.decode id.text .standard = .ok ⟨tag, payload⟩) :
    (∃ fault, id.digest = .error fault) ↔ payload.length ≠ 32 := by
  cases hdigest : id.digest with
  | error fault =>
    refine iff_of_true ⟨fault, rfl⟩ fun hlength => ?_
    have hfound := (digest_eq_ok_iff (d := ⟨payload, hlength⟩) hdecode).2 rfl
    exact nomatch hdigest.symm.trans hfound
  | ok d =>
    obtain rfl := (digest_eq_ok_iff hdecode).1 hdigest
    exact iff_of_false nofun (not_not.2 d.length_bytes)

/-- **All ways to an identifier agree.** A text is read as one kind exactly if it is read as any
and has this one, and a URI exactly if it begins for its kind and goes on with a text of it. The
text of an identifier decodes to its kind, however it was come by. From its URI the identifier is
read again, and nothing is as another kind. It has a digest unless the payload is of another length.
The text of a digest is what the encoder gives, which never refuses it, and has this digest. -/
theorem entry_points_agree :
    (∀ s kind id, parseAs s kind = .ok id ↔ parse s = .ok id ∧ id.kind = kind) ∧
      (∀ u kind id, ofUri u kind = .ok id ↔
        ∃ s, u = kind.uriStart ++ s ∧ parseAs s kind = .ok id) ∧
      (∀ id, Obtained id → ∃ payload, decode id.text .standard = .ok ⟨id.kind.tag, payload⟩ ∧
        ofUri id.uri id.kind = .ok id ∧
          (∀ kind, kind ≠ id.kind → ofUri id.uri kind =
            .error (.invalidIdentifier (id.uri ++ ": missing " ++ kind.uriStart ++ " prefix"))) ∧
            ((∃ fault, id.digest = .error fault) ↔ payload.length ≠ 32)) ∧
      ∀ kind d, Codec.encode d.bytes kind.tag = .ok (ofDigest kind d).text ∧
        (ofDigest kind d).digest = .ok d := by
  refine ⟨fun s kind id => parseAs_eq_ok_iff_parse, fun u kind id => ofUri_eq_ok_iff,
    fun id hid => ?_, fun kind d => ⟨encode_digest kind d, ?_⟩⟩
  · obtain ⟨payload, hdecode⟩ := hid.decodes
    exact ⟨payload, decode_eq_ok_iff.2 hdecode, hid.ofUri_uri, fun kind => ofUri_uri_of_ne id,
      exists_digest_error_iff hdecode⟩
  · exact (digest_eq_ok_iff (decode_ofDigest kind d)).2 rfl

/-- An identifier with a payload of one byte. From its URI it is read again, but no identifier of a
schema is, and it has no digest. -/
theorem entry_points_agree_on_short :
    let id : Identifier := ⟨.credential, "3KQKzA"⟩
    Obtained id ∧ ofUri "credential:cord:3KQKzA" .credential = .ok id ∧
      parseAs "3KQKzA" .credential = .ok id ∧
        ofUri "credential:cord:3KQKzA" .schema = .error (.invalidIdentifier
          "credential:cord:3KQKzA: missing schema:cord: prefix") ∧
          ∃ fault, id.digest = .error fault := by
  intro id
  have hparse : parse "3KQKzA" = .ok id := by decide +kernel
  have hid : Obtained id := .read (.text hparse)
  have hshort : decode id.text .standard = .ok ⟨10346, [9]⟩ := by decide +kernel
  obtain ⟨hparseAs, -, hagree, -⟩ := entry_points_agree
  obtain ⟨payload, hdecode, hread, hothers, hdigest⟩ := hagree id hid
  obtain rfl : payload = [9] :=
    congrArg Codec.Decoded.payload (Except.ok.inj (hdecode.symm.trans hshort))
  exact ⟨hid, hread, (hparseAs _ _ _).2 ⟨hparse, rfl⟩, hothers .schema (by decide),
    hdigest.2 (by decide)⟩

end Identifier

end SelectiveDisclosure
