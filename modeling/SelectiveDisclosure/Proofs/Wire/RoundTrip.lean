import SelectiveDisclosure.Proofs.Wire.Readers
import SelectiveDisclosure.Wire.Reader
import SelectiveDisclosure.Wire.Writer

/-!
# Records are read back

Contents, credentials and presentations are read from their texts as they were written, with the
same optional fields, properties, hashes, nonces and evidence in the same order, exactly if the text
nests no deeper than a text may.

A credential nests its evidence. The induction is on the credential, for all amounts of room at
once, since evidence is read two levels further in. With room for less than two levels nothing of a
credential is read, so how its evidence would be read makes no difference there.

## Main results

* `Content.reads_toJson`, `Credential.reads_toJson`, `Presentation.reads_toJson` — the records, from
  their trees.
* `Content.ofText_wire`, `Credential.ofText_wire`, `Presentation.ofText_wire` — the records, from
  their texts.
* `records_read_back` — all three, where there is room.
-/

namespace SelectiveDisclosure

variable {o inside : Origin}

/-! ### Texts in records -/

theorem Digest.read_text (d : Digest) : Digest.read d.text = .ok d := by
  rw [Digest.read, Digest.text, Hex.unmarked_marked, Hex.decode_encode]
  simp

theorem Digest.ofMarked_text (d : Digest) : Digest.ofMarked d.text = .ok d := by
  have marked : ['0', 'x'].isPrefixOf d.text.toList = true := by
    rw [Digest.text, Hex.toList_marked]
    rfl
  rw [Digest.ofMarked, if_pos marked, Digest.ofHex, Digest.read_text]
  rfl

theorem Digest.reads_toJson (d : Digest) : o.Reads Digest.readTree d.toJson d :=
  (Origin.reads_string d.text).bind_ok (Digest.ofMarked_text d)

theorem Signature.ofHex_text (s : Signature) : Signature.ofHex s.text = .ok s := by
  rw [Signature.ofHex, Signature.text, Hex.unmarked_marked, Hex.decode_encode]
  simp [s.length_bytes]

theorem Signature.reads_text (s : Signature) : o.Reads Signature.read (.string s.text) s :=
  (Origin.reads_string s.text).bind_ok (by rw [Signature.ofHex_text]; rfl)

theorem Digest.reads_listToJson (ds : List Digest) :
    o.Reads (Origin.list Digest.readTree) (Digest.listToJson ds) ds :=
  Origin.reads_list fun _ _ d _ => Digest.reads_toJson d

theorem NonceMap.reads_toJson (nonces : NonceMap) : o.Reads NonceMap.read nonces.toJson nonces := by
  have mapped : o.Reads NonceMap.read nonces.toJson (OrderedMap.ofList nonces.entries) := by
    refine Origin.reads_map fun inside _ e _ => ?_
    rw [Digest.ofMarked_text]
    change (inside.string (Tree.ofJson (.string e.2)) >>= fun nonce => pure (e.1, nonce)) = _
    exact (Origin.reads_string e.2).bind_ok rfl
  rwa [OrderedMap.ofList_entries] at mapped

theorem Value.reads_map (properties : OrderedMap String Value) :
    o.Reads Value.readMap (.object (properties.entries.map fun e => (e.1, e.2.json)))
      properties := by
  have mapped : o.Reads Value.readMap (.object (properties.entries.map fun e => (e.1, e.2.json)))
      (OrderedMap.ofList properties.entries) := by
    refine Origin.reads_map fun inside _ e _ => ?_
    have value : Value.ofJson e.2.json = e.2 := Value.ext_json e.2.sorted.sorted_eq
    refine (Origin.reads_json e.2.sorted).bind_ok ?_
    rw [value]
    rfl
  rwa [OrderedMap.ofList_entries] at mapped

/-! ### Contents -/

namespace Content

theorem fills_draft (c : Content) :
    Content.shape.Fills inside ⟨none, none, none, none⟩
      ([("schemaUri", .string c.schema), ("issuerUri", .string c.issuer)] ++
        Json.memberIf "holderUri" c.holder .string ++
        [("contents", .object (c.properties.entries.map fun e => (e.1, e.2.json)))])
      ⟨some c.schema, some c.issuer, c.holder.map some, some c.properties⟩ := by
  obtain ⟨schema, issuer, holder, properties⟩ := c
  refine .cons _ rfl rfl ((Origin.reads_string schema).bind_ok rfl) ?_
  refine .cons _ rfl rfl ((Origin.reads_string issuer).bind_ok rfl) ?_
  cases holder with
  | none => exact .cons _ rfl rfl ((Value.reads_map properties).bind_ok rfl) (.nil _)
  | some holder =>
    have present : inside.Reads (Origin.optional Origin.string) (.string holder) (some holder) :=
      Origin.reads_optional nofun (Origin.reads_string holder)
    refine .cons _ rfl rfl (present.bind_ok rfl) ?_
    exact .cons _ rfl rfl ((Value.reads_map properties).bind_ok rfl) (.nil _)

/-- **A content is read from its tree.** -/
theorem reads_toJson (c : Content) : o.Reads Content.read c.toJson c := by
  have drafted := Shape.Fills.reads rfl fun inside (_ : o.Inside inside) => c.fills_draft
  refine drafted.bind_ok ?_
  obtain ⟨schema, issuer, holder, properties⟩ := c
  cases holder <;> rfl

end Content

/-! ### Credentials -/

namespace Credential

theorem toJsons_eq_map (cs : List Credential) : toJsons cs = cs.map toJson := by
  induction cs with
  | nil => rfl
  | cons c rest ih => rw [toJsons, ih, List.map_cons]

/-- A credential is read from its tree by whatever reads its evidence. -/
theorem readWith_toJson {evidence : Origin → Tree → Except Misread (List Credential)}
    (c : Credential) (h : ∀ inside, o.Inside inside →
      inside.Reads evidence (.array (toJsons c.evidence)) c.evidence) :
    o.Reads (readWith evidence) c.toJson c := by
  obtain ⟨content, hashes, nonces, pieces, root, identifier⟩ := c
  have drafted : o.Reads ((Credential.shape evidence).read ⟨none, none, none, none, none, none⟩)
      (toJson ⟨content, hashes, nonces, pieces, root, identifier⟩)
      ⟨some content, some hashes, some nonces, some pieces, some root, some identifier⟩ := by
    refine Shape.Fills.reads rfl fun inside hinside => ?_
    refine .cons _ rfl rfl (content.reads_toJson.bind_ok rfl) ?_
    refine .cons _ rfl rfl ((Digest.reads_listToJson hashes).bind_ok rfl) ?_
    refine .cons _ rfl rfl ((NonceMap.reads_toJson nonces).bind_ok rfl) ?_
    refine .cons _ rfl rfl ((h inside hinside).bind_ok rfl) ?_
    refine .cons _ rfl rfl ((Digest.reads_toJson root).bind_ok rfl) ?_
    exact .cons _ rfl rfl ((Origin.reads_string identifier).bind_ok rfl) (.nil _)
  exact drafted.bind_ok rfl

/-- Without room for an array nothing is read from one. -/
theorem reads_array_without_room {α : Type} {reader : Origin → Tree → Except Misread α}
    {items : List Json} {as : List α} (h : o.room = 0) :
    o.Reads (Origin.list reader) (.array items) as := by
  obtain ⟨room, text⟩ := o
  cases h
  rfl

mutual

/-- **A credential is read from its tree**, with whatever room. -/
theorem readWithin_toJson (text : Bool) : (c : Credential) → (room : Nat) →
    Origin.Reads ⟨room, text⟩ (fun o => readWithin text o.room) c.toJson c
  | ⟨content, hashes, nonces, evidence, root, identifier⟩, 0 =>
    readWith_toJson ⟨content, hashes, nonces, evidence, root, identifier⟩ nofun
  | ⟨content, hashes, nonces, evidence, root, identifier⟩, 1 => by
    refine readWith_toJson ⟨content, hashes, nonces, evidence, root, identifier⟩ ?_
    rintro inside ⟨⟩
    exact reads_array_without_room rfl
  | ⟨content, hashes, nonces, evidence, root, identifier⟩, room + 2 => by
    refine readWith_toJson ⟨content, hashes, nonces, evidence, root, identifier⟩ ?_
    rintro inside ⟨⟩
    rw [toJsons_eq_map]
    refine Origin.reads_list ?_
    rintro inside ⟨⟩ e he
    exact readWithin_toJson_of_mem text evidence room e he

theorem readWithin_toJson_of_mem (text : Bool) : (cs : List Credential) → (room : Nat) →
    ∀ c ∈ cs, Origin.Reads ⟨room, text⟩ (fun o => readWithin text o.room) c.toJson c
  | [], _, _, h => nomatch h
  | c :: rest, room, e, h => by
    rcases List.mem_cons.1 h with heq | h
    · rw [heq]
      exact readWithin_toJson text c room
    · exact readWithin_toJson_of_mem text rest room e h

end

theorem reads_toJson (c : Credential) : o.Reads Credential.read c.toJson c :=
  readWithin_toJson o.text c o.room

end Credential

/-! ### Presentations -/

theorem SignedBy.reads_toJson (s : SignedBy) : o.Reads SignedBy.read s.toJson s := by
  have drafted : o.Reads (SignedBy.shape.read ⟨none, none⟩) s.toJson
      ⟨some s.keyUri, some s.signature⟩ := by
    refine Shape.Fills.reads rfl fun inside _ => ?_
    refine .cons _ rfl rfl ((Origin.reads_string s.keyUri).bind_ok rfl) ?_
    exact .cons _ rfl rfl ((Signature.reads_text s.signature).bind_ok rfl) (.nil _)
  exact drafted.bind_ok rfl

namespace Presentation

theorem reads_credentials (cs : List Credential) :
    o.Reads (Origin.list Credential.read) (.array (Credential.toJsons cs)) cs := by
  rw [Credential.toJsons_eq_map]
  exact Origin.reads_list fun _ _ c _ => c.reads_toJson

/-- A challenge at the end of a presentation, if there is one. -/
theorem fills_challenge (cs : List Credential) (signature : Option (Option SignedBy))
    (challenge : Option String) :
    Presentation.shape.Fills inside ⟨some cs, signature, none⟩
      (Json.memberIf "challenge" challenge .string) ⟨some cs, signature, challenge.map some⟩ := by
  cases challenge with
  | none => exact .nil _
  | some challenge =>
    have present : inside.Reads (Origin.optional Origin.string) (.string challenge)
        (some challenge) :=
      Origin.reads_optional nofun (Origin.reads_string challenge)
    exact .cons _ rfl rfl (present.bind_ok rfl) (.nil _)

/-- **A presentation is read from its tree.** -/
theorem reads_toJson (p : Presentation) : o.Reads Presentation.read p.toJson p := by
  obtain ⟨credentials, signature, challenge⟩ := p
  have drafted : o.Reads (Presentation.shape.read ⟨none, none, none⟩)
      (toJson ⟨credentials, signature, challenge⟩)
      ⟨some credentials, signature.map some, challenge.map some⟩ := by
    refine Shape.Fills.reads rfl fun inside _ => ?_
    refine .cons _ rfl rfl ((reads_credentials credentials).bind_ok rfl) ?_
    cases signature with
    | none => exact fills_challenge credentials none challenge
    | some signature =>
      have present : inside.Reads (Origin.optional SignedBy.read) signature.toJson
          (some signature) :=
        Origin.reads_optional nofun signature.reads_toJson
      refine .cons _ rfl rfl (present.bind_ok rfl) ?_
      exact fills_challenge credentials (some (some signature)) challenge
  refine drafted.bind_ok ?_
  cases signature <;> cases challenge <;> rfl

end Presentation

/-! ### Texts -/

/-- **A content is read from its text exactly if that nests no deeper than a text may.** -/
theorem Content.ofText_wire {c : Content} (h : c.toJson.Exact) :
    Misread.ofText Content.read c.wire =
      if c.toJson.height ≤ Document.room then .ok c else .error .malformed :=
  Misread.ofText_text h c.reads_toJson

/-- **A credential is read from its text exactly if that nests no deeper than a text may.** -/
theorem Credential.ofText_wire {c : Credential} (h : c.toJson.Exact) :
    Misread.ofText Credential.read c.wire =
      if c.toJson.height ≤ Document.room then .ok c else .error .malformed :=
  Misread.ofText_text h c.reads_toJson

/-- **A presentation is read from its text exactly if that nests no deeper than a text may.** -/
theorem Presentation.ofText_wire {p : Presentation} (h : p.toJson.Exact) :
    Misread.ofText Presentation.read p.wire =
      if p.toJson.height ≤ Document.room then .ok p else .error .malformed :=
  Misread.ofText_text h p.reads_toJson

/-- **Records are read back from their texts.** Whatever the strings, names and values in them,
however deeply evidence is nested and whichever fields are absent: if all numbers are whole and in
the range in which they stay whole, and the text nests no deeper than a text may, then the record
that is read is the one that was written. -/
theorem records_read_back :
    (∀ c : Content, c.toJson.Exact → c.toJson.height ≤ Document.room →
        Misread.ofText Content.read c.wire = .ok c) ∧
      (∀ c : Credential, c.toJson.Exact → c.toJson.height ≤ Document.room →
        Misread.ofText Credential.read c.wire = .ok c) ∧
      ∀ p : Presentation, p.toJson.Exact → p.toJson.height ≤ Document.room →
        Misread.ofText Presentation.read p.wire = .ok p := by
  refine ⟨fun c hexact hroom => ?_, fun c hexact hroom => ?_, fun p hexact hroom => ?_⟩
  · rw [Content.ofText_wire hexact, if_pos hroom]
  · rw [Credential.ofText_wire hexact, if_pos hroom]
  · rw [Presentation.ofText_wire hexact, if_pos hroom]

namespace Sample

/-- A claim with odd names, and with the least and the greatest whole number that stay whole. -/
def oddities : Content :=
  .ofProperties "" "the \"registry\"\n" none
    [("", .array [.number (.whole (-9223372036854775808)), .object [], .null]),
      ("tab\t", .object [("\\", .number (.whole 18446744073709551615)), ("ü", .string "\x07")])]

/-- A credential over the claim with another one as evidence. Nothing in it fits together. -/
def oddCredential : Credential :=
  let piece : Credential := ⟨oddities, [], .empty, [], .zero, ""⟩
  ⟨oddities, [.zero, .zero], .ofList [(.zero, "")], [piece], .zero, "\\u0000"⟩

/-- The credential shown with an empty challenge and a signature under no name. -/
def oddPass : Presentation :=
  ⟨[oddCredential], some ⟨"", ⟨List.replicate 64 0, List.length_replicate⟩⟩, some ""⟩

end Sample

/-- A claim, a credential and a presentation with odd strings in every place are read back. -/
theorem oddities_read_back :
    (Sample.oddities.toJson.Exact ∧
        Misread.ofText Content.read Sample.oddities.wire = .ok Sample.oddities) ∧
      (Sample.oddCredential.toJson.Exact ∧
        Misread.ofText Credential.read Sample.oddCredential.wire = .ok Sample.oddCredential) ∧
      Sample.oddPass.toJson.Exact ∧
        Misread.ofText Presentation.read Sample.oddPass.wire = .ok Sample.oddPass := by
  obtain ⟨content, credential, presentation⟩ := records_read_back
  have hcontent : Sample.oddities.toJson.Exact := by decide +kernel
  have hcredential : Sample.oddCredential.toJson.Exact := by decide +kernel
  have hpass : Sample.oddPass.toJson.Exact := by decide +kernel
  exact ⟨⟨hcontent, content _ hcontent (by decide +kernel)⟩,
    ⟨hcredential, credential _ hcredential (by decide +kernel)⟩,
    hpass, presentation _ hpass (by decide +kernel)⟩

end SelectiveDisclosure
