import SelectiveDisclosure.Proofs.HiddenProperties
import SelectiveDisclosure.Proofs.Predicates
import SelectiveDisclosure.Proofs.Wire.Numbers
import SelectiveDisclosure.Proofs.Wire.RoundTrip

/-!
# What can be exchanged

A claim that arrives as a text is issued, the credential is sent on as a text, and so is the
presentation that the holder makes of it. Each wraps the values of the claim in more objects than
the one before, and nobody counts: a claim that could still be read may give a credential that
cannot, and a credential that can be read may be presented in a way that cannot.

How much is lost is exact. A value stands below two objects in a claim and below three in a
credential. In a presentation an object and an array come on top. Nothing but this depth ever keeps
an issued credential or its presentation from being read back. In particular their numbers do not:
whole numbers that were read fit into 64 bits.

## Main results

* `Content.height_toJson_le_iff`, `Credential.height_toJson_le_iff`,
  `Presentation.height_toJson_le_iff` — how deeply records nest.
* `Credential.reads_back_iff_of_evidence` — which credentials without evidence are read back.
* `Agent.exchange_of_issued` — what can be exchanged of what was issued.
-/

namespace SelectiveDisclosure

/-! ### The numbers and the depth of records -/

theorem Json.forall_mem_memberIf {α : Type} {name : String} {value : Option α} {f : α → Json}
    {P : String × Json → Prop} :
    (∀ e ∈ memberIf name value f, P e) ↔ ∀ a, value = some a → P (name, f a) := by
  cases value <;> simp [memberIf]

namespace Content

variable {c : Content} {n : Nat}

theorem exact_toJson_iff : c.toJson.Exact ↔ ∀ e ∈ c.properties.entries, e.2.json.Exact := by
  simp only [toJson, Json.Exact, Json.everyNumber, Json.everyNumberMembers_iff,
    List.forall_mem_append, Json.forall_mem_memberIf, List.forall_mem_cons, List.not_mem_nil,
    false_imp_iff, List.forall_mem_map, implies_true, true_and, and_true]

/-- Values stand below two objects. -/
theorem height_toJson_le_iff :
    c.toJson.height ≤ n + 2 ↔ ∀ e ∈ c.properties.entries, e.2.json.height ≤ n := by
  simp only [toJson, Json.height, Nat.add_le_add_iff_right, Json.heightMembers_le_iff,
    List.forall_mem_append, Json.forall_mem_memberIf, List.forall_mem_cons, List.not_mem_nil,
    false_imp_iff, List.forall_mem_map, Nat.zero_le, implies_true, true_and, and_true]

end Content

namespace Credential

variable {c : Credential} {n : Nat}

theorem exact_toJson_iff :
    c.toJson.Exact ↔ c.content.toJson.Exact ∧ ∀ e ∈ c.evidence, e.toJson.Exact := by
  obtain ⟨content, hashes, nonces, evidence, root, identifier⟩ := c
  simp only [toJson, toJsons_eq_map, Digest.listToJson, Digest.toJson, NonceMap.toJson, Json.Exact,
    Json.everyNumber, Json.everyNumberItems_iff, Json.everyNumberMembers_iff,
    List.forall_mem_cons, List.not_mem_nil, false_imp_iff, List.forall_mem_map, implies_true,
    true_and, and_true]

/-- The content stands below one object, evidence below an object and an array. -/
theorem height_toJson_le_iff :
    c.toJson.height ≤ n + 2 ↔
      c.content.toJson.height ≤ n + 1 ∧ ∀ e ∈ c.evidence, e.toJson.height ≤ n := by
  obtain ⟨content, hashes, nonces, evidence, root, identifier⟩ := c
  simp only [toJson, toJsons_eq_map, Digest.listToJson, Digest.toJson, NonceMap.toJson,
    Json.height, Nat.add_le_add_iff_right, Json.heightItems_le_iff, Json.heightMembers_le_iff,
    List.forall_mem_cons, List.not_mem_nil, false_imp_iff, List.forall_mem_map, Nat.zero_le,
    implies_true, true_and, and_true]

/-- Without evidence, values stand below three objects. -/
theorem height_toJson_le_iff_of_evidence (h : c.evidence = []) :
    c.toJson.height ≤ n + 3 ↔ ∀ e ∈ c.content.properties.entries, e.2.json.height ≤ n := by
  rw [height_toJson_le_iff, Content.height_toJson_le_iff, h]
  simp

end Credential

namespace Presentation

variable {p : Presentation} {n : Nat}

theorem exact_toJson_iff : p.toJson.Exact ↔ ∀ c ∈ p.credentials, c.toJson.Exact := by
  simp only [toJson, SignedBy.toJson, Credential.toJsons_eq_map, Json.Exact, Json.everyNumber,
    Json.everyNumberItems_iff, Json.everyNumberMembers_iff, List.forall_mem_append,
    Json.forall_mem_memberIf, List.forall_mem_cons, List.not_mem_nil,
    false_imp_iff, List.forall_mem_map, implies_true, and_true]

/-- The credentials stand below an object and an array. -/
theorem height_toJson_le_iff :
    p.toJson.height ≤ n + 2 ↔ ∀ c ∈ p.credentials, c.toJson.height ≤ n := by
  simp only [toJson, SignedBy.toJson, Credential.toJsons_eq_map, Json.height,
    Nat.add_le_add_iff_right, Json.heightItems_le_iff, Json.heightMembers_le_iff,
    List.forall_mem_append, Json.forall_mem_memberIf, List.forall_mem_cons, List.not_mem_nil,
    false_imp_iff, List.forall_mem_map, Nat.zero_le, implies_true, and_true]

end Presentation

/-! ### What is issued and presented -/

theorem Content.exact_toJson_of_ofText {s : String} {content : Content}
    (hread : Misread.ofText Content.read s = .ok content) (hcontent : content.Integral) :
    content.toJson.Exact :=
  exact_toJson_iff.2 fun e he => Json.exact_iff.2 ⟨hcontent e he, fits_of_ofText hread e he⟩

theorem Content.mem_entries_shown {s : Selection} {content : Content} {e : String × Value} :
    e ∈ (content.shown s).properties.entries ↔
      e ∈ content.properties.entries ∧ s.shows e.1 = true := by
  obtain ⟨name, value⟩ := e
  rw [← get?_eq_some_iff, ← get?_eq_some_iff, get?_shown]
  split
  · next h => simp [h]
  · next h => simp [h]

theorem Credential.reads_back_iff {c : Credential} (hexact : c.toJson.Exact) :
    Misread.ofText Credential.read c.wire = .ok c ↔ c.toJson.height ≤ Document.room := by
  rw [Credential.ofText_wire hexact]
  split
  · next h => simp [h]
  · next h => simp [h]

theorem Presentation.reads_back_iff {p : Presentation} (hexact : p.toJson.Exact) :
    Misread.ofText Presentation.read p.wire = .ok p ↔ p.toJson.height ≤ Document.room := by
  rw [Presentation.ofText_wire hexact]
  split
  · next h => simp [h]
  · next h => simp [h]

/-- A credential without evidence is read back exactly if its values nest no deeper than there is
room for below three objects. -/
theorem Credential.reads_back_iff_of_evidence {c : Credential} (hcontent : c.content.toJson.Exact)
    (hevidence : c.evidence = []) :
    Misread.ofText Credential.read c.wire = .ok c ↔
      ∀ e ∈ c.content.properties.entries, e.2.json.height ≤ 124 := by
  have hexact : c.toJson.Exact := Credential.exact_toJson_iff.2 ⟨hcontent, by simp [hevidence]⟩
  rw [Credential.reads_back_iff hexact]
  exact Credential.height_toJson_le_iff_of_evidence hevidence

namespace Agent

variable {σ : Type}

/-- **What can be exchanged of what was issued.** A content that was read from a text, with whole
numbers only, is issued without evidence. The credential is read back from its text exactly if no
value nests more than 124 arrays and objects, a presentation that is made of it exactly if no value
that is shown nests more than 122. The text of the content may hold values that nest 125. -/
theorem exchange_of_issued (a : Agent σ) {s : String} {content : Content} {state : σ}
    {c : Credential} (hread : Misread.ofText Content.read s = .ok content)
    (hcontent : content.Integral) (hissued : (a.issue content [] state).result = .ok c) :
    (Misread.ofText Credential.read c.wire = .ok c ↔
        ∀ e ∈ content.properties.entries, e.2.json.height ≤ 124) ∧
      ∀ request p, a.present [c] request = .ok p →
        (Misread.ofText Presentation.read p.wire = .ok p ↔
          ∀ e ∈ content.properties.entries, request.selection.shows e.1 = true →
            e.2.json.height ≤ 122) := by
  obtain ⟨-, rfl⟩ := Credential.issue_eq_ok_iff.1 (issue_result_eq_ok_iff.1 hissued).2
  have hexact := Content.exact_toJson_of_ofText hread hcontent
  refine ⟨Credential.reads_back_iff_of_evidence hexact rfl, fun request p hp => ?_⟩
  obtain ⟨hcopies, -⟩ := present_eq_ok_iff.1 hp
  -- one credential is presented, so there is one copy
  obtain ⟨copy, _, hcopy, hnil, hcredentials⟩ := List.forall₂_cons_left_iff.1 hcopies
  obtain rfl := List.forall₂_nil_left_iff.1 hnil
  have hshown := Credential.content_of_disclose hcopy
  have hevidence : copy.evidence = [] := (Credential.shows_of_disclose hcopy).evidence
  have hcopyExact : p.toJson.Exact := by
    rw [Presentation.exact_toJson_iff, hcredentials, List.forall_mem_singleton,
      Credential.exact_toJson_iff, hshown, Content.exact_toJson_iff, hevidence]
    refine ⟨fun e he => ?_, nofun⟩
    exact Content.exact_toJson_iff.1 hexact e (Content.mem_entries_shown.1 he).1
  have hheight : p.toJson.height ≤ 125 + 2 ↔ _ := Presentation.height_toJson_le_iff
  rw [Presentation.reads_back_iff hcopyExact, Document.room, hheight, hcredentials,
    List.forall_mem_singleton, Credential.height_toJson_le_iff_of_evidence hevidence, hshown]
  simp only [Content.mem_entries_shown, and_imp]
  rfl

end Agent

/-! ### Nests of arrays -/

namespace Sample

/-- This many arrays, one inside the other. -/
def nest : Nat → Json
  | 0 => .null
  | n + 1 => .array [nest n]

theorem height_nest (n : Nat) : (nest n).height = n := by
  induction n with
  | zero => rfl
  | succ n ih => rw [nest, Json.height, Json.heightItems, Json.heightItems, ih, Nat.max_zero]

theorem everyNumber_nest (p : Number → Bool) (n : Nat) : (nest n).everyNumber p = true := by
  induction n with
  | zero => rfl
  | succ n ih =>
    rw [nest, Json.everyNumber, Json.everyNumberItems, Json.everyNumberItems, ih, Bool.and_self]

theorem sorted_nest (n : Nat) : (nest n).Sorted := by
  induction n with
  | zero => exact trivial
  | succ n ih => exact ⟨ih, trivial⟩

/-- A claim with a nest of arrays for a value, and with another value. -/
def nesting (n : Nat) : Content :=
  ((Content.blank "nesting" "registry" none).setProperty "deep" ⟨nest n, sorted_nest n⟩).setProperty
    "flat" (.ofJson (.bool true))

theorem entries_nesting (n : Nat) :
    (nesting n).properties.entries =
      [("deep", ⟨nest n, sorted_nest n⟩), ("flat", .ofJson (.bool true))] := rfl

theorem integral_nesting (n : Nat) : (nesting n).Integral := by
  rw [Content.Integral, entries_nesting, List.forall_mem_cons, List.forall_mem_singleton]
  exact ⟨everyNumber_nest _ n, rfl⟩

theorem exact_nesting (n : Nat) : (nesting n).toJson.Exact := by
  rw [Content.exact_toJson_iff, entries_nesting, List.forall_mem_cons, List.forall_mem_singleton]
  exact ⟨everyNumber_nest _ n, rfl⟩

theorem read_nesting {n : Nat} (hn : n ≤ 125) :
    Misread.ofText Content.read (nesting n).wire = .ok (nesting n) := by
  have height : (nesting n).toJson.height ≤ Document.room := by
    refine Content.height_toJson_le_iff.2 ?_
    rw [entries_nesting, List.forall_mem_cons, List.forall_mem_singleton]
    exact ⟨(height_nest n).symm ▸ hn, Nat.zero_le 125⟩
  rw [Content.ofText_wire (exact_nesting n), if_pos height]

theorem exists_statements_nesting (n : Nat) : ∃ ss, (nesting (n + 1)).statements = .ok ss := by
  have hblank : Text.isBlank "nesting" = false := by decide
  refine ⟨_, Content.statements_eq_ok_iff.2 ⟨hblank, ?_, rfl⟩⟩
  rw [entries_nesting, List.forall_mem_cons, List.forall_mem_singleton]
  have hdeep : "deep" ≠ "" := by decide
  have hflat : "flat" ≠ "" := by decide
  exact ⟨⟨hdeep, nofun⟩, hflat, nofun⟩

end Sample

namespace Agent

/-- **A claim that is read and issued, and a credential that is not read.** The value nests 125
arrays, the text of the claim 127 arrays and objects, that of the credential 128. -/
theorem nesting_not_read_back :
    Misread.ofText Content.read (Sample.nesting 125).wire = .ok (Sample.nesting 125) ∧
      (Sample.nesting 125).Integral ∧
      ∃ c, (standard.issue (Sample.nesting 125) [] 0).result = .ok c ∧
        Misread.ofText Credential.read c.wire = .error .malformed := by
  obtain ⟨ss, hss⟩ := Sample.exists_statements_nesting 124
  have hissued := issue_result_of_verified standard _ [] 0 nofun hss
  refine ⟨Sample.read_nesting (Nat.le_refl 125), Sample.integral_nesting 125, _, hissued, ?_⟩
  have hexact : (Credential.issued standard.hasher standard.source (Sample.nesting 125) []
      0).toJson.Exact :=
    Credential.exact_toJson_iff.2 ⟨Sample.exact_nesting 125, nofun⟩
  rw [Credential.ofText_wire hexact, if_neg]
  intro hheight
  have hvalues := (Credential.height_toJson_le_iff_of_evidence (n := 124) rfl).1 hheight
  have hnest : (Sample.nest 125).height ≤ 124 := hvalues _ (.head _)
  rw [Sample.height_nest] at hnest
  exact absurd hnest (by decide)

theorem exists_present_eq_ok_of_statements {σ : Type} (a : Agent σ) {c : Credential}
    {ss : List Statement} (hss : c.content.statements = .ok ss) (selection : Selection) :
    ∃ p, a.present [c] ⟨selection, none, none⟩ = .ok p := by
  obtain ⟨shown, hshown, -⟩ :=
    Content.exists_statements_without hss (selection.excluded c.content)
  have hcopy := Credential.remove_eq_ok_iff (h := a.hasher).2 ⟨shown, hshown, rfl⟩
  exact ⟨⟨[_], none, none⟩, present_eq_ok_iff.2
    ⟨.cons hcopy .nil, nofun, Presentation.oneHolder_iff.2 ⟨_, List.forall_mem_singleton.2 rfl⟩,
      rfl, rfl⟩⟩

/-- Of a claim with a value that nests 123 arrays the credential is read back, the presentation of
everything is not, and the one without that value is. -/
theorem exchange_of_nesting :
    ∃ c whole part, (standard.issue (Sample.nesting 123) [] 0).result = .ok c ∧
      standard.present [c] ⟨.everything, none, none⟩ = .ok whole ∧
      standard.present [c] ⟨⟨none, ["deep"]⟩, none, none⟩ = .ok part ∧
      Misread.ofText Credential.read c.wire = .ok c ∧
      Misread.ofText Presentation.read whole.wire ≠ .ok whole ∧
      Misread.ofText Presentation.read part.wire = .ok part := by
  obtain ⟨ss, hss⟩ := Sample.exists_statements_nesting 122
  have hissued := issue_result_of_verified standard _ [] 0 nofun hss
  obtain ⟨hcredential, hpresentation⟩ := exchange_of_issued standard
    (Sample.read_nesting (n := 123) (by decide)) (Sample.integral_nesting 123) hissued
  obtain ⟨whole, hwhole⟩ := exists_present_eq_ok_of_statements standard (c := Credential.issued
    standard.hasher standard.source (Sample.nesting 123) [] 0) hss .everything
  obtain ⟨part, hpart⟩ := exists_present_eq_ok_of_statements standard (c := Credential.issued
    standard.hasher standard.source (Sample.nesting 123) [] 0) hss ⟨none, ["deep"]⟩
  simp only [Sample.entries_nesting, Sample.height_nest, List.forall_mem_cons, List.not_mem_nil,
    false_imp_iff, implies_true, and_true] at hcredential hpresentation
  refine ⟨_, whole, part, hissued, hwhole, hpart, hcredential.2 ⟨by decide, by decide⟩, ?_, ?_⟩
  · intro hread
    exact absurd (((hpresentation _ whole hwhole).1 hread).1 rfl) (by decide)
  · refine (hpresentation _ part hpart).2 ⟨?_, fun _ => by decide⟩
    intro hshown
    exact absurd hshown (by decide)

end Agent

end SelectiveDisclosure
