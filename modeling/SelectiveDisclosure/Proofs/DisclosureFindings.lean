import SelectiveDisclosure.Disclosure
import SelectiveDisclosure.Proofs.StatementTexts
import SelectiveDisclosure.Proofs.Traversals
import SelectiveDisclosure.Testing.Samples

/-!
# What is found of a content

A content that is shown is checked in two stages. First it is put into statements, and this ends at
the first property that cannot be one, with that property for its only finding. Only a content
whose properties all can be statements gets to the second stage, where each statement is looked up
and all that are not covered are found.

So the findings tell of every statement that lacks a proof, but only where nothing is malformed. One
malformed property hides all that is wrong with the others, and a second one is not found before
the first is mended.

## Main definitions

* `Content.malformation` — why a property cannot be a statement.
* `Content.States` — a statement about the holder, or about a property that can be one.
* `Statement.Fails` — what is found of a statement that is not covered.
* `Content.ReportsAll` — the findings tell of everything that is wrong.

## Main results

* `Content.statements_eq_error_iff` — why a content has no statements.
* `Content.mem_disclosureFindings_iff` — what is found of a content that has statements.
* `Content.reports_all_or_first_malformed` — everything is reported, or just the first malformed
  property.
* `Content.gaps_not_all_reported` — a content of which not everything is reported.
-/

namespace SelectiveDisclosure

variable {h : Hasher} {nonces : NonceMap} {hashes : List Digest}

/-! ### Contents without statements -/

namespace Content

/-- Why a property cannot be a statement: it has no name, or else its value is null. -/
def malformation (entry : String × Value) : Fault :=
  if entry.1 = "" then .malformedProperty "" "property name is empty"
  else .malformedProperty entry.1 "null is not a statement value"

theorem ofFault_malformation (entry : String × Value) :
    Finding.ofFault (malformation entry) = .malformedContent (malformation entry).message := by
  rw [malformation]
  split <;> rfl

theorem ofProperty_eq_error_iff {schema : String} {entry : String × Value} {fault : Fault} :
    Statement.ofProperty schema entry.1 entry.2.json = .error fault ↔
      ¬ Statable entry ∧ fault = malformation entry := by
  by_cases hname : entry.1 = "" <;> by_cases hvalue : entry.2.json = .null <;>
    simp [Statement.ofProperty, Statable, malformation, hname, hvalue, eq_comm]

theorem exists_ofProperty_eq_ok_iff {schema : String} {entry : String × Value} :
    (∃ s, Statement.ofProperty schema entry.1 entry.2.json = .ok s) ↔ Statable entry := by
  simp [ofProperty_eq_ok_iff]

theorem statementsOf_eq_mapM (schema : String) (entries : List (String × Value)) :
    statementsOf schema entries =
      entries.mapM fun entry => Statement.ofProperty schema entry.1 entry.2.json := by
  induction entries with
  | nil => rfl
  | cons entry rest ih => rw [statementsOf, List.mapM_cons, ih]

/-- **Why a content has no statements**: its schema is blank, or else it is the first property that
cannot be one. -/
theorem statements_eq_error_iff {c : Content} {fault : Fault} :
    c.statements = .error fault ↔
      (Text.isBlank c.schema = true ∧ fault = .missingVocabulary) ∨
        Text.isBlank c.schema = false ∧ ∃ front entry rest,
          c.properties.entries = front ++ entry :: rest ∧ (∀ e ∈ front, Statable e) ∧
            ¬ Statable entry ∧ fault = malformation entry := by
  rw [statements]
  cases hblank : Text.isBlank c.schema with
  | true => simp [eq_comm]
  | false =>
    simp only [Bool.false_eq_true, if_false, map_eq_error_iff, statementsOf_eq_mapM,
      mapM_eq_error_iff, exists_ofProperty_eq_ok_iff, ofProperty_eq_error_iff, false_and, true_and,
      false_or]

end Content

/-! ### Statements that are not covered -/

/-- What is found of a statement that is not covered: that there is no nonce for it, or that it was
not committed to with the nonce that there is. -/
inductive Statement.Fails (h : Hasher) (nonces : NonceMap) (hashes : List Digest) (s : Statement) :
    Finding → Prop
  | unproved (hnonce : nonces.get? (s.digest h) = none) : Fails h nonces hashes s (.noProof s.text)
  | forged {nonce : String} (hnonce : nonces.get? (s.digest h) = some nonce)
    (hsalted : s.salted h nonce ∉ hashes) : Fails h nonces hashes s (.invalidProof s.text)

namespace Content

variable {c : Content} {ss : List Statement} {finding : Finding}

theorem statementFinding?_eq_some_iff {s : Statement} :
    statementFinding? h nonces hashes s = some finding ↔ s.Fails h nonces hashes finding := by
  rw [statementFinding?]
  constructor
  · cases hnonce : nonces.get? (s.digest h) with
    | none =>
      rintro ⟨⟩
      exact .unproved hnonce
    | some nonce =>
      by_cases hsalted : s.salted h nonce ∈ hashes
      · simp [hsalted]
      · simp only [List.contains_iff_mem, if_neg hsalted, Option.some.injEq]
        rintro rfl
        exact .forged hnonce hsalted
  · rintro (hnonce | ⟨hnonce, hsalted⟩)
    · rw [hnonce]
    · simp [hnonce, hsalted]

theorem disclosureFindings_of_error {fault : Fault} (hfault : c.statements = .error fault) :
    c.disclosureFindings h nonces hashes = [.ofFault fault] := by
  rw [disclosureFindings, hfault]

theorem disclosureFindings_of_statements (hss : c.statements = .ok ss) :
    c.disclosureFindings h nonces hashes = ss.filterMap (statementFinding? h nonces hashes) := by
  rw [disclosureFindings, hss]

/-- **What is found of a content that has statements** is what is found of each of them. -/
theorem mem_disclosureFindings_iff (hss : c.statements = .ok ss) :
    finding ∈ c.disclosureFindings h nonces hashes ↔ ∃ s ∈ ss, s.Fails h nonces hashes finding := by
  simp only [disclosureFindings_of_statements hss, List.mem_filterMap,
    statementFinding?_eq_some_iff]

/-! ### What is reported -/

/-- Whether a content makes a statement: about its holder, or about a property that can be one. -/
def States (c : Content) (s : Statement) : Prop :=
  (∃ holder, c.holder = some holder ∧ s = .ofHolder holder) ∨
    ∃ entry ∈ c.properties.entries, Statable entry ∧ s = .ofEntry c.schema entry

/-- Whether the findings tell of everything that is wrong with a content: of each property that is
malformed, of each statement that has no nonce, and of each that was not committed to with the nonce
that it has. -/
structure ReportsAll (h : Hasher) (nonces : NonceMap) (hashes : List Digest) (c : Content) :
    Prop where
  malformed : ∀ entry ∈ c.properties.entries, ¬ Statable entry →
    .malformedContent (malformation entry).message ∈ c.disclosureFindings h nonces hashes
  unproved : ∀ s, c.States s → nonces.get? (s.digest h) = none →
    .noProof s.text ∈ c.disclosureFindings h nonces hashes
  forged : ∀ s, c.States s → ∀ nonce, nonces.get? (s.digest h) = some nonce →
    s.salted h nonce ∉ hashes → .invalidProof s.text ∈ c.disclosureFindings h nonces hashes

/-- What a content without malformed properties states is just what it is put into. -/
theorem states_iff_mem (hall : ∀ entry ∈ c.properties.entries, Statable entry)
    (hss : c.statements = .ok ss) {s : Statement} : c.States s ↔ s ∈ ss := by
  rw [mem_statements_iff hss, States]
  refine or_congr Iff.rfl (exists_congr fun entry => and_congr_right fun hentry => ?_)
  exact and_iff_right (hall entry hentry)

/-- **Everything that is wrong with a content is reported, or just its first malformed property.**
It depends on whether there is a malformed one. Without one, nothing else is reported than what a
statement fails by. -/
theorem reports_all_or_first_malformed (h : Hasher) (nonces : NonceMap) (hashes : List Digest)
    (c : Content) (hschema : Text.isBlank c.schema = false) :
    ((∀ entry ∈ c.properties.entries, Statable entry) → c.ReportsAll h nonces hashes ∧
        ∀ finding ∈ c.disclosureFindings h nonces hashes,
          ∃ s, c.States s ∧ s.Fails h nonces hashes finding) ∧
      ∀ front entry rest, c.properties.entries = front ++ entry :: rest →
        (∀ e ∈ front, Statable e) → ¬ Statable entry →
          c.disclosureFindings h nonces hashes =
            [.malformedContent (malformation entry).message] := by
  constructor
  · intro hall
    have hss := statements_eq_ok_iff.2 ⟨hschema, hall, rfl⟩
    have hfindings (finding : Finding) : finding ∈ c.disclosureFindings h nonces hashes ↔
        ∃ s, c.States s ∧ s.Fails h nonces hashes finding := by
      simp only [mem_disclosureFindings_iff hss, states_iff_mem hall hss]
    refine ⟨⟨fun entry hentry hmalformed => absurd (hall entry hentry) hmalformed,
      fun s hs hnonce => ?_, fun s hs nonce hnonce hsalted => ?_⟩,
      fun finding => (hfindings finding).1⟩
    · exact (hfindings _).2 ⟨s, hs, .unproved hnonce⟩
    · exact (hfindings _).2 ⟨s, hs, .forged hnonce hsalted⟩
  · intro front entry rest hsplit hfront hentry
    have hfault : c.statements = .error (malformation entry) :=
      statements_eq_error_iff.2 (.inr ⟨hschema, front, entry, rest, hsplit, hfront, hentry, rfl⟩)
    rw [disclosureFindings_of_error hfault, ofFault_malformation]

end Content

namespace Sample

/-- A claim about a person with two properties that cannot be statements, one that has no name and
one whose value is null. -/
def gaps : Content :=
  .ofProperties "person" "registry" (some "alice")
    [("", .bool true), ("age", .number (.whole 29)), ("name", .null)]

theorem disclosureFindings_gaps (h : Hasher) (nonces : NonceMap) (hashes : List Digest) :
    gaps.disclosureFindings h nonces hashes = [.malformedContent
      "property \"\" has an unsupported statement value: property name is empty"] := by
  have hfault : gaps.statements = .error (.malformedProperty "" "property name is empty") := rfl
  rw [Content.disclosureFindings_of_error hfault]
  rfl

end Sample

namespace Content

/-- Of the claim with gaps just the first gap is reported, of the claim without them everything. -/
theorem first_gap_reported :
    Sample.gaps.disclosureFindings .blake2b .empty [] = [.malformedContent
        "property \"\" has an unsupported statement value: property name is empty"] ∧
      Sample.person.ReportsAll .blake2b .empty [] :=
  ⟨(reports_all_or_first_malformed .blake2b .empty [] Sample.gaps rfl).2 [] _ _ rfl nofun
      (by decide),
    ((reports_all_or_first_malformed .blake2b .empty [] Sample.person rfl).1 (by decide)).1⟩

/-- **Not everything is reported of the claim with gaps**: the null is not. -/
theorem gaps_not_all_reported :
    Text.isBlank Sample.gaps.schema = false ∧ ¬ Sample.gaps.ReportsAll .blake2b .empty [] := by
  refine ⟨rfl, fun hall => ?_⟩
  have hnull := hall.malformed ("name", .ofJson .null) (by decide) (by decide)
  rw [Sample.disclosureFindings_gaps, List.mem_singleton] at hnull
  exact absurd hnull (by decide)

end Content

end SelectiveDisclosure
