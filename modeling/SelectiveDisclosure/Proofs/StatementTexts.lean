import SelectiveDisclosure.Proofs.Json.Scanning
import SelectiveDisclosure.Statement

/-!
# What the text of a statement says

The text of a statement is that of an object with one member. Three things can be read off it again,
and everything that is proved about commitments uses statements only through these.

* Its predicate: texts with different predicates are different. So the statements of one content
  have different texts, since their predicates are those of different properties under one schema,
  and `@id`, which has no separator in it, is none of these.
* The holder, if the statement is about one.
* Where it begins, if it stands behind a nonce.

## Main definitions

* `Statement.Made` — a statement about a holder or about a property.
* `Statement.ofEntry` — the statement of a property that can be one.
* `Content.Statable` — a property that can be a statement.

## Main results

* `Content.statements_eq_ok_iff` — which contents have statements, and which those are.
* `Content.mem_statements_iff` — a statement is about the holder or about a property.
* `Content.exists_statements_subset` — saying less makes no new statement.
* `Content.pairwise_text_ne` — the statements of a content have different texts.
* `Statement.Made.append_inj` — where a nonce ends and a statement begins is determined.
-/

namespace SelectiveDisclosure

namespace Statement

/-! ### Reading the text again -/

theorem textOf_eq (name : String) (value : Json) :
    textOf name value =
      String.ofList ('\x7b' :: (Json.quote name ++ ':' :: (value.chars ++ ['\x7d']))) := by
  rw [textOf, Json.text, Json.chars, Json.moreMembers, List.nil_append]

theorem textOf_inj {name name' : String} {value value' : Json}
    (h : textOf name value = textOf name' value') :
    name = name' ∧ value.chars = value'.chars := by
  rw [textOf_eq, textOf_eq, String.ofList_inj, List.cons.injEq] at h
  obtain ⟨hname, hrest⟩ := Json.quote_append_inj h.2
  exact ⟨hname, List.append_cancel_right (List.cons.inj hrest).2⟩

theorem ofHolder_text_inj {holder holder' : String}
    (h : (ofHolder holder).text = (ofHolder holder').text) : holder = holder' := by
  have value := (textOf_inj h).2
  rw [Json.chars, Json.chars] at value
  exact (Json.quote_append_inj (congrArg (· ++ []) value)).1

/-- Where the text of an object with one member begins, behind whatever text, is determined. -/
theorem append_textOf_inj {nonce nonce' name name' : String} {value value' : Json}
    (h : nonce ++ textOf name value = nonce' ++ textOf name' value') :
    nonce = nonce' ∧ textOf name value = textOf name' value' := by
  have chars : nonce.toList ++ (Json.object [(name, value)]).chars =
      nonce'.toList ++ (Json.object [(name', value')]).chars := by
    have := congrArg String.toList h
    simpa [textOf, Json.text] using this
  obtain ⟨hnonce, htext⟩ := Json.append_member_inj chars
  exact ⟨String.toList_inj.1 hnonce, congrArg String.ofList htext⟩

/-- Whether a statement was made: about a holder, or about a property under a schema. -/
inductive Made : Statement → Prop
  | holder (holder : String) : Made (ofHolder holder)
  | property {schema property : String} {value : Json} {s : Statement}
    (h : ofProperty schema property value = .ok s) : Made s

/-- The text of a statement is that of an object with one member. -/
theorem Made.exists_textOf {s : Statement} (h : s.Made) :
    ∃ name value, s.text = textOf name value := by
  cases h with
  | holder holder => exact ⟨_, _, rfl⟩
  | property h =>
    obtain ⟨-, -, rfl⟩ := ofProperty_eq_ok_iff.1 h
    exact ⟨_, _, rfl⟩

/-- **Where a nonce ends and a statement begins is determined.** -/
theorem Made.append_inj {s s' : Statement} {nonce nonce' : String} (hs : s.Made) (hs' : s'.Made)
    (h : nonce ++ s.text = nonce' ++ s'.text) : nonce = nonce' ∧ s.text = s'.text := by
  obtain ⟨name, value, htext⟩ := hs.exists_textOf
  obtain ⟨name', value', htext'⟩ := hs'.exists_textOf
  rw [htext, htext'] at h ⊢
  exact append_textOf_inj h

/-! ### Predicates -/

theorem predicate_inj {schema property property' : String}
    (h : predicate schema property = predicate schema property') : property = property' := by
  have := congrArg String.toList h
  simpa [predicate, String.toList_inj] using this

theorem predicate_ne_holderPredicate (schema property : String) :
    predicate schema property ≠ holderPredicate := by
  intro h
  have separator : predicateSeparator ∈ (predicate schema property).toList := by simp [predicate]
  rw [h] at separator
  exact absurd separator (by decide)

/-! ### The statements of a content -/

/-- The statement of a property that can be one. -/
def ofEntry (schema : String) (entry : String × Value) : Statement :=
  ⟨entry.1, textOf (predicate schema entry.1) entry.2.json⟩

theorem ofHolder_text_ne_ofEntry_text (holder schema : String) (entry : String × Value) :
    (ofHolder holder).text ≠ (ofEntry schema entry).text := by
  intro h
  exact predicate_ne_holderPredicate schema entry.1 (textOf_inj h).1.symm

theorem ofEntry_text_inj {schema : String} {entry entry' : String × Value}
    (h : (ofEntry schema entry).text = (ofEntry schema entry').text) : entry.1 = entry'.1 :=
  predicate_inj (textOf_inj h).1

end Statement

namespace Content

/-- Whether a property can be a statement: it has a name, and its value is not null. -/
def Statable (entry : String × Value) : Prop := entry.1 ≠ "" ∧ entry.2.json ≠ .null

instance (entry : String × Value) : Decidable (Statable entry) :=
  inferInstanceAs (Decidable (entry.1 ≠ "" ∧ entry.2.json ≠ .null))

theorem ofProperty_eq_ok_iff {schema : String} {entry : String × Value} {s : Statement} :
    Statement.ofProperty schema entry.1 entry.2.json = .ok s ↔
      Statable entry ∧ s = Statement.ofEntry schema entry := by
  rw [Statement.ofProperty_eq_ok_iff, entry.2.sorted.sorted_eq, ← and_assoc]
  rfl

theorem statementsOf_eq_ok_iff {schema : String} {entries : List (String × Value)}
    {ss : List Statement} :
    statementsOf schema entries = .ok ss ↔
      (∀ entry ∈ entries, Statable entry) ∧ ss = entries.map (Statement.ofEntry schema) := by
  induction entries generalizing ss with
  | nil => simp [statementsOf, eq_comm]
  | cons entry rest ih =>
    have unfolded : statementsOf schema (entry :: rest) = .ok ss ↔
        ∃ s, Statement.ofProperty schema entry.1 entry.2.json = .ok s ∧
          ∃ others, statementsOf schema rest = .ok others ∧ s :: others = ss := by
      simp only [statementsOf, bind_eq_ok_iff, pure_eq_ok_iff]
    rw [unfolded, List.forall_mem_cons]
    constructor
    · rintro ⟨s, hs, others, hothers, rfl⟩
      obtain ⟨hentry, rfl⟩ := ofProperty_eq_ok_iff.1 hs
      obtain ⟨hrest, rfl⟩ := ih.1 hothers
      exact ⟨⟨hentry, hrest⟩, rfl⟩
    · rintro ⟨⟨hentry, hrest⟩, rfl⟩
      exact ⟨_, ofProperty_eq_ok_iff.2 ⟨hentry, rfl⟩, _, ih.2 ⟨hrest, rfl⟩, rfl⟩

/-- The statement about a holder, if there is one. -/
def holderStatements (holder : Option String) : List Statement :=
  (holder.map Statement.ofHolder).toList

/-- The statements of a list of properties, all of which can be statements. -/
def propertyStatements (c : Content) : List Statement :=
  c.properties.entries.map (Statement.ofEntry c.schema)

/-- **Which contents have statements, and which those are.** -/
theorem statements_eq_ok_iff {c : Content} {ss : List Statement} :
    c.statements = .ok ss ↔
      Text.isBlank c.schema = false ∧ (∀ entry ∈ c.properties.entries, Statable entry) ∧
        ss = holderStatements c.holder ++ c.propertyStatements := by
  rw [statements]
  cases hblank : Text.isBlank c.schema with
  | true => simp
  | false =>
    simp only [Bool.false_eq_true, if_false, map_eq_ok_iff, statementsOf_eq_ok_iff, true_and]
    constructor
    · rintro ⟨_, ⟨hall, rfl⟩, rfl⟩
      exact ⟨hall, rfl⟩
    · rintro ⟨hall, rfl⟩
      exact ⟨_, ⟨hall, rfl⟩, rfl⟩

/-- A content that says no more than another has no other statements. -/
theorem exists_statements_subset {c : Content} {ss : List Statement} (h : c.statements = .ok ss)
    (c' : Content)
    (hschema : c'.schema = c.schema)
    (hholder : holderStatements c'.holder ⊆ holderStatements c.holder)
    (hproperties : c'.properties.entries ⊆ c.properties.entries) :
    ∃ ss', c'.statements = .ok ss' ∧ ss' ⊆ ss := by
  obtain ⟨hblank, hall, rfl⟩ := statements_eq_ok_iff.1 h
  refine ⟨_, statements_eq_ok_iff.2 ⟨hschema ▸ hblank, ?_, rfl⟩, ?_⟩
  · intro entry hentry
    exact hall entry (hproperties hentry)
  · rw [propertyStatements, hschema]
    exact List.append_subset.2 ⟨List.subset_append_of_subset_left _ hholder,
      List.subset_append_of_subset_right _ (List.map_subset _ hproperties)⟩

theorem exists_statements_without {c : Content} {ss : List Statement} (h : c.statements = .ok ss)
    (names : List String) : ∃ ss', (c.without names).statements = .ok ss' ∧ ss' ⊆ ss :=
  exists_statements_subset h (c.without names) rfl (List.Subset.refl _) List.filter_sublist.subset

theorem mem_statements_iff {c : Content} {ss : List Statement} (h : c.statements = .ok ss)
    {s : Statement} :
    s ∈ ss ↔ (∃ holder, c.holder = some holder ∧ s = .ofHolder holder) ∨
      ∃ entry ∈ c.properties.entries, s = .ofEntry c.schema entry := by
  obtain ⟨-, -, rfl⟩ := statements_eq_ok_iff.1 h
  simp [holderStatements, propertyStatements, eq_comm]

/-- The statements of a content are such as are made. -/
theorem made_of_mem {c : Content} {ss : List Statement} (h : c.statements = .ok ss)
    {s : Statement} (hs : s ∈ ss) : s.Made := by
  rcases (mem_statements_iff h).1 hs with ⟨holder, -, rfl⟩ | ⟨entry, hentry, rfl⟩
  · exact .holder holder
  · obtain ⟨-, hall, -⟩ := statements_eq_ok_iff.1 h
    exact .property (ofProperty_eq_ok_iff.2 ⟨hall entry hentry, rfl⟩)

/-- **The statements of a content have different texts.** -/
theorem pairwise_text_ne {c : Content} {ss : List Statement} (h : c.statements = .ok ss) :
    ss.Pairwise fun s s' => s.text ≠ s'.text := by
  obtain ⟨-, -, rfl⟩ := statements_eq_ok_iff.1 h
  refine List.pairwise_append.2 ⟨?_, ?_, ?_⟩
  · cases c.holder <;> simp [holderStatements]
  · refine List.pairwise_map.2 (c.properties.keys_distinct.imp ?_)
    exact fun hne heq => hne (Statement.ofEntry_text_inj heq)
  · intro s hs s' hs'
    obtain ⟨holder, -, rfl⟩ := by simpa [holderStatements] using hs
    obtain ⟨entry, -, rfl⟩ := List.mem_map.1 hs'
    exact Statement.ofHolder_text_ne_ofEntry_text holder c.schema entry

end Content

end SelectiveDisclosure
