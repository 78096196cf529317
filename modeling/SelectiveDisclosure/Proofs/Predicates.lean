import SelectiveDisclosure.Proofs.Json.Unambiguous
import SelectiveDisclosure.Proofs.StatementTexts

/-!
# What a content says

Outside of its content a property is known by its predicate. So what a content says is who its
holder is, if it has one, and which value there is under which predicate. This is just what its
statements say: their texts determine it and are determined by it.

## Where the schema ends

A predicate is the schema and the name of the property with a separator between, and the separator
may stand in either of them. So a predicate does not tell where the schema ends, and contents that
say the same may do so under different schemas. How different is easily said: of two schemas under
which there is the same predicate, one is a predicate under the other, and the rest of it stands at
the beginning of the property's name instead.

## Main definitions

* `Content.Integral` — the numbers in all values are whole.
* `Content.facts` — the values of the properties by their predicates.
* `Content.SaysNoMore` — what a content says another content says too.
* `Content.CutFrom` — the properties are some of another content, cut elsewhere perhaps.
* `Content.Plain` — there is no separator in the schema or in the name of a property.

## Main results

* `predicate_eq_iff` — in which ways a predicate can be cut.
* `Statement.textOf_eq_iff` — the text of an object with one member determines the member.
* `Statement.ofEntry_text_eq_iff` — statements about properties have the same text if predicate and
  value are the same.
* `Content.saysNoMore_iff_texts` — a content says no more than another if its statements have the
  texts of statements of the other.
* `Content.saysNoMore_iff_cutFrom` — how contents differ of which one says no more than the other.
* `Content.CutFrom.of_plain` — a content without separators cannot be cut elsewhere.
-/

namespace SelectiveDisclosure

/-! ### Predicates -/

theorem toList_predicate (schema property : String) :
    (predicate schema property).toList =
      schema.toList ++ predicateSeparator :: property.toList := by
  simp [predicate]

theorem predicate_assoc (schema middle property : String) :
    predicate (predicate schema middle) property =
      predicate schema (predicate middle property) := by
  rw [← String.toList_inj]
  simp [toList_predicate]

/-- What can stand in front of the last of two separators. -/
theorem eq_or_exists_of_cut {c : Char} {xs ys zs : List Char} (h : c :: xs = zs ++ c :: ys) :
    (zs = [] ∧ xs = ys) ∨ ∃ middle, zs = c :: middle ∧ xs = middle ++ c :: ys := by
  cases zs with
  | nil => exact .inl ⟨rfl, (List.cons.inj h).2⟩
  | cons z middle =>
    obtain ⟨rfl, hxs⟩ := List.cons.inj h
    exact .inr ⟨middle, rfl, hxs⟩

/-- **In which ways a predicate can be cut**: of two schemas one is a predicate under the other, and
the rest of it stands in the name of the property. -/
theorem predicate_eq_iff {schema schema' property property' : String} :
    predicate schema property = predicate schema' property' ↔
      (schema = schema' ∧ property = property') ∨
        (∃ middle, schema' = predicate schema middle ∧ property = predicate middle property') ∨
          ∃ middle, schema = predicate schema' middle ∧ property' = predicate middle property := by
  constructor
  · intro h
    rw [← String.toList_inj, toList_predicate, toList_predicate] at h
    rcases List.append_eq_append_iff.1 h with ⟨zs, hschema, hrest⟩ | ⟨zs, hschema, hrest⟩
    · rcases eq_or_exists_of_cut hrest with ⟨rfl, hproperty⟩ | ⟨middle, rfl, hproperty⟩
      · rw [List.append_nil] at hschema
        exact .inl ⟨(String.toList_inj.1 hschema).symm, String.toList_inj.1 hproperty⟩
      · refine .inr (.inl ⟨String.ofList middle, ?_, ?_⟩)
        · rw [← String.toList_inj, toList_predicate, String.toList_ofList, hschema]
        · rw [← String.toList_inj, toList_predicate, String.toList_ofList, hproperty]
    · rcases eq_or_exists_of_cut hrest with ⟨rfl, hproperty⟩ | ⟨middle, rfl, hproperty⟩
      · rw [List.append_nil] at hschema
        exact .inl ⟨String.toList_inj.1 hschema, (String.toList_inj.1 hproperty).symm⟩
      · refine .inr (.inr ⟨String.ofList middle, ?_, ?_⟩)
        · rw [← String.toList_inj, toList_predicate, String.toList_ofList, hschema]
        · rw [← String.toList_inj, toList_predicate, String.toList_ofList, hproperty]
  · rintro (⟨rfl, rfl⟩ | ⟨middle, rfl, rfl⟩ | ⟨middle, rfl, rfl⟩)
    · rfl
    · exact (predicate_assoc _ _ _).symm
    · exact predicate_assoc _ _ _

theorem separator_mem_predicate (schema property : String) :
    predicateSeparator ∈ (predicate schema property).toList := by
  simp [toList_predicate]

/-! ### Statements about properties -/

/-- The text of an object with one member determines the name and the value. -/
theorem Statement.textOf_eq_iff {name name' : String} {value value' : Json}
    (hvalue : value.Integral) (hvalue' : value'.Integral) :
    textOf name value = textOf name' value' ↔ name = name' ∧ value = value' := by
  constructor
  · intro h
    obtain ⟨hname, hchars⟩ := textOf_inj h
    exact ⟨hname, Json.chars_inj hvalue hvalue' hchars⟩
  · rintro ⟨rfl, rfl⟩
    rfl

/-- Statements about properties have the same text if predicate and value are the same. -/
theorem Statement.ofEntry_text_eq_iff {schema schema' : String} {entry entry' : String × Value}
    (hentry : entry.2.json.Integral) (hentry' : entry'.2.json.Integral) :
    (ofEntry schema entry).text = (ofEntry schema' entry').text ↔
      predicate schema entry.1 = predicate schema' entry'.1 ∧ entry.2 = entry'.2 := by
  rw [ofEntry, ofEntry, textOf_eq_iff hentry hentry']
  exact and_congr_right' ⟨Value.ext_json, congrArg Value.json⟩

namespace Content

/-- Whether the numbers in all values are whole. -/
def Integral (c : Content) : Prop := ∀ entry ∈ c.properties.entries, entry.2.json.Integral

instance (c : Content) : Decidable c.Integral :=
  inferInstanceAs (Decidable (∀ entry ∈ c.properties.entries, entry.2.json.Integral))

variable {c c' : Content} {ss ss' : List Statement}

theorem get?_eq_some_iff {name : String} {value : Value} :
    c.get? name = some value ↔ (name, value) ∈ c.properties.entries :=
  OrderedMap.mem_entries_iff.symm

/-! ### Facts -/

/-- The values of the properties by their predicates. -/
def facts (c : Content) : OrderedMap String Value :=
  .ofList (c.properties.entries.map fun entry => (predicate c.schema entry.1, entry.2))

theorem get?_facts_eq_some_iff {fact : String} {value : Value} :
    c.facts.get? fact = some value ↔
      ∃ name, c.get? name = some value ∧ predicate c.schema name = fact := by
  have nodup : ((c.properties.entries.map fun entry =>
      (predicate c.schema entry.1, entry.2)).map (·.1)).Nodup := by
    rw [List.map_map]
    refine List.pairwise_map.2 (c.properties.keys_distinct.imp ?_)
    exact fun hne heq => hne (Statement.predicate_inj heq)
  rw [← OrderedMap.mem_entries_iff, facts, (OrderedMap.entries_ofList_perm nodup).mem_iff]
  simp [get?_eq_some_iff]

theorem get?_facts (c : Content) (name : String) :
    c.facts.get? (predicate c.schema name) = c.get? name := by
  refine Option.ext fun value => ?_
  rw [get?_facts_eq_some_iff]
  constructor
  · rintro ⟨name', hvalue, hname⟩
    rwa [← Statement.predicate_inj hname]
  · intro hvalue
    exact ⟨name, hvalue, rfl⟩

/-- Under one schema the facts determine the properties. -/
theorem properties_eq_of_facts_eq (hschema : c.schema = c'.schema) (hfacts : c.facts = c'.facts) :
    c.properties = c'.properties := by
  refine OrderedMap.ext_get? fun name => ?_
  have h := get?_facts c name
  rw [hfacts, hschema, get?_facts] at h
  exact h.symm

/-! ### Saying no more -/

/-- Whether what a content says another content says too: that it has this holder, and that there is
this value under this predicate. -/
def SaysNoMore (c c' : Content) : Prop :=
  (∀ holder, c.holder = some holder → c'.holder = some holder) ∧
    ∀ fact value, c.facts.get? fact = some value → c'.facts.get? fact = some value

theorem SaysNoMore.holder_eq (h : c.SaysNoMore c') (h' : c'.SaysNoMore c) :
    c.holder = c'.holder :=
  Option.ext fun holder => ⟨h.1 holder, h'.1 holder⟩

theorem SaysNoMore.facts_eq (h : c.SaysNoMore c') (h' : c'.SaysNoMore c) : c.facts = c'.facts :=
  OrderedMap.ext_get? fun fact => Option.ext fun value => ⟨h.2 fact value, h'.2 fact value⟩

/-- **A content says no more than another if its statements have the texts of statements of the
other.** -/
theorem saysNoMore_iff_texts (hss : c.statements = .ok ss) (hss' : c'.statements = .ok ss')
    (hc : c.Integral) (hc' : c'.Integral) :
    c.SaysNoMore c' ↔ ∀ s ∈ ss, ∃ s' ∈ ss', s'.text = s.text := by
  simp only [mem_statements_iff hss, mem_statements_iff hss']
  constructor
  · rintro ⟨hholder, hfacts⟩ s (⟨holder, hs, rfl⟩ | ⟨⟨name, value⟩, hentry, rfl⟩)
    · exact ⟨_, .inl ⟨holder, hholder holder hs, rfl⟩, rfl⟩
    · have hfact := hfacts _ _ (get?_facts_eq_some_iff.2 ⟨name, get?_eq_some_iff.2 hentry, rfl⟩)
      obtain ⟨name', hvalue, hname⟩ := get?_facts_eq_some_iff.1 hfact
      have hentry' := get?_eq_some_iff.1 hvalue
      refine ⟨_, .inr ⟨_, hentry', rfl⟩, ?_⟩
      exact (Statement.ofEntry_text_eq_iff (hc' _ hentry') (hc _ hentry)).2 ⟨hname, rfl⟩
  · intro htexts
    refine ⟨fun holder hholder => ?_, fun fact value hfact => ?_⟩
    · obtain ⟨s', hs', htext⟩ := htexts _ (.inl ⟨holder, hholder, rfl⟩)
      rcases hs' with ⟨holder', hholder', rfl⟩ | ⟨entry', -, rfl⟩
      · rwa [← Statement.ofHolder_text_inj htext]
      · exact absurd htext.symm (Statement.ofHolder_text_ne_ofEntry_text _ _ _)
    · obtain ⟨name, hvalue, rfl⟩ := get?_facts_eq_some_iff.1 hfact
      have hentry := get?_eq_some_iff.1 hvalue
      obtain ⟨s', hs', htext⟩ := htexts _ (.inr ⟨_, hentry, rfl⟩)
      rcases hs' with ⟨holder', -, rfl⟩ | ⟨⟨name', value'⟩, hentry', rfl⟩
      · exact absurd htext (Statement.ofHolder_text_ne_ofEntry_text _ _ _)
      · obtain ⟨hname, rfl⟩ :=
          (Statement.ofEntry_text_eq_iff (hc' _ hentry') (hc _ hentry)).1 htext
        exact get?_facts_eq_some_iff.2 ⟨name', get?_eq_some_iff.2 hentry', hname⟩

/-! ### Cutting elsewhere -/

/-- Whether the properties of a content are some of another content. They may be cut elsewhere: what
ends the one schema stands at the beginning of each name under the other. -/
inductive CutFrom (c c' : Content) : Prop
  /-- Both have one schema. -/
  | same (hschema : c.schema = c'.schema)
      (hsub : ∀ name value, c.get? name = some value → c'.get? name = some value)
  /-- The schema of the first goes on where that of the other has ended. -/
  | later (middle : String) (hschema : c.schema = predicate c'.schema middle)
      (hsub : ∀ name value, c.get? name = some value →
        c'.get? (predicate middle name) = some value)
  /-- The schema of the first has ended where that of the other goes on. -/
  | earlier (middle : String) (hschema : c'.schema = predicate c.schema middle)
      (hsub : ∀ name value, c.get? name = some value →
        ∃ rest, name = predicate middle rest ∧ c'.get? rest = some value)

/-- Facts in common are properties with one predicate. -/
theorem facts_subset_iff :
    (∀ fact value, c.facts.get? fact = some value → c'.facts.get? fact = some value) ↔
      ∀ name value, c.get? name = some value →
        ∃ name', c'.get? name' = some value ∧
          predicate c'.schema name' = predicate c.schema name := by
  simp only [get?_facts_eq_some_iff]
  constructor
  · intro hsub name value hvalue
    exact hsub _ _ ⟨name, hvalue, rfl⟩
  · rintro hsub _ value ⟨name, hvalue, rfl⟩
    exact hsub name value hvalue

theorem CutFrom.facts_subset (hcut : c.CutFrom c') :
    ∀ fact value, c.facts.get? fact = some value → c'.facts.get? fact = some value := by
  rw [facts_subset_iff]
  intro name value hvalue
  cases hcut with
  | same hschema hsub => exact ⟨name, hsub name value hvalue, by rw [hschema]⟩
  | later middle hschema hsub =>
    exact ⟨_, hsub name value hvalue, by rw [hschema, predicate_assoc]⟩
  | earlier middle hschema hsub =>
    obtain ⟨rest, rfl, hrest⟩ := hsub name value hvalue
    exact ⟨rest, hrest, by rw [hschema, predicate_assoc]⟩

/-- One property shows where the schema ends, and all others are cut there too. -/
theorem CutFrom.of_facts_subset {shown : String} {value : Value}
    (hshown : c.get? shown = some value)
    (hfacts : ∀ fact value, c.facts.get? fact = some value → c'.facts.get? fact = some value) :
    c.CutFrom c' := by
  rw [facts_subset_iff] at hfacts
  obtain ⟨name, -, hname⟩ := hfacts shown value hshown
  rcases predicate_eq_iff.1 hname with ⟨hschema, -⟩ | ⟨middle, hschema, -⟩ | ⟨middle, hschema, -⟩
  · refine .same hschema.symm fun other value hother => ?_
    obtain ⟨other', hother', heq⟩ := hfacts other value hother
    rw [hschema] at heq
    rwa [← Statement.predicate_inj heq]
  · refine .later middle hschema fun other value hother => ?_
    obtain ⟨other', hother', heq⟩ := hfacts other value hother
    rw [hschema, predicate_assoc] at heq
    rwa [← Statement.predicate_inj heq]
  · refine .earlier middle hschema fun other value hother => ?_
    obtain ⟨other', hother', heq⟩ := hfacts other value hother
    rw [hschema, predicate_assoc] at heq
    exact ⟨other', (Statement.predicate_inj heq).symm, hother'⟩

/-- **How contents differ of which one says no more than the other**: in properties that are left
out, and in where the schema ends. -/
theorem saysNoMore_iff_cutFrom {shown : String} {value : Value}
    (hshown : c.get? shown = some value) :
    c.SaysNoMore c' ↔
      (∀ holder, c.holder = some holder → c'.holder = some holder) ∧ c.CutFrom c' :=
  and_congr_right' ⟨CutFrom.of_facts_subset hshown, CutFrom.facts_subset⟩

/-! ### Contents without separators -/

/-- Whether there is no separator in the schema or in the name of a property. -/
def Plain (c : Content) : Prop :=
  predicateSeparator ∉ c.schema.toList ∧ ∀ name ∈ c.names, predicateSeparator ∉ name.toList

instance (c : Content) : Decidable c.Plain :=
  inferInstanceAs (Decidable (_ ∧ ∀ name ∈ c.names, predicateSeparator ∉ name.toList))

/-- **A content without separators cannot be cut elsewhere.** -/
theorem CutFrom.of_plain {shown : String} {value : Value} (hcut : c.CutFrom c')
    (hplain : c'.Plain) (hshown : c.get? shown = some value) :
    c.schema = c'.schema ∧ ∀ name value, c.get? name = some value → c'.get? name = some value := by
  obtain ⟨hschema', hnames⟩ := hplain
  cases hcut with
  | same hschema hsub => exact ⟨hschema, hsub⟩
  | later middle hschema hsub =>
    have hmem : predicate middle shown ∈ c'.names :=
      List.mem_map_of_mem (get?_eq_some_iff.1 (hsub shown value hshown))
    exact absurd (separator_mem_predicate middle shown) (hnames _ hmem)
  | earlier middle hschema hsub =>
    rw [hschema] at hschema'
    exact absurd (separator_mem_predicate c.schema middle) hschema'

end Content

end SelectiveDisclosure
