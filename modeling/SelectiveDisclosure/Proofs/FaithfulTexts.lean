import SelectiveDisclosure.Proofs.Json.MemberOrder
import SelectiveDisclosure.Proofs.Json.Ranges
import SelectiveDisclosure.Proofs.Predicates
import SelectiveDisclosure.Testing.Samples

/-!
# The texts of statements are faithful

A statement is hashed as text, so the text has to say neither more nor less than is meant. What is
meant is the predicate and the value, and of the value not the order in which the members of objects
happen to stand. So two properties have one text exactly if they are the same fact: two issuers that
put members in a different order commit to the same bytes, and no two facts that differ otherwise
can be taken for each other.

A statement about a holder is no fact about a property. Its predicate has no separator in it, and
every other predicate has one.

## Main results

* `Statement.text_eq_iff` — two properties have one text exactly if their predicates are equal and
  their values are the same up to the order of members.
* `Content.forall₂_propertyStatements` — there is one statement for each property.
* `Statement.faithful_texts` — both together, with the statements about holders.
-/

namespace SelectiveDisclosure

variable {schema schema' property property' holder : String} {value value' : Json}
  {s s' : Statement}

namespace Statement

/-- **Two properties have one text exactly if they are the same fact.** -/
theorem text_eq_iff (hs : ofProperty schema property value = .ok s)
    (hs' : ofProperty schema' property' value' = .ok s') (hvalue : value.Integral)
    (hvalue' : value'.Integral) :
    s.text = s'.text ↔
      predicate schema property = predicate schema' property' ∧ value.Reordered value' := by
  obtain ⟨-, -, rfl⟩ := ofProperty_eq_ok_iff.1 hs
  obtain ⟨-, -, rfl⟩ := ofProperty_eq_ok_iff.1 hs'
  rw [textOf_eq_iff (Json.everyNumber_sorted value hvalue) (Json.everyNumber_sorted value' hvalue'),
    Json.sorted_eq_iff_reordered]

/-- No property has the text of a statement about a holder. -/
theorem ofHolder_text_ne (hs : ofProperty schema property value = .ok s) :
    (ofHolder holder).text ≠ s.text := by
  obtain ⟨-, -, rfl⟩ := ofProperty_eq_ok_iff.1 hs
  intro h
  exact predicate_ne_holderPredicate schema property (textOf_inj h).1.symm

end Statement

/-- There is one statement for each property, in the order of their names. -/
theorem Content.forall₂_propertyStatements {c : Content} {ss : List Statement}
    (hss : c.statements = .ok ss) :
    List.Forall₂ (fun entry s => Statement.ofProperty c.schema entry.1 entry.2.json = .ok s)
      c.properties.entries c.propertyStatements := by
  obtain ⟨-, hall, -⟩ := statements_eq_ok_iff.1 hss
  rw [propertyStatements, List.forall₂_map_right_iff, List.forall₂_same]
  intro entry hentry
  exact ofProperty_eq_ok_iff.2 ⟨hall entry hentry, rfl⟩

namespace Statement

/-- **The texts of statements are faithful.** Two properties with whole numbers have one text
exactly if they have one predicate and their values are the same up to the order of members. A
statement about a holder has the text of no property, and that of another holder's only if the
holders are one. So a content has one statement for its holder, if it has one, and one for each
property, and no two of them have one text. -/
theorem faithful_texts :
    (∀ schema property value s schema' property' value' s',
        ofProperty schema property value = .ok s → ofProperty schema' property' value' = .ok s' →
          value.Integral → value'.Integral →
            (s.text = s'.text ↔ predicate schema property = predicate schema' property' ∧
              value.Reordered value')) ∧
      (∀ holder schema property value s, ofProperty schema property value = .ok s →
        (ofHolder holder).text ≠ s.text) ∧
      (∀ holder holder', (ofHolder holder).text = (ofHolder holder').text ↔ holder = holder') ∧
      ∀ (c : Content) ss, c.statements = .ok ss →
        (∃ properties, ss = (c.holder.map ofHolder).toList ++ properties ∧
          List.Forall₂ (fun entry s => ofProperty c.schema entry.1 entry.2.json = .ok s)
            c.properties.entries properties) ∧
          ss.Pairwise fun s s' => s.text ≠ s'.text := by
  refine ⟨fun _ _ _ _ _ _ _ _ => text_eq_iff, fun _ _ _ _ _ => ofHolder_text_ne,
    fun _ _ => ⟨ofHolder_text_inj, fun heq => heq ▸ rfl⟩, fun c ss hss => ⟨?_, ?_⟩⟩
  · obtain ⟨-, -, hparts⟩ := Content.statements_eq_ok_iff.1 hss
    exact ⟨c.propertyStatements, hparts, Content.forall₂_propertyStatements hss⟩
  · exact Content.pairwise_text_ne hss

end Statement

namespace Sample

/-- An address, with members at two depths. -/
def address : Json :=
  .object [("street", .array [.object [("name", .string "Markt"), ("number", .number (.whole 7))]]),
    ("city", .string "Bonn")]

/-- The same address with the members at both depths the other way round. -/
def addressTurned : Json :=
  .object [("city", .string "Bonn"),
    ("street", .array [.object [("number", .number (.whole 7)), ("name", .string "Markt")]])]

end Sample

namespace Statement

/-- One text for an address whose members are turned round and whose predicate is cut elsewhere, and
for nothing but an address. -/
theorem faithful_texts_of_address :
    ∃ s s', ofProperty "person#home" "address" Sample.address = .ok s ∧
      ofProperty "person" "home#address" Sample.addressTurned = .ok s' ∧
        Sample.address ≠ Sample.addressTurned ∧ s.text = s'.text ∧
          (ofHolder "alice").text ≠ s.text ∧ (ofHolder "alice").text ≠ (ofHolder "bob").text ∧
            ∃ ss, Sample.home.statements = .ok ss ∧ ss.Pairwise fun s s' => s.text ≠ s'.text := by
  obtain ⟨htexts, hholder, hholders, hcontents⟩ := faithful_texts
  have hs : ofProperty "person#home" "address" Sample.address =
      .ok ⟨"address", textOf (predicate "person#home" "address") Sample.address.sorted⟩ := rfl
  have hs' : ofProperty "person" "home#address" Sample.addressTurned =
      .ok ⟨"home#address", textOf (predicate "person" "home#address")
        Sample.addressTurned.sorted⟩ := rfl
  obtain ⟨ss, hss⟩ : ∃ ss, Sample.home.statements = .ok ss := ⟨_, rfl⟩
  refine ⟨_, _, hs, hs', by decide, ?_, hholder _ _ _ _ _ hs, ?_, ss, hss, (hcontents _ _ hss).2⟩
  · exact (htexts _ _ _ _ _ _ _ _ hs hs' (by decide) (by decide)).2 ⟨by decide, by decide⟩
  · exact fun htext => absurd ((hholders _ _).1 htext) (by decide)

end Statement

end SelectiveDisclosure
