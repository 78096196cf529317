import Mathlib.Data.List.Forall2
import Mathlib.Data.List.Nodup
import SelectiveDisclosure.Json.Basic

/-!
# Values up to the order of members

The members of an object are in no order that means anything, and neither are those of the objects
within it. Two values are the same up to this order exactly if they have one sorted form: sorting
undoes every change of the order, and nothing else.

Where several members of an object have one name, the last of them counts. An object that was read
as a map has no such members, and then all of them count.

## Main definitions

* `Json.counted` — the members of an object that count.
* `Json.Reordered` — two values are the same up to the order of members, at every depth.

## Main results

* `Json.lookup_sortedMembers_eq_some_iff` — what is found under a name after sorting.
* `Json.Reordered.of_perm` — members with different names may stand in any order.
* `Json.sorted_eq_iff_reordered` — values have one sorted form exactly if they are the same up to
  the order of members.
-/

namespace SelectiveDisclosure

namespace Json

variable {members members' : List (String × Json)} {name : String} {value value' : Json}

/-! ### The members that count -/

/-- The members that count: of several with one name the last. -/
def counted : List (String × Json) → List (String × Json)
  | [] => []
  | e :: rest => if e.1 ∈ rest.map (·.1) then counted rest else e :: counted rest

theorem mem_counted_cons_iff {e e' : String × Json} {rest : List (String × Json)} :
    e ∈ counted (e' :: rest) ↔ (e'.1 ∉ rest.map (·.1) ∧ e = e') ∨ e ∈ counted rest := by
  rw [counted]
  split
  · next hlater => simp [hlater]
  · next hlast => simp [hlast]

theorem mem_names_counted_iff : name ∈ (counted members).map (·.1) ↔ name ∈ members.map (·.1) := by
  induction members with
  | nil => rfl
  | cons e rest ih =>
    rw [counted]
    split
    · next hlater =>
      rw [ih, List.map_cons, List.mem_cons]
      exact ⟨.inr, fun hname => hname.elim (fun heq => heq ▸ hlater) id⟩
    · rw [List.map_cons, List.map_cons, List.mem_cons, List.mem_cons, ih]

theorem nodup_names_counted (members : List (String × Json)) :
    ((counted members).map (·.1)).Nodup := by
  induction members with
  | nil => exact List.nodup_nil
  | cons e rest ih =>
    rw [counted]
    split
    · exact ih
    · next hlast =>
      rw [List.map_cons, List.nodup_cons, mem_names_counted_iff]
      exact ⟨hlast, ih⟩

/-- Where no name is repeated, all members count. -/
theorem counted_eq_self (h : (members.map (·.1)).Nodup) : counted members = members := by
  induction members with
  | nil => rfl
  | cons e rest ih =>
    rw [List.map_cons, List.nodup_cons] at h
    rw [counted, if_neg h.1, ih h.2]

/-- Under one name one value counts. -/
theorem eq_of_mem_counted (h : (name, value) ∈ counted members)
    (h' : (name, value') ∈ counted members) : value = value' :=
  congrArg Prod.snd (List.inj_on_of_nodup_map (nodup_names_counted members) h h' rfl)

theorem mem_of_mem_counted {e : String × Json} (h : e ∈ counted members) : e ∈ members := by
  induction members with
  | nil => exact h
  | cons e' rest ih =>
    rcases mem_counted_cons_iff.1 h with ⟨-, rfl⟩ | h
    · exact .head _
    · exact .tail _ (ih h)

/-! ### What sorting finds -/

/-- What is found under a name after sorting: the value that counts, sorted, or else what was there
before. -/
theorem lookup_sortedMembers_eq_some_iff {placed : List (String × Json)} {found : Json} :
    OrderedMap.lookup name (sortedMembers placed members) = some found ↔
      (∃ value, (name, value) ∈ counted members ∧ value.sorted = found) ∨
        name ∉ members.map (·.1) ∧ OrderedMap.lookup name placed = some found := by
  induction members generalizing placed with
  | nil => simp [sortedMembers, counted]
  | cons e rest ih =>
    obtain ⟨name', value'⟩ := e
    rw [sortedMembers, ih, OrderedMap.lookup_insertEntry]
    simp only [mem_counted_cons_iff, List.map_cons, List.mem_cons, Prod.mk.injEq]
    by_cases hname : name = name'
    · subst hname
      by_cases hlater : name ∈ rest.map (·.1)
      · simp [hlater]
      · have hfresh : ∀ value, (name, value) ∉ counted rest := by
          intro value hmem
          exact hlater (mem_names_counted_iff.1 (List.mem_map_of_mem hmem))
        simp [hlater, hfresh]
    · simp [hname]

/-- Objects have one sorted form exactly if the values that count under each name have. -/
theorem sorted_object_eq_iff :
    (object members).sorted = (object members').sorted ↔
      ∀ name found, (∃ value, (name, value) ∈ counted members ∧ value.sorted = found) ↔
        ∃ value, (name, value) ∈ counted members' ∧ value.sorted = found := by
  have hview : ∀ {members name found},
      OrderedMap.lookup name (sortedMembers [] members) = some found ↔
        ∃ value, (name, value) ∈ counted members ∧ value.sorted = found := by
    intro members name found
    rw [lookup_sortedMembers_eq_some_iff]
    simp [OrderedMap.lookup]
  simp only [← hview, sorted, object.injEq]
  constructor
  · intro heq name found
    rw [heq]
  · intro hlookup
    let asMap (members : List (String × Json)) : OrderedMap String Json :=
      ⟨sortedMembers [] members, (sortedMembers_sorted members .nil trivial).1⟩
    have hmaps : asMap members = asMap members' :=
      OrderedMap.ext_get? fun name => Option.ext fun found => hlookup name found
    exact congrArg OrderedMap.entries hmaps

/-! ### Change of order -/

/-- Whether two values are the same up to the order of members, at every depth. Arrays are if the
items at each place are. Objects are if they have the same names, in whatever order, and the values
under each name are. -/
inductive Reordered : Json → Json → Prop
  | refl (j : Json) : Reordered j j
  | array {items items' : List Json} (hlength : items.length = items'.length)
    (hitems : ∀ item item', (item, item') ∈ items.zip items' → Reordered item item') :
    Reordered (array items) (array items')
  | object {members members' : List (String × Json)}
    (hnames : ((counted members).map (·.1)).Perm ((counted members').map (·.1)))
    (hvalues : ∀ name value value', (name, value) ∈ counted members →
      (name, value') ∈ counted members' → Reordered value value') :
    Reordered (object members) (object members')

/-- Members with different names may stand in any order. -/
theorem Reordered.of_perm (hnodup : (members.map (·.1)).Nodup) (hperm : members.Perm members') :
    Reordered (Json.object members) (Json.object members') := by
  have hnames := hperm.map (·.1)
  have hcounted := counted_eq_self hnodup
  have hcounted' := counted_eq_self (hnames.nodup_iff.1 hnodup)
  refine .object ?_ fun name value value' hmem hmem' => ?_
  · rwa [hcounted, hcounted']
  · rw [hcounted', ← hperm.mem_iff, ← hcounted] at hmem'
    exact eq_of_mem_counted hmem hmem' ▸ .refl value

theorem sortedItems_eq_map (items : List Json) : sortedItems items = items.map sorted := by
  induction items with
  | nil => rfl
  | cons item rest ih => rw [sortedItems, ih, List.map_cons]

theorem sortedItems_eq_iff {items items' : List Json} :
    sortedItems items = sortedItems items' ↔
      items.length = items'.length ∧
        ∀ item item', (item, item') ∈ items.zip items' → item.sorted = item'.sorted := by
  rw [sortedItems_eq_map, sortedItems_eq_map, ← List.forall₂_eq_eq_eq, List.forall₂_map_left_iff,
    List.forall₂_map_right_iff, List.forall₂_iff_zip]

/-- Where the members that count have the same names, there is a value under each of them on both
sides. -/
theorem exists_mem_counted_of_perm
    (hnames : ((counted members).map (·.1)).Perm ((counted members').map (·.1)))
    (hmem : (name, value) ∈ counted members) : ∃ value', (name, value') ∈ counted members' := by
  obtain ⟨⟨_, value'⟩, hmem', rfl⟩ := List.mem_map.1 (hnames.mem_iff.1 (List.mem_map_of_mem hmem))
  exact ⟨value', hmem'⟩

/-- Sorting undoes every change of the order. -/
theorem Reordered.sorted_eq {j j' : Json} (h : Reordered j j') : j.sorted = j'.sorted := by
  induction h with
  | refl j => rfl
  | array hlength _ ih => rw [sorted, sorted, sortedItems_eq_iff.2 ⟨hlength, ih⟩]
  | object hnames _ ih =>
    refine sorted_object_eq_iff.2 fun name found => ⟨?_, ?_⟩
    · rintro ⟨value, hmem, rfl⟩
      obtain ⟨value', hmem'⟩ := exists_mem_counted_of_perm hnames hmem
      exact ⟨value', hmem', (ih name value value' hmem hmem').symm⟩
    · rintro ⟨value', hmem', rfl⟩
      obtain ⟨value, hmem⟩ := exists_mem_counted_of_perm hnames.symm hmem'
      exact ⟨value, hmem, ih name value value' hmem hmem'⟩

theorem reordered_object_of_sorted_eq (heq : (object members).sorted = (object members').sorted)
    (hvalues : ∀ e ∈ members, ∀ {j'}, e.2.sorted = j'.sorted → Reordered e.2 j') :
    Reordered (object members) (object members') := by
  rw [sorted_object_eq_iff] at heq
  refine .object ?_ fun name value value' hmem hmem' => ?_
  · refine (List.perm_ext_iff_of_nodup (nodup_names_counted _) (nodup_names_counted _)).2 ?_
    intro name
    have hnamed : ∀ members, name ∈ (counted members).map (·.1) ↔
        ∃ found value, (name, value) ∈ counted members ∧ value.sorted = found := by
      simp
    rw [hnamed, hnamed, exists_congr (heq name)]
  · obtain ⟨value'', hmem'', hsorted⟩ := (heq name value.sorted).1 ⟨value, hmem, rfl⟩
    obtain rfl := eq_of_mem_counted hmem' hmem''
    exact hvalues (name, value) (mem_of_mem_counted hmem) hsorted.symm

mutual

/-- Sorting undoes nothing but changes of the order. -/
theorem reordered_of_sorted_eq : (j : Json) → {j' : Json} → j.sorted = j'.sorted → Reordered j j'
  | .array items, .array items', h => by
    rw [sorted, sorted, array.injEq, sortedItems_eq_iff] at h
    exact .array h.1 fun item item' hpair =>
      reordered_of_mem_items items item (List.of_mem_zip hpair).1 (h.2 item item' hpair)
  | .object members, .object members', h =>
    reordered_object_of_sorted_eq h (reordered_of_mem_members members)
  | .null, .null, _ => .refl _
  | .bool b, .bool b', h => by
    rw [sorted, sorted] at h
    exact h ▸ .refl _
  | .number n, .number n', h => by
    rw [sorted, sorted] at h
    exact h ▸ .refl _
  | .string s, .string s', h => by
    rw [sorted, sorted] at h
    exact h ▸ .refl _

theorem reordered_of_mem_items : (items : List Json) → ∀ item ∈ items, ∀ {j' : Json},
    item.sorted = j'.sorted → Reordered item j'
  | [] => List.forall_mem_nil _
  | first :: rest =>
    List.forall_mem_cons.2 ⟨reordered_of_sorted_eq first, reordered_of_mem_items rest⟩

theorem reordered_of_mem_members : (members : List (String × Json)) → ∀ e ∈ members, ∀ {j' : Json},
    e.2.sorted = j'.sorted → Reordered e.2 j'
  | [] => List.forall_mem_nil _
  | (_, value) :: rest =>
    List.forall_mem_cons.2 ⟨reordered_of_sorted_eq value, reordered_of_mem_members rest⟩

end

/-- **Values have one sorted form exactly if they are the same up to the order of members.** -/
theorem sorted_eq_iff_reordered {j j' : Json} : j.sorted = j'.sorted ↔ Reordered j j' :=
  ⟨reordered_of_sorted_eq j, Reordered.sorted_eq⟩

instance (j j' : Json) : Decidable (Reordered j j') := decidable_of_iff _ sorted_eq_iff_reordered

end Json

end SelectiveDisclosure
