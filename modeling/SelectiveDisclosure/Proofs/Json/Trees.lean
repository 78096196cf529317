import SelectiveDisclosure.Json.Tree

/-!
# How deeply a tree may nest

A tree has a value only if there is room for all the arrays and objects that it nests. For the tree
of a value nothing else can go wrong, so room is the exact condition under which the value is read
from it again.

## Main results

* `Tree.height_ofJson` — the tree of a value nests as deeply as the value.
* `Tree.height_le_of_toJson?` — a tree that has a value nests no deeper than there is room.
* `Tree.toJson?_ofJson_eq` — the tree of a value has a value exactly if there is room for it.
* `Json.heightItems_le_iff`, `Json.heightMembers_le_iff` — how deeply items and members nest.
-/

namespace SelectiveDisclosure

namespace Json

theorem heightItems_le_iff {items : List Json} {n : Nat} :
    heightItems items ≤ n ↔ ∀ j ∈ items, j.height ≤ n := by
  induction items with
  | nil => simp [heightItems]
  | cons j rest ih => simp only [heightItems, Nat.max_le, ih, List.forall_mem_cons]

theorem heightMembers_le_iff {members : List (String × Json)} {n : Nat} :
    heightMembers members ≤ n ↔ ∀ e ∈ members, e.2.height ≤ n := by
  induction members with
  | nil => simp [heightMembers]
  | cons e rest ih => simp only [heightMembers, Nat.max_le, ih, List.forall_mem_cons]

end Json

namespace Tree

mutual

/-- The tree of a value nests as deeply as the value. -/
theorem height_ofJson : (j : Json) → (ofJson j).height = j.height
  | .null | .bool _ | .number _ | .string _ => by rw [ofJson, height, Json.height]
  | .array items => by rw [ofJson, height, Json.height, heightItems_ofItems items]
  | .object members => by rw [ofJson, height, Json.height, heightMembers_ofMembers members]

theorem heightItems_ofItems : (items : List Json) →
    heightItems (ofItems items) = Json.heightItems items
  | [] => by rw [ofItems, heightItems, Json.heightItems]
  | item :: rest => by
    rw [ofItems, heightItems, Json.heightItems, height_ofJson item, heightItems_ofItems rest]

theorem heightMembers_ofMembers : (members : List (String × Json)) →
    heightMembers (ofMembers members) = Json.heightMembers members
  | [] => by rw [ofMembers, heightMembers, Json.heightMembers]
  | (name, value) :: rest => by
    rw [ofMembers, heightMembers, Json.heightMembers, height_ofJson value,
      heightMembers_ofMembers rest]

end

mutual

/-- A tree that has a value nests no deeper than there is room. -/
theorem height_le_of_toJson? : {room : Nat} → (t : Tree) → {j : Json} →
    toJson? room t = some j → t.height ≤ room
  | room, .null, _, _ | room, .bool _, _, _ | room, .number _, _, _ | room, .string _, _, _ => by
    rw [height]
    exact Nat.zero_le room
  | 0, .array _ true, j, h | 0, .array _ false, j, h | _ + 1, .array _ false, j, h
  | 0, .object _ true, j, h | 0, .object _ false, j, h | _ + 1, .object _ false, j, h
  | _, .broken, j, h =>
    nomatch (show none = some j from h)
  | room + 1, .array items true, _, h => by
    rw [toJson?, Option.map_eq_some_iff] at h
    obtain ⟨values, hitems, -⟩ := h
    rw [height]
    exact Nat.succ_le_succ (heightItems_le_of_toItems? items hitems)
  | room + 1, .object members true, _, h => by
    rw [toJson?, Option.map_eq_some_iff] at h
    obtain ⟨placed, hmembers, -⟩ := h
    rw [height]
    exact Nat.succ_le_succ (heightMembers_le_of_toMembers? members hmembers)

theorem heightItems_le_of_toItems? : {room : Nat} → (items : List Tree) → {values : List Json} →
    toItems? room items = some values → heightItems items ≤ room
  | room, [], _, _ => by
    rw [heightItems]
    exact Nat.zero_le room
  | room, item :: rest, _, h => by
    simp only [toItems?, Option.bind_eq_bind, Option.bind_eq_some_iff] at h
    obtain ⟨value, hitem, others, hrest, -⟩ := h
    rw [heightItems, Nat.max_le]
    exact ⟨height_le_of_toJson? item hitem, heightItems_le_of_toItems? rest hrest⟩

theorem heightMembers_le_of_toMembers? : {room : Nat} → {placed : List (String × Json)} →
    (members : List (Option String × Tree)) → {values : List (String × Json)} →
    toMembers? room placed members = some values → heightMembers members ≤ room
  | room, _, [], _, _ => by
    rw [heightMembers]
    exact Nat.zero_le room
  | room, placed, (name, tree) :: rest, _, h => by
    simp only [toMembers?, Option.bind_eq_bind, Option.bind_eq_some_iff] at h
    obtain ⟨found, -, value, htree, hrest⟩ := h
    rw [heightMembers, Nat.max_le]
    exact ⟨height_le_of_toJson? tree htree, heightMembers_le_of_toMembers? rest hrest⟩

end

/-- **The tree of a value has a value exactly if there is room for it**: the value with its members
sorted. -/
theorem toJson?_ofJson_eq (room : Nat) (j : Json) :
    toJson? room (ofJson j) = if j.height ≤ room then some j.sorted else none := by
  split
  · next h => exact toJson?_ofJson j h
  · next h =>
    cases hread : toJson? room (ofJson j) with
    | none => rfl
    | some value => exact absurd (height_ofJson j ▸ height_le_of_toJson? _ hread) h

end Tree

end SelectiveDisclosure
