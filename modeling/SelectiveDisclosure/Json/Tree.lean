import SelectiveDisclosure.Json.Basic

/-!
# JSON trees

A tree is what a JSON text shows when it is read from left to right: members in the order of the
text, with repeated names, and up to the place where the text goes wrong if it does. Keeping all
this lets a record be read from a tree with the first problem of the text reported, be it one of
form or one of shape.

Two things are well-formed on the page but have no value: a number beyond the range of binary64, and
a string with half of a surrogate pair. They matter only if somebody asks for their value.

## Main definitions

* `Tree` — a JSON text as far as it can be read.
* `Tree.whole` — nothing in the tree is broken off.
* `Tree.ofJson` — the tree of a value.
* `Tree.toJson?` — the value of a tree, if it has one and it is not nested too deeply.
* `Tree.height` — how deeply arrays and objects are nested.

## Main results

* `Tree.toJson?_ofJson` — the tree of a value has that value, with its members sorted.
-/

namespace SelectiveDisclosure

/-- A JSON text as far as it can be read. The flag of an array or object tells whether its end was
found. -/
inductive Tree where
  | null
  | bool (b : Bool)
  /-- A number, without a value if it is beyond the range. -/
  | number (n : Option Number)
  /-- A string, without a value if it holds half of a surrogate pair. -/
  | string (s : Option String)
  | array (items : List Tree) (closed : Bool)
  | object (members : List (Option String × Tree)) (closed : Bool)
  /-- The place where a value should stand and the text goes wrong. -/
  | broken

namespace Tree

instance : Inhabited Tree := ⟨broken⟩

mutual

/-- Whether nothing in the tree is broken off. -/
def whole : Tree → Bool
  | .null | .bool _ | .number _ | .string _ => true
  | .array items closed => wholeItems items && closed
  | .object members closed => wholeMembers members && closed
  | .broken => false

/-- Whether no item is broken off. -/
def wholeItems : List Tree → Bool
  | [] => true
  | item :: rest => item.whole && wholeItems rest

/-- Whether no member is broken off. -/
def wholeMembers : List (Option String × Tree) → Bool
  | [] => true
  | (_, value) :: rest => value.whole && wholeMembers rest

end

mutual

/-- How deeply arrays and objects are nested. -/
def height : Tree → Nat
  | .array items _ => heightItems items + 1
  | .object members _ => heightMembers members + 1
  | .null | .bool _ | .number _ | .string _ | .broken => 0

/-- The greatest height of the items. -/
def heightItems : List Tree → Nat
  | [] => 0
  | item :: rest => max item.height (heightItems rest)

/-- The greatest height of the values of members. -/
def heightMembers : List (Option String × Tree) → Nat
  | [] => 0
  | (_, value) :: rest => max value.height (heightMembers rest)

end

mutual

/-- The tree of a value. -/
def ofJson : Json → Tree
  | .null => .null
  | .bool b => .bool b
  | .number n => .number (some n)
  | .string s => .string (some s)
  | .array items => .array (ofItems items) true
  | .object members => .object (ofMembers members) true

/-- The trees of the items. -/
def ofItems : List Json → List Tree
  | [] => []
  | item :: rest => ofJson item :: ofItems rest

/-- The trees of the members. -/
def ofMembers : List (String × Json) → List (Option String × Tree)
  | [] => []
  | (name, value) :: rest => (some name, ofJson value) :: ofMembers rest

end

mutual

/-- The value of a tree, with sorted members, unless the tree is broken off, holds something without
a value, or nests more than `room` arrays and objects. -/
def toJson? : (room : Nat) → Tree → Option Json
  | _, .null => some .null
  | _, .bool b => some (.bool b)
  | _, .number n => n.map .number
  | _, .string s => s.map .string
  | room + 1, .array items true => (toItems? room items).map .array
  | room + 1, .object members true => (toMembers? room [] members).map .object
  | _, .array _ _ => none
  | _, .object _ _ => none
  | _, .broken => none

/-- The values of the items. -/
def toItems? (room : Nat) : List Tree → Option (List Json)
  | [] => some []
  | item :: rest => do
    let value ← toJson? room item
    return value :: (← toItems? room rest)

/-- The values of the members, put in their places in a list of sorted ones. -/
def toMembers? (room : Nat) (placed : List (String × Json)) :
    List (Option String × Tree) → Option (List (String × Json))
  | [] => some placed
  | (name, tree) :: rest => do
    let name ← name
    let value ← toJson? room tree
    toMembers? room (OrderedMap.insertEntry name value placed) rest

end

mutual

/-- The tree of a value has that value, with its members sorted. -/
theorem toJson?_ofJson : {room : Nat} → (j : Json) → j.height ≤ room →
    toJson? room (ofJson j) = some j.sorted
  | _, .null, _ | _, .bool _, _ | _, .number _, _ | _, .string _, _ => by
    simp [ofJson, toJson?, Json.sorted]
  | 0, .array _, h | 0, .object _, h => by simp [Json.height] at h
  | room + 1, .array items, h => by
    simp [Json.height] at h
    simp [ofJson, toJson?, Json.sorted, toItems?_ofItems items h]
  | room + 1, .object members, h => by
    simp [Json.height] at h
    simp [ofJson, toJson?, Json.sorted, toMembers?_ofMembers members h]

theorem toItems?_ofItems : {room : Nat} → (items : List Json) → Json.heightItems items ≤ room →
    toItems? room (ofItems items) = some (Json.sortedItems items)
  | _, [], _ => by simp [ofItems, toItems?, Json.sortedItems]
  | room, item :: rest, h => by
    rw [Json.heightItems, Nat.max_le] at h
    simp [ofItems, toItems?, Json.sortedItems, toJson?_ofJson item h.1, toItems?_ofItems rest h.2]

theorem toMembers?_ofMembers : {room : Nat} → {placed : List (String × Json)} →
    (members : List (String × Json)) → Json.heightMembers members ≤ room →
    toMembers? room placed (ofMembers members) = some (Json.sortedMembers placed members)
  | _, _, [], _ => by simp [ofMembers, toMembers?, Json.sortedMembers]
  | room, placed, (name, value) :: rest, h => by
    rw [Json.heightMembers, Nat.max_le] at h
    simp [ofMembers, toMembers?, Json.sortedMembers, toJson?_ofJson value h.1,
      toMembers?_ofMembers rest h.2]

end

end Tree

end SelectiveDisclosure
