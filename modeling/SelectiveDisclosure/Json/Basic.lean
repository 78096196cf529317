import SelectiveDisclosure.Decimal.Binary64
import SelectiveDisclosure.OrderedMap

/-!
# JSON values

A JSON value keeps the members of its objects in the order they were put there. Values of
properties forget that order, so they are held sorted: `Value` is a JSON value whose objects list
their members with strictly ascending names at every depth.

Numbers are whole numbers or finite binary64 numbers, and these two are kept apart: `1` and `1.0`
are different values with different texts.

## Main definitions

* `Json`, `Number` — JSON values and numbers.
* `Json.sorted` — the same value with sorted members; of several members with one name the last
  stays.
* `Json.Sorted` — the members are sorted at every depth.
* `Json.height` — how deeply arrays and objects are nested.
* `Value` — a sorted JSON value.

## Main results

* `Json.sorted_sorted` — sorting sorts.
* `Json.Sorted.sorted_eq` — sorting leaves a sorted value alone.
-/

namespace SelectiveDisclosure

/-- A number of JSON: a whole number, or a binary64 number. -/
inductive Number where
  | whole (n : Int)
  | real (x : Binary64)
  deriving DecidableEq

/-- A JSON value. Members of objects stand in the order they were put there. -/
inductive Json where
  | null
  | bool (b : Bool)
  | number (n : Number)
  | string (s : String)
  | array (items : List Json)
  | object (members : List (String × Json))

namespace Json

instance : Inhabited Json := ⟨null⟩

/-! ### Equality -/

mutual

/-- Decides whether two values are equal. -/
def decEq : (a b : Json) → Decidable (a = b)
  | .null, .null => isTrue rfl
  | .bool a, .bool b => decidable_of_iff (a = b) (by simp)
  | .number a, .number b => decidable_of_iff (a = b) (by simp)
  | .string a, .string b => decidable_of_iff (a = b) (by simp)
  | .array a, .array b =>
    match decEqItems a b with
    | isTrue h => isTrue (by rw [h])
    | isFalse h => isFalse (by simpa using h)
  | .object a, .object b =>
    match decEqMembers a b with
    | isTrue h => isTrue (by rw [h])
    | isFalse h => isFalse (by simpa using h)
  | .null, .bool _ | .null, .number _ | .null, .string _ | .null, .array _ | .null, .object _
  | .bool _, .null | .bool _, .number _ | .bool _, .string _ | .bool _, .array _
  | .bool _, .object _
  | .number _, .null | .number _, .bool _ | .number _, .string _ | .number _, .array _
  | .number _, .object _
  | .string _, .null | .string _, .bool _ | .string _, .number _ | .string _, .array _
  | .string _, .object _
  | .array _, .null | .array _, .bool _ | .array _, .number _ | .array _, .string _
  | .array _, .object _
  | .object _, .null | .object _, .bool _ | .object _, .number _ | .object _, .string _
  | .object _, .array _ => isFalse (by simp)

/-- Decides whether two lists of items are equal. -/
def decEqItems : (a b : List Json) → Decidable (a = b)
  | [], [] => isTrue rfl
  | [], _ :: _ | _ :: _, [] => isFalse (by simp)
  | a :: as, b :: bs =>
    match decEq a b, decEqItems as bs with
    | isTrue h, isTrue h' => isTrue (by rw [h, h'])
    | isFalse h, _ => isFalse (by simp [h])
    | _, isFalse h => isFalse (by simp [h])

/-- Decides whether two lists of members are equal. -/
def decEqMembers : (a b : List (String × Json)) → Decidable (a = b)
  | [], [] => isTrue rfl
  | [], _ :: _ | _ :: _, [] => isFalse (by simp)
  | (k, a) :: as, (l, b) :: bs =>
    if hk : k = l then
      match decEq a b, decEqMembers as bs with
      | isTrue h, isTrue h' => isTrue (by rw [hk, h, h'])
      | isFalse h, _ => isFalse (by simp [h])
      | _, isFalse h => isFalse (by simp [h])
    else isFalse (by simp [hk])

end

instance : DecidableEq Json := decEq

/-! ### Sorted members -/

mutual

/-- The value with the members of every object sorted by name. Of several members with one name the
last stays. -/
def sorted : Json → Json
  | .array items => .array (sortedItems items)
  | .object members => .object (sortedMembers [] members)
  | .null => .null
  | .bool b => .bool b
  | .number n => .number n
  | .string s => .string s

/-- The items, each sorted. -/
def sortedItems : List Json → List Json
  | [] => []
  | item :: rest => item.sorted :: sortedItems rest

/-- The members, each sorted, put in their places in a list of sorted ones. -/
def sortedMembers (placed : List (String × Json)) : List (String × Json) → List (String × Json)
  | [] => placed
  | (name, value) :: rest => sortedMembers (OrderedMap.insertEntry name value.sorted placed) rest

end

mutual

/-- The members of every object are listed with strictly ascending names. -/
def Sorted : Json → Prop
  | .array items => SortedItems items
  | .object members => members.Pairwise (fun a b => a.1 < b.1) ∧ SortedMembers members
  | .null | .bool _ | .number _ | .string _ => True

/-- Every item is sorted. -/
def SortedItems : List Json → Prop
  | [] => True
  | item :: rest => item.Sorted ∧ SortedItems rest

/-- The value of every member is sorted. -/
def SortedMembers : List (String × Json) → Prop
  | [] => True
  | (_, value) :: rest => value.Sorted ∧ SortedMembers rest

end

theorem sortedMembers_iff {members : List (String × Json)} :
    SortedMembers members ↔ ∀ e ∈ members, e.2.Sorted := by
  induction members with
  | nil => simp [SortedMembers]
  | cons e rest ih => simp [SortedMembers, ih]

mutual

/-- Sorting sorts. -/
theorem sorted_sorted : (j : Json) → j.sorted.Sorted
  | .null | .bool _ | .number _ | .string _ => by simp [sorted, Sorted]
  | .array items => by simpa [sorted, Sorted] using sortedItems_sorted items
  | .object members => by
    simpa [sorted, Sorted] using sortedMembers_sorted members .nil (by simp [SortedMembers])

theorem sortedItems_sorted : (items : List Json) → SortedItems (sortedItems items)
  | [] => by simp [sortedItems, SortedItems]
  | item :: rest => by
    simpa [sortedItems, SortedItems] using ⟨sorted_sorted item, sortedItems_sorted rest⟩

theorem sortedMembers_sorted : (members : List (String × Json)) → {placed : List (String × Json)} →
    placed.Pairwise (fun a b => a.1 < b.1) → SortedMembers placed →
    (sortedMembers placed members).Pairwise (fun a b => a.1 < b.1) ∧
      SortedMembers (sortedMembers placed members)
  | [], _, h, h' => ⟨h, h'⟩
  | (name, value) :: rest, placed, h, h' => by
    rw [sortedMembers]
    refine sortedMembers_sorted rest (OrderedMap.ascending_insertEntry _ _ h) ?_
    rw [sortedMembers_iff] at h' ⊢
    intro e he
    rcases OrderedMap.mem_insertEntry he with rfl | he
    · exact sorted_sorted value
    · exact h' e he

end

theorem insertEntry_last {name : String} {value : Json} {placed : List (String × Json)}
    (h : ∀ e ∈ placed, e.1 < name) :
    OrderedMap.insertEntry name value placed = placed ++ [(name, value)] := by
  induction placed with
  | nil => rfl
  | cons e rest ih =>
    have he := h e (by simp)
    simp [OrderedMap.insertEntry, Std.not_gt_of_lt he, (Std.ne_of_lt he).symm,
      ih fun x hx => h x (by simp [hx])]

mutual

/-- Sorting leaves a sorted value alone. -/
theorem Sorted.sorted_eq : {j : Json} → j.Sorted → j.sorted = j
  | .null, _ | .bool _, _ | .number _, _ | .string _, _ => by simp [sorted]
  | .array items, h => by
    rw [Sorted] at h
    rw [sorted, SortedItems.sortedItems_eq h]
  | .object members, h => by
    rw [Sorted] at h
    have hm : sortedMembers [] members = [] ++ members :=
      SortedMembers.sortedMembers_eq h.2 h.1
    rw [sorted, hm, List.nil_append]

theorem SortedItems.sortedItems_eq : {items : List Json} → SortedItems items →
    sortedItems items = items
  | [], _ => rfl
  | item :: rest, h => by
    rw [SortedItems] at h
    rw [sortedItems, Sorted.sorted_eq h.1, SortedItems.sortedItems_eq h.2]

theorem SortedMembers.sortedMembers_eq : {members placed : List (String × Json)} →
    SortedMembers members → (placed ++ members).Pairwise (fun a b => a.1 < b.1) →
    sortedMembers placed members = placed ++ members
  | [], placed, _, _ => by simp [sortedMembers]
  | (name, value) :: rest, placed, h, h' => by
    rw [SortedMembers] at h
    have hp : ∀ e ∈ placed, e.1 < name := fun e he =>
      (List.pairwise_append.1 h').2.2 e he (name, value) (by simp)
    rw [sortedMembers, Sorted.sorted_eq h.1, insertEntry_last hp,
      SortedMembers.sortedMembers_eq h.2 (by simpa using h')]
    simp

end

/-! ### Nesting -/

mutual

/-- How deeply arrays and objects are nested: zero for a value that is neither. -/
def height : Json → Nat
  | .array items => heightItems items + 1
  | .object members => heightMembers members + 1
  | .null | .bool _ | .number _ | .string _ => 0

/-- The greatest height of the items. -/
def heightItems : List Json → Nat
  | [] => 0
  | item :: rest => max item.height (heightItems rest)

/-- The greatest height of the values of members. -/
def heightMembers : List (String × Json) → Nat
  | [] => 0
  | (_, value) :: rest => max value.height (heightMembers rest)

end

/-! ### Access -/

/-- The last member of an object with a name. -/
def member? (name : String) : Json → Option Json
  | .object members => OrderedMap.lookup name members.reverse
  | _ => none

end Json

/-- A JSON value whose objects list their members with strictly ascending names: what a property of
a content holds. -/
structure Value where
  json : Json
  sorted : json.Sorted

namespace Value

instance : DecidableEq Value := fun a b =>
  decidable_of_iff (a.json = b.json) ⟨fun h => by cases a; cases b; cases h; rfl, fun h => h ▸ rfl⟩

theorem ext_json {a b : Value} (h : a.json = b.json) : a = b := by
  cases a; cases b; congr

/-- A JSON value with its members sorted. -/
def ofJson (j : Json) : Value := ⟨j.sorted, j.sorted_sorted⟩

instance : Inhabited Value := ⟨ofJson .null⟩

end Value

end SelectiveDisclosure
