import SelectiveDisclosure.Json.Basic

/-!
# Editing JSON values

An edit changes the place in a value that a path of names and indices leads to. A path that leads
nowhere is refused, except that its last name may be new where a member is set, and may be missing
where one is deleted.

## Main definitions

* `Json.Step` — a name or an index on a path.
* `Json.Change` — what is done at the place.
* `Json.edit?` — the value with the change made.

## Main results

* `Json.edit?_set_nil` — setting at the empty path replaces the whole value.
-/

namespace SelectiveDisclosure.Json

/-- A step on a path into a value. -/
inductive Step where
  | name (name : String)
  | index (index : Nat)
  deriving DecidableEq, Repr

/-- What is done at the place that a path leads to. -/
inductive Change where
  /-- The place is given a value. -/
  | set (value : Json)
  /-- The place is removed from the array or object around it. -/
  | delete
  /-- The items of the array there are put in reverse order. -/
  | reverse
  /-- A value is put behind the last item of the array there. -/
  | push (value : Json)

/-- Changes the value of the first member with a name; none if there is no such member or the change
cannot be made. -/
def editMember (f : Json → Option Json) (name : String) :
    List (String × Json) → Option (List (String × Json))
  | [] => none
  | (n, v) :: rest =>
    if n = name then (f v).map fun v => (n, v) :: rest
    else (editMember f name rest).map ((n, v) :: ·)

/-- Changes the item at an index; none if there is no such item or the change cannot be made. -/
def editItem (f : Json → Option Json) : (index : Nat) → List Json → Option (List Json)
  | _, [] => none
  | 0, item :: rest => (f item).map (· :: rest)
  | index + 1, item :: rest => (editItem f index rest).map (item :: ·)

/-- Makes a change at the value at hand. -/
def changeHere (change : Change) (j : Json) : Option Json :=
  match change, j with
  | .set value, _ => some value
  | .reverse, .array items => some (.array items.reverse)
  | .push value, .array items => some (.array (items ++ [value]))
  | _, _ => none

/-- Makes a change at the place that a path leads to. -/
def edit? (change : Change) : (path : List Step) → Json → Option Json
  | [], j => changeHere change j
  | [.name name], .object members =>
    match change with
    | .delete => some (.object (members.filter (·.1 ≠ name)))
    | .set value =>
      some (.object ((editMember (fun _ => some value) name members).getD
        (members ++ [(name, value)])))
    | _ => (editMember (changeHere change) name members).map .object
  | [.index index], .array items =>
    match change with
    | .delete => if index < items.length then some (.array (items.eraseIdx index)) else none
    | _ => (editItem (changeHere change) index items).map .array
  | .name name :: step :: path, .object members =>
    (editMember (edit? change (step :: path)) name members).map .object
  | .index index :: step :: path, .array items =>
    (editItem (edit? change (step :: path)) index items).map .array
  | _, _ => none

theorem edit?_set_nil (value j : Json) : edit? (.set value) [] j = some value := by
  simp [edit?, changeHere]

end SelectiveDisclosure.Json
