import SelectiveDisclosure.Fault
import SelectiveDisclosure.Json.Document
import SelectiveDisclosure.Json.Printer

/-!
# Reading records from JSON trees

A record is read from an object, or from an array of its fields in their order. The members of the
tree are visited in order and the first problem met is reported, whether the text is malformed or
well-formed and of the wrong shape. Missing fields are noticed at the end of the object.

Unknown members are skipped, a field that is given twice is a problem. Behind the last field that an
array gives, fields that may be missing take their defaults.

## Main definitions

* `Misread` — the problems, and `Misfit`, those of shape.
* `Origin` — whether a tree came from a text or from a value, and how deeply it may nest.
* `Field`, `Shape` — the fields of a record, read one by one into a draft of it.
* `Shape.read` — reads a record.
* `Origin.list`, `Origin.string`, `Origin.optional` — reads lists, strings and values that may be
  null.

## Implementation notes

A tree from a text may nest arrays and objects as deeply as `Document.room`, and an array that is
too long is a problem of form there: the text should have ended. A tree from a value was read
before, so neither applies.
-/

namespace SelectiveDisclosure

/-- Why a well-formed tree is not the record that is asked for. -/
inductive Misfit where
  | missingField (name : String)
  | duplicateField (name : String)
  /-- Something else stands where this should. -/
  | wrongType (found expected : String)
  /-- The array has too few items for a record of so many fields. -/
  | tooShort (found : Nat) (record : String) (fields : Nat)
  /-- The array has more items than the record has fields. -/
  | tooLong (found : Nat)
  /-- The text of a digest does not begin with `0x`. -/
  | unmarkedDigest (text : String)
  /-- A digest, signature or identifier cannot be read. -/
  | fault (fault : Fault)
  deriving DecidableEq, Repr

/-- The text of a misfit. -/
def Misfit.message : Misfit → String
  | .missingField name => "missing field `" ++ name ++ "`"
  | .duplicateField name => "duplicate field `" ++ name ++ "`"
  | .wrongType found expected => "invalid type: " ++ found ++ ", expected " ++ expected
  | .tooShort found record fields =>
    "invalid length " ++ toString found ++ ", expected " ++ record ++ " with " ++ toString fields ++
      " elements"
  | .tooLong found => "invalid length " ++ toString found ++ ", expected fewer elements in array"
  | .unmarkedDigest text => "digest " ++ text ++ " is missing the 0x prefix"
  | .fault cause => cause.message

/-- Why a record could not be read. -/
inductive Misread where
  /-- The text is not JSON, or nests too deeply. -/
  | malformed
  | misfit (cause : Misfit)
  deriving DecidableEq, Repr

/-- Where a tree comes from. -/
structure Origin where
  /-- How many arrays and objects may still be opened. -/
  room : Nat
  /-- Whether the tree was read from a text at once. -/
  text : Bool

namespace Origin

/-- The inside of an array or object. -/
def enter (o : Origin) : Except Misread Origin :=
  match o.room with
  | 0 => .error .malformed
  | room + 1 => .ok { o with room }

end Origin

/-- The problem that a tree is not what is expected. -/
def Tree.mismatch (expected : String) : Tree → Misread
  | .null => .misfit (.wrongType "null" expected)
  | .bool b => .misfit (.wrongType (if b then "boolean `true`" else "boolean `false`") expected)
  | .number (some n) =>
    let kind := match n with
      | .whole _ => "integer"
      | .real _ => "floating point"
    .misfit (.wrongType (kind ++ " `" ++ String.ofList n.chars ++ "`") expected)
  | .string (some s) => .misfit (.wrongType ("string " ++ Text.quoted s) expected)
  | .array _ _ => .misfit (.wrongType "sequence" expected)
  | .object _ _ => .misfit (.wrongType "map" expected)
  | .number none | .string none | .broken => .malformed

namespace Origin

/-- Reads a string. -/
def string (_ : Origin) : Tree → Except Misread String
  | .string (some s) => .ok s
  | tree => .error (tree.mismatch "a string")

/-- Reads a value that may be null. -/
def optional {α : Type} (item : Origin → Tree → Except Misread α) (o : Origin) :
    Tree → Except Misread (Option α)
  | .null => .ok none
  | tree => (item o tree).map some

/-- Reads a list. -/
def list {α : Type} (item : Origin → Tree → Except Misread α) (o : Origin) :
    Tree → Except Misread (List α)
  | .array items closed => do
    let inside ← o.enter
    let values ← items.mapM (item inside)
    if closed then .ok values else .error .malformed
  | tree => .error (tree.mismatch "a sequence")

/-- Reads the members of an object into a map, the last of several with one name staying. -/
def entries {α β : Type} (add : α → β → β) (member : Origin → String → Tree → Except Misread α)
    (inside : Origin) : β → List (Option String × Tree) → Except Misread β
  | map, [] => .ok map
  | _, (none, _) :: _ => .error .malformed
  | map, (some name, tree) :: rest => do
    entries add member inside (add (← member inside name tree) map) rest

/-- Reads an object into a map. -/
def map {α β : Type} (empty : β) (add : α → β → β)
    (member : Origin → String → Tree → Except Misread α) (o : Origin) : Tree → Except Misread β
  | .object members closed => do
    let inside ← o.enter
    let result ← entries add member inside empty members
    if closed then .ok result else .error .malformed
  | tree => .error (tree.mismatch "a map")

/-- Reads any value. -/
def json (o : Origin) (tree : Tree) : Except Misread Json :=
  match tree.toJson? o.room with
  | some j => .ok j
  | none => .error .malformed

end Origin

/-! ### Records -/

/-- A field of a record, of which a draft of type `σ` is filled in. -/
structure Field (σ : Type) where
  name : String
  /-- Whether the field may be missing. -/
  optional : Bool
  /-- Whether the draft has the field already. -/
  given : σ → Bool
  /-- Reads the field into the draft. -/
  read : Origin → Tree → σ → Except Misread σ

/-- The fields of a record, in their order, and what it is called in reports. -/
structure Shape (σ : Type) where
  name : String
  fields : List (Field σ)

namespace Shape

variable {σ : Type}

/-- Reads the members of an object. -/
def readMembers (shape : Shape σ) (inside : Origin) :
    σ → List (Option String × Tree) → Except Misread σ
  | draft, [] => .ok draft
  | _, (none, _) :: _ => .error .malformed
  | draft, (some name, tree) :: rest =>
    match shape.fields.find? (·.name = name) with
    | none => if tree.whole then readMembers shape inside draft rest else .error .malformed
    | some field =>
      if field.given draft then .error (.misfit (.duplicateField name))
      else do readMembers shape inside (← field.read inside tree draft) rest

/-- Reads the items of an array, one for each field from the one at `index` on. -/
def readItems (shape : Shape σ) (inside : Origin) (length : Nat) (closed : Bool) :
    (index : Nat) → List (Field σ) → σ → List Tree → Except Misread σ
  | _, [], draft, [] => if closed then .ok draft else .error .malformed
  | _, [], _, _ :: _ =>
    .error (if inside.text || !closed then .malformed else .misfit (.tooLong length))
  | index, field :: fields, draft, [] =>
    if !closed then .error .malformed
    else if field.optional then readItems shape inside length closed (index + 1) fields draft []
    else .error (.misfit (.tooShort index shape.name shape.fields.length))
  | index, field :: fields, draft, item :: items => do
    readItems shape inside length closed (index + 1) fields (← field.read inside item draft) items

/-- The first field that a draft lacks and that may not be missing. -/
def missing? (shape : Shape σ) (draft : σ) : Option (Field σ) :=
  shape.fields.find? fun field => !field.optional && !field.given draft

/-- Reads a record into an empty draft. -/
def read (shape : Shape σ) (empty : σ) (o : Origin) : Tree → Except Misread σ
  | .object members closed => do
    let inside ← o.enter
    let draft ← shape.readMembers inside empty members
    if !closed then .error .malformed
    else match shape.missing? draft with
      | some field => .error (.misfit (.missingField field.name))
      | none => .ok draft
  | .array items closed => do
    let inside ← o.enter
    shape.readItems inside items.length closed 0 shape.fields empty items
  | tree => .error (tree.mismatch shape.name)

end Shape

/-! ### Whole texts and values -/

/-- Reads something from a text, behind which nothing else may stand. -/
def Misread.ofText {α : Type} (reader : Origin → Tree → Except Misread α) (s : String) :
    Except Misread α := do
  let document := Document.read s
  let value ← reader ⟨Document.room, true⟩ document.root
  if document.trailing then .error .malformed else .ok value

/-- Reads something from a value, whose members are visited in the order of their names. -/
def Misread.ofJson {α : Type} (reader : Origin → Tree → Except Misread α) (j : Json) :
    Except Misread α :=
  let tree := Tree.ofJson j.sorted
  reader ⟨tree.height, false⟩ tree

end SelectiveDisclosure
