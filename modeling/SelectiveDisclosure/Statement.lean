import SelectiveDisclosure.Content
import SelectiveDisclosure.Fault
import SelectiveDisclosure.Json.Printer
import SelectiveDisclosure.Text.Blank

/-!
# Statements

A content is committed to statement by statement. Each property is one statement, the compact JSON
text of an object with one member: the name of the member is the predicate, `schema#property`, and
its value is the value of the property, with sorted members. A holder is one more statement, with
the predicate `@id`; it comes first and is never hidden.

## Main definitions

* `Statement` — a text that is hashed, and the property it was made from.
* `Statement.ofHolder`, `Statement.ofProperty` — the two kinds of statement.
* `Content.statements` — the statements of a content, or why it has none.

## Main results

* `Statement.ofProperty_eq_ok_iff` — which properties are statements, and what their text is.
-/

namespace SelectiveDisclosure

/-- A text that is hashed, and the property it was made from. -/
structure Statement where
  property : String
  text : String
  deriving DecidableEq, Repr

/-- What stands between schema and property in a predicate. -/
def predicateSeparator : Char := '#'

/-- The name by which a property is known outside its content. -/
def predicate (schema property : String) : String :=
  schema ++ String.singleton predicateSeparator ++ property

/-- The predicate of the statement about the holder. -/
def holderPredicate : String := "@id"

namespace Statement

/-- The bytes that are hashed. -/
def bytes (s : Statement) : Bytes := utf8 s.text

/-- The text of an object with one member. -/
def textOf (name : String) (value : Json) : String := (Json.object [(name, value)]).text

/-- The statement about a holder. -/
def ofHolder (holder : String) : Statement :=
  ⟨holderPredicate, textOf holderPredicate (.string holder)⟩

/-- The statement of a property. A property without a name is none, and neither is a null. -/
def ofProperty (schema property : String) (value : Json) : Except Fault Statement :=
  if property = "" then .error (.malformedProperty "" "property name is empty")
  else if value = .null then
    .error (.malformedProperty property "null is not a statement value")
  else .ok ⟨property, textOf (predicate schema property) value.sorted⟩

theorem ofProperty_eq_ok_iff {schema property : String} {value : Json} {s : Statement} :
    ofProperty schema property value = .ok s ↔
      property ≠ "" ∧ value ≠ .null ∧
        s = ⟨property, textOf (predicate schema property) value.sorted⟩ := by
  by_cases hp : property = "" <;> by_cases hv : value = .null <;>
    simp [ofProperty, hp, hv, eq_comm]

end Statement

/-- The statements of the properties in a list, up to the first that is none. -/
def Content.statementsOf (schema : String) :
    List (String × Value) → Except Fault (List Statement)
  | [] => .ok []
  | (name, value) :: rest => do
    let first ← Statement.ofProperty schema name value.json
    return first :: (← statementsOf schema rest)

/-- The statements of a content: that about the holder, if it has one, and one for each property in
the order of their names. A content whose schema is blank has none. -/
def Content.statements (c : Content) : Except Fault (List Statement) :=
  if Text.isBlank c.schema then .error .missingVocabulary
  else (statementsOf c.schema c.properties.entries).map fun properties =>
    (c.holder.map Statement.ofHolder).toList ++ properties

end SelectiveDisclosure
