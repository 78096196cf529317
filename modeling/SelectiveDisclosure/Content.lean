import SelectiveDisclosure.Json.Basic

/-!
# Content

The content of a credential is a claim: values of named properties, under a schema, made by an
issuer, and perhaps about a holder. The schema is the vocabulary of the properties; each is known
outside the content by the schema and its name together.

## Main definitions

* `Content` — a claim.
* `Content.setProperty`, `Content.without` — adding and removing properties.
* `Content.ofProperties` — a claim from a list of properties.

## Main results

* `Content.get?_without` — what removing properties leaves.
-/

namespace SelectiveDisclosure

/-- A claim about a holder, issued under a schema. -/
structure Content where
  schema : String
  issuer : String
  holder : Option String
  properties : OrderedMap String Value
  deriving DecidableEq

namespace Content

/-- The claim without properties. -/
def blank (schema issuer : String) (holder : Option String) : Content :=
  ⟨schema, issuer, holder, .empty⟩

/-- The names of the properties, ascending. -/
def names (c : Content) : List String := c.properties.keys

/-- The value of a property. -/
def get? (c : Content) (name : String) : Option Value := c.properties.get? name

/-- The content with a property added or replaced. -/
def setProperty (c : Content) (name : String) (value : Value) : Content :=
  { c with properties := c.properties.insert name value }

/-- The content without the named properties. Names that it does not have make no difference. -/
def without (c : Content) (names : List String) : Content :=
  { c with properties := c.properties.filter fun name _ => !names.contains name }

/-- The claim with the given properties; of several with one name the last stays. -/
def ofProperties (schema issuer : String) (holder : Option String)
    (properties : List (String × Json)) : Content :=
  properties.foldl (fun c p => c.setProperty p.1 (.ofJson p.2)) (.blank schema issuer holder)

theorem get?_without (c : Content) (names : List String) (name : String) :
    (c.without names).get? name = if name ∈ names then none else c.get? name := by
  simp only [without, get?, OrderedMap.get?_filter]
  by_cases h : name ∈ names <;> cases hc : c.properties.get? name <;> simp [h, Option.filter]

theorem get?_setProperty (c : Content) (name other : String) (value : Value) :
    (c.setProperty name value).get? other = if other = name then some value else c.get? other := by
  simp [setProperty, get?]

end Content

end SelectiveDisclosure
