/-!
# String literals of JSON

A string literal is read one character at a time, from behind its opening quote on. Characters
outside the basic plane may be written as two escapes, one for each half of a surrogate pair; a half
that stands alone leaves a literal that is well-formed but has no value.

## Main definitions

* `Literal` — a literal as far as it has been read.
* `Literal.push` — one more character.
* `Literal.value?` — the string, unless it holds half of a surrogate pair.
-/

namespace SelectiveDisclosure

/-- Where in a literal reading stands. -/
inductive Literal.Place where
  | plain
  | escape
  /-- Behind the escape of a code unit, with this many digits to come and this value so far. -/
  | digits (missing value : Nat)
  deriving DecidableEq, Repr

/-- A literal as far as it has been read, its last character first. -/
structure Literal where
  place : Literal.Place
  done : List Char
  /-- The first half of a surrogate pair, if that came last. -/
  half : Option Nat
  /-- Whether half of a surrogate pair stands alone. -/
  alone : Bool
  deriving DecidableEq, Repr

namespace Literal

/-- The literal of which only the opening quote has been read. -/
def start : Literal := ⟨.plain, [], none, false⟩

/-- What a character does to a literal. -/
inductive Outcome where
  /-- It belongs to the literal. -/
  | more (l : Literal)
  /-- It ends the literal. -/
  | over (value : Option String)
  /-- It cannot stand there. -/
  | wrong

/-- The literal with one more character of its string. -/
def add (l : Literal) (c : Char) : Literal :=
  ⟨.plain, c :: l.done, none, l.alone || l.half.isSome⟩

/-- The literal with one more code unit of its string, given by number. -/
def addUnit (l : Literal) (unit : Nat) : Literal :=
  if 0xdc00 ≤ unit ∧ unit < 0xe000 then
    match l.half with
    | some first =>
      ⟨.plain, Char.ofNat ((first - 0xd800) * 0x400 + (unit - 0xdc00) + 0x10000) :: l.done, none,
        l.alone⟩
    | none => ⟨.plain, l.done, none, true⟩
  else if 0xd800 ≤ unit ∧ unit < 0xdc00 then
    ⟨.plain, l.done, some unit, l.alone || l.half.isSome⟩
  else l.add (Char.ofNat unit)

/-- The value of a hexadecimal digit. -/
def digit? (c : Char) : Option Nat :=
  if '0' ≤ c ∧ c ≤ '9' then some (c.toNat - 48)
  else if 'a' ≤ c ∧ c ≤ 'f' then some (c.toNat - 87)
  else if 'A' ≤ c ∧ c ≤ 'F' then some (c.toNat - 55)
  else none

/-- The character that a short escape stands for. -/
def short? (c : Char) : Option Char :=
  if c = '"' ∨ c = '\\' ∨ c = '/' then some c
  else if c = 'b' then some '\x08'
  else if c = 'f' then some '\x0c'
  else if c = 'n' then some '\n'
  else if c = 'r' then some '\r'
  else if c = 't' then some '\t'
  else none

/-- The string of a literal that has ended. -/
def value? (l : Literal) : Option String :=
  if l.alone || l.half.isSome then none else some (String.ofList l.done.reverse)

/-- Reads one more character. -/
def push (l : Literal) (c : Char) : Outcome :=
  match l.place with
  | .plain =>
    if c = '"' then .over l.value?
    else if c = '\\' then .more { l with place := .escape }
    else if c.toNat < 0x20 then .wrong
    else .more (l.add c)
  | .escape =>
    if c = 'u' then .more { l with place := .digits 4 0 }
    else match short? c with
      | some c => .more (l.add c)
      | none => .wrong
  | .digits missing value =>
    match digit? c with
    | none => .wrong
    | some d =>
      if missing ≤ 1 then .more (l.addUnit (16 * value + d))
      else .more { l with place := .digits (missing - 1) (16 * value + d) }

end Literal

end SelectiveDisclosure
