import SelectiveDisclosure.Json.Basic

/-!
# Numerals of JSON

A numeral is a number as it is written: a sign, whole digits, perhaps digits behind a point, perhaps
an exponent. It is read one character at a time.

Whole numbers from `-2 ^ 63` to `2 ^ 64 - 1` without point and exponent stay whole, except that a
minus in front of zero makes a binary64 zero. Everything else becomes a binary64 number.

## Main definitions

* `Numeral` — the parts of a number as far as they have been read.
* `Numeral.push` — what one more character does to a numeral.
* `Numeral.value?` — the number, unless it is beyond the range of binary64.

## Implementation notes

Only as many leading digits count as fit into 64 bits. Whole digits behind them count as a power of
ten each, digits of the fraction behind them not at all.
-/

namespace SelectiveDisclosure

/-- Where in a numeral reading stands. -/
inductive Numeral.Place where
  | sign
  | zero
  | whole
  | point
  | fraction
  | mark
  | markSign
  | exponent
  deriving DecidableEq, Repr

/-- The parts of a number as far as they have been read; of all digits the last come first. -/
structure Numeral where
  place : Numeral.Place
  negative : Bool
  whole : List Nat
  fraction : List Nat
  exponentNegative : Bool
  exponent : List Nat
  deriving DecidableEq, Repr

namespace Numeral

/-- The value of a decimal digit. -/
def digit? (c : Char) : Option Nat :=
  if '0' ≤ c ∧ c ≤ '9' then some (c.toNat - 48) else none

/-- The numeral that a character starts. -/
def start? (c : Char) : Option Numeral :=
  if c = '-' then some ⟨.sign, true, [], [], false, []⟩
  else match digit? c with
    | some 0 => some ⟨.zero, false, [0], [], false, []⟩
    | some d => some ⟨.whole, false, [d], [], false, []⟩
    | none => none

/-- Whether the numeral may end where it stands. -/
def ends (n : Numeral) : Bool :=
  match n.place with
  | .zero | .whole | .fraction | .exponent => true
  | .sign | .point | .mark | .markSign => false

/-- What a character does to a numeral. -/
inductive Outcome where
  /-- It belongs to the numeral. -/
  | more (n : Numeral)
  /-- The numeral ended in front of it. -/
  | over
  /-- It cannot stand there. -/
  | wrong

/-- Reads one more character. -/
def push (n : Numeral) (c : Char) : Outcome :=
  let atPoint (otherwise : Outcome) : Outcome :=
    if c = '.' then .more { n with place := .point } else otherwise
  let atMark (otherwise : Outcome) : Outcome :=
    if c = 'e' ∨ c = 'E' then .more { n with place := .mark } else otherwise
  match n.place, digit? c with
  | .sign, some 0 => .more { n with place := .zero, whole := [0] }
  | .sign, some d => .more { n with place := .whole, whole := [d] }
  | .sign, none => .wrong
  | .zero, some _ => .wrong
  | .zero, none => atPoint (atMark .over)
  | .whole, some d => .more { n with whole := d :: n.whole }
  | .whole, none => atPoint (atMark .over)
  | .point, some d => .more { n with place := .fraction, fraction := [d] }
  | .point, none => .wrong
  | .fraction, some d => .more { n with fraction := d :: n.fraction }
  | .fraction, none => atMark .over
  | .mark, some d => .more { n with place := .exponent, exponent := [d] }
  | .mark, none =>
    if c = '+' then .more { n with place := .markSign }
    else if c = '-' then .more { n with place := .markSign, exponentNegative := true }
    else .wrong
  | .markSign, some d => .more { n with place := .exponent, exponent := [d] }
  | .markSign, none => .wrong
  | .exponent, some d => .more { n with exponent := d :: n.exponent }
  | .exponent, none => .over

/-! ### The number -/

/-- Appends leading digits to a significand as long as it stays below `2 ^ 64`; gives the
significand and the number of digits left. -/
def fill (significand : Nat) : List Nat → Nat × Nat
  | [] => (significand, 0)
  | d :: rest =>
    if 10 * significand + d < Nat.pow 2 64 then fill (10 * significand + d) rest
    else (significand, rest.length + 1)

/-- The number that decimal digits spell, given last first. -/
def spelled (ds : List Nat) : Nat := ds.foldr (fun d n => d + 10 * n) 0

/-- A binary64 number with a sign put in front. -/
def signed (negative : Bool) (x : Binary64) : Number := .real (if negative then x.neg else x)

/-- The number, unless it is beyond the range of binary64. -/
def value? (n : Numeral) : Option Number :=
  let (significand, left) := fill 0 n.whole.reverse
  if n.fraction.isEmpty && n.exponent.isEmpty && left = 0 then
    if !n.negative then some (.whole significand)
    else if 0 < significand ∧ significand ≤ Nat.pow 2 63 then some (.whole (-significand))
    else (Binary64.ofNat significand).map (signed true)
  else
    let (significand, dropped) := fill significand n.fraction.reverse
    let shift : Int := left - (n.fraction.length - dropped : Nat)
    let exponent : Int := spelled n.exponent
    (Binary64.ofDecimal significand
      (if n.exponentNegative then shift - exponent else shift + exponent)).map (signed n.negative)

end Numeral

end SelectiveDisclosure
