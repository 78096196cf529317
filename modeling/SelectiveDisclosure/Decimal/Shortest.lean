import SelectiveDisclosure.Decimal.Binary64

/-!
# The shortest decimal of a binary64 number

Many decimals lie nearer to a binary64 number than to any other. Of those the one with the fewest
digits is chosen, among equally short ones the nearest, and between two equally near ones the one
with the even last digit.

## Main definitions

* `Decimal` — a whole number of digits and a power of ten.
* `Binary64.readsBack` — the decimal is nearer to this number than to its neighbours.
* `Binary64.shortest` — the chosen decimal of a magnitude.

## Main results

* `Binary64.readsBack_of_candidate` — what a grid offers reads back.

## Implementation notes

A magnitude is held as `significand * 2 ^ exponent`; everything is compared after multiplication
with four times a common denominator, so that the bounds of the interval that rounds to the number
are whole.
-/

namespace SelectiveDisclosure

/-- The number `digits * 10 ^ exponent`. -/
structure Decimal where
  digits : Nat
  exponent : Int
  deriving DecidableEq, Repr

namespace Binary64

/-- Four times the magnitude, as a quotient. -/
def quadruple (x : Binary64) : Nat × Nat := (4 * x.ratio.1, x.ratio.2)

/-- Four times the distance of neighbouring significands, as a numerator over the denominator of
`quadruple`. -/
def spacing (x : Binary64) : Nat := 4 * Nat.pow 2 x.exponent.toNat

/-- The distance, over the same denominator and times four, to the lower bound of what rounds to the
number: half a spacing, or a quarter where the numbers below lie closer. -/
def gapBelow (x : Binary64) : Nat :=
  if x.significand = Nat.pow 2 52 ∧ x.exponent ≠ -1074 then x.spacing / 4 else x.spacing / 2

/-- Whether a decimal rounds to the magnitude of a number. The bounds themselves do if the
significand is even, because a half goes to the even neighbour. -/
def readsBack (x : Binary64) (c : Decimal) : Bool :=
  let (v, den) := x.quadruple
  let c4 := 4 * c.digits * Nat.pow 10 c.exponent.toNat * den
  let unit := Nat.pow 10 (-c.exponent).toNat
  let low := (v - x.gapBelow) * unit
  let high := (v + x.spacing / 2) * unit
  if x.significand % 2 = 0 then low ≤ c4 && c4 ≤ high else low < c4 && c4 < high

/-- The position of the leading digit: the greatest `e` with `10 ^ e` not above the magnitude, found
from a guess that is never too high and at most two too low. -/
def leading (x : Binary64) : Int :=
  let (n, d) := x.ratio
  let guess : Int := ((n.log2 : Int) - d.log2 - 1) * 30103 / 100000 - 1
  let reaches (e : Int) : Bool := Nat.pow 10 e.toNat * d ≤ n * Nat.pow 10 (-e).toNat
  if reaches (guess + 2) then guess + 2 else if reaches (guess + 1) then guess + 1 else guess

/-- The multiple of `10 ^ e` nearest to the magnitude from below or above, of the two that read
back. A tie goes to the even one. -/
def candidate (x : Binary64) (e : Int) : Option Decimal :=
  let (n, d) := x.ratio
  let n' := n * Nat.pow 10 (-e).toNat
  let d' := d * Nat.pow 10 e.toNat
  let below : Decimal := ⟨n' / d', e⟩
  let above : Decimal := ⟨n' / d' + 1, e⟩
  match x.readsBack below, x.readsBack above with
  | true, true => some (if divNearest n' d' = below.digits then below else above)
  | true, false => some below
  | false, true => some above
  | false, false => none

/-- Tries the multiples of `10 ^ e`, then those of a tenth of it, and so on, `room` grids at most.
With no room left there are no digits; from the leading digit on this does not happen if there is
room for seventeen. -/
def shortestFrom (x : Binary64) (e : Int) : (room : Nat) → Decimal
  | 0 => ⟨0, e⟩
  | room + 1 =>
    match x.candidate e with
    | some c => c
    | none => x.shortestFrom (e - 1) room

/-- The shortest decimal that reads back as the magnitude of a number. Seventeen digits always
suffice, so there is room for one more than are ever tried. -/
def shortest (x : Binary64) : Decimal :=
  if x.magnitude = 0 then ⟨0, 0⟩ else x.shortestFrom x.leading 18

theorem readsBack_of_candidate {x : Binary64} {e : Int} {c : Decimal}
    (h : x.candidate e = some c) : x.readsBack c = true := by
  simp only [candidate] at h
  split at h
  · next h1 h2 =>
    obtain rfl := Option.some.inj h
    split <;> assumption
  · next h1 _ => exact Option.some.inj h ▸ h1
  · next _ h2 => exact Option.some.inj h ▸ h2
  · exact absurd h (by simp)

end Binary64

end SelectiveDisclosure
