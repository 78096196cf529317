/-!
# Finite binary64 numbers

A finite binary64 number is held exactly, as its sign and the order of its magnitude among all
finite magnitudes. The least is zero, and one more is the next number up. No floating-point
arithmetic of the machine is used, so equality is decidable and every operation is a function on
natural numbers.

## Main definitions

* `Binary64` — a finite binary64 number.
* `Binary64.significand`, `Binary64.exponent` — the magnitude is `significand * 2 ^ exponent`.
* `Binary64.ofRatio` — the number nearest to a quotient, if it is in range.
* `Binary64.mul`, `Binary64.div` — product and quotient, rounded once.
* `Binary64.ofDecimal` — a decimal significand scaled by a power of ten.

## Main results

* `divNearest_close` — a rounded quotient is within half a unit of the exact one.
* `divNearest_even` — between two whole numbers that are as near it is the even one.

## Implementation notes

Magnitudes are numbered as the standard encodes them. Written with the greatest exponent that leaves
a whole significand below `2 ^ 53`, a magnitude `m * 2 ^ q` has the number
`(q + 1074) * 2 ^ 52 + m`, for normal and subnormal ones alike. A significand that rounds up to
`2 ^ 53` lands on the first number of the next binade by itself.
-/

namespace SelectiveDisclosure

/-- A finite binary64 number: a sign and the number of its magnitude. -/
structure Binary64 where
  negative : Bool
  magnitude : Nat
  magnitude_lt : magnitude < 2047 * Nat.pow 2 52
  deriving DecidableEq

/-- The quotient rounded to the nearest whole number, a half to the even one. -/
def divNearest (n d : Nat) : Nat :=
  let q := n / d
  let r := n % d
  if d < 2 * r ∨ (2 * r = d ∧ q % 2 = 1) then q + 1 else q

theorem divNearest_close {n d : Nat} (h : 0 < d) :
    2 * n ≤ 2 * (divNearest n d * d) + d ∧ 2 * (divNearest n d * d) ≤ 2 * n + d := by
  have hn := Nat.div_add_mod n d
  have hr := Nat.mod_lt n h
  rw [Nat.mul_comm] at hn
  simp only [divNearest]
  split
  · rw [Nat.add_mul]; omega
  · omega

theorem divNearest_eq_or (n d : Nat) : divNearest n d = n / d ∨ divNearest n d = n / d + 1 := by
  rw [divNearest]
  split
  · exact .inr rfl
  · exact .inl rfl

/-- A tie goes to the even one. -/
theorem divNearest_even {n d : Nat} (htie : 2 * n = 2 * (divNearest n d * d) + d ∨
    2 * (divNearest n d * d) = 2 * n + d) (hd : 0 < d) : divNearest n d % 2 = 0 := by
  have hn := Nat.div_add_mod n d
  have hr := Nat.mod_lt n hd
  rw [Nat.mul_comm] at hn
  revert htie
  simp only [divNearest]
  split
  · rw [Nat.add_mul]
    omega
  · omega

namespace Binary64

/-- Zero of either sign. -/
def zero (negative : Bool) : Binary64 := ⟨negative, 0, by decide⟩

instance : Inhabited Binary64 := ⟨zero false⟩

/-- The whole significand. -/
def significand (x : Binary64) : Nat :=
  if x.magnitude < Nat.pow 2 52 then x.magnitude else x.magnitude % Nat.pow 2 52 + Nat.pow 2 52

/-- The power of two that scales the significand. -/
def exponent (x : Binary64) : Int :=
  if x.magnitude < Nat.pow 2 52 then -1074 else x.magnitude / Nat.pow 2 52 - 1075

/-- The quotient `n / d` divided by `2 ^ q`, as a quotient of natural numbers. -/
def descaled (n d : Nat) (q : Int) : Nat × Nat :=
  (n * Nat.pow 2 (-q).toNat, d * Nat.pow 2 q.toNat)

/-- The power of two with which the quotient `n / d` has a significand below `2 ^ 53` and, where the
range allows, not below `2 ^ 52`. -/
def scaleOf (n d : Nat) : Int :=
  let q : Int := n.log2 - d.log2 - 53
  let (n', d') := descaled n d q
  max (-1074) (if d' * Nat.pow 2 53 ≤ n' then q + 1 else q)

/-- The number of the magnitude nearest to the quotient `n / d`, which may be out of range. -/
def nearest (n d : Nat) : Nat :=
  if n = 0 then 0
  else
    let q := scaleOf n d
    let (n', d') := descaled n d q
    (q + 1074).toNat * Nat.pow 2 52 + divNearest n' d'

/-- The number nearest to the quotient `n / d`, unless that is beyond the greatest finite one. -/
def ofRatio (negative : Bool) (n d : Nat) : Option Binary64 :=
  if h : nearest n d < 2047 * Nat.pow 2 52 then some ⟨negative, nearest n d, h⟩ else none

/-- The magnitude as a quotient of natural numbers. -/
def ratio (x : Binary64) : Nat × Nat :=
  (x.significand * Nat.pow 2 x.exponent.toNat, Nat.pow 2 (-x.exponent).toNat)

/-- The product, rounded once. -/
def mul (x y : Binary64) : Option Binary64 :=
  ofRatio (x.negative != y.negative) (x.ratio.1 * y.ratio.1) (x.ratio.2 * y.ratio.2)

/-- The quotient, rounded once; there is none by zero. -/
def div (x y : Binary64) : Option Binary64 :=
  if y.magnitude = 0 then none
  else ofRatio (x.negative != y.negative) (x.ratio.1 * y.ratio.2) (x.ratio.2 * y.ratio.1)

/-- The number with its sign turned. -/
def neg (x : Binary64) : Binary64 := ⟨!x.negative, x.magnitude, x.magnitude_lt⟩

/-! ### Decimal significands -/

/-- The number nearest to a natural number, if it is in range. -/
def ofNat (n : Nat) : Option Binary64 := ofRatio false n 1

/-- The greatest power of ten that is used in one scaling. -/
def greatestStep : Nat := 308

/-- The number `significand * 10 ^ exponent`, with a rounding at each step: of the significand, of
the power of ten and of their product or quotient. An exponent below `-308` is taken in two steps;
below `-616` nothing of a 64-bit significand is left. There is no result beyond the greatest finite
number. -/
def ofDecimal (significand : Nat) (exponent : Int) : Option Binary64 :=
  if significand = 0 then some (zero false)
  else do
    let s ← ofNat significand
    if 0 ≤ exponent then
      if exponent.toNat ≤ greatestStep then s.mul (← ofNat (Nat.pow 10 exponent.toNat)) else none
    else if (-exponent).toNat ≤ greatestStep then s.div (← ofNat (Nat.pow 10 (-exponent).toNat))
    else if (-exponent).toNat ≤ 2 * greatestStep then
      let s ← s.div (← ofNat (Nat.pow 10 greatestStep))
      s.div (← ofNat (Nat.pow 10 ((-exponent).toNat - greatestStep)))
    else some (zero false)

end Binary64

end SelectiveDisclosure
