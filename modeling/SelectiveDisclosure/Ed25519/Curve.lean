import SelectiveDisclosure.Bytes

/-!
# The curve of Ed25519

The twisted Edwards curve `-x² + y² = 1 + d x² y²` over the integers modulo `2 ^ 255 - 19`, and the
32-byte form of its points.

## Main definitions

* `Point` — a point in extended coordinates.
* `Point.add`, `Point.neg`, `Point.scale` — the group.
* `Point.compress`, `Point.decompress?` — the 32-byte form, which is `y` with the parity of `x` in
  the highest bit.

## Implementation notes

Decompression is generous where the form leaves room: a `y` of `p` or more is taken modulo `p`, and
a set parity bit on `x = 0` is ignored. So a point may have several forms, and a comparison of forms
is finer than one of points.
-/

namespace SelectiveDisclosure.Ed25519

/-- The size of the field. -/
def p : Nat := Nat.pow 2 255 - 19

/-- The order of the base point. -/
def order : Nat := Nat.pow 2 252 + 27742317777372353535851937790883648493

/-- `b ^ e` modulo the field size, for an `e` below `2 ^ bits`. -/
def powMod (b : Nat) : (bits e : Nat) → Nat
  | 0, _ => 1
  | bits + 1, e =>
    let half := powMod b bits (e / 2)
    if e % 2 = 1 then half * half % p * b % p else half * half % p

/-- The inverse of a field element, zero for zero. -/
def inv (a : Nat) : Nat := powMod a 255 (p - 2)

/-- The difference of two field elements. -/
def sub (a b : Nat) : Nat := (a + p - b) % p

/-- The coefficient `d` of the curve. -/
def d : Nat := 37095705934669439343138083508754565189542113879843219016388785533085940283555

/-- A square root of minus one. -/
def rootOfMinusOne : Nat :=
  19681161376707505956807079304988542015446066515923890162744021073123829784752

/-- A point in extended coordinates: `x = X / Z`, `y = Y / Z` and `x * y = T / Z`. -/
structure Point where
  x : Nat
  y : Nat
  z : Nat
  t : Nat

namespace Point

/-- The neutral point. -/
def zero : Point := ⟨0, 1, 1, 0⟩

/-- The point with the given coordinates. -/
def ofAffine (x y : Nat) : Point := ⟨x, y, 1, x * y % p⟩

/-- The base point. -/
def base : Point := ofAffine
  15112221349535400772501151409588531511454012693041857206046113283949847762202
  46316835694926478169428394003475163141307993866256225615783033603165251855960

/-- The sum of two points. -/
def add (a b : Point) : Point :=
  let m := sub a.y a.x * sub b.y b.x % p
  let n := (a.y + a.x) * (b.y + b.x) % p
  let c := a.t * (2 * d) % p * b.t % p
  let w := 2 * a.z * b.z % p
  let e := sub n m
  let f := sub w c
  let g := (w + c) % p
  let h := (n + m) % p
  ⟨e * f % p, g * h % p, f * g % p, e * h % p⟩

/-- The sum of a point with itself. -/
def double (a : Point) : Point :=
  let m := a.x * a.x % p
  let n := a.y * a.y % p
  let c := 2 * a.z * a.z % p
  let h := (m + n) % p
  let e := sub h ((a.x + a.y) * (a.x + a.y) % p)
  let g := sub m n
  let f := (c + g) % p
  ⟨e * f % p, g * h % p, f * g % p, e * h % p⟩

/-- The inverse of a point. -/
def neg (a : Point) : Point := ⟨sub 0 a.x, a.y, a.z, sub 0 a.t⟩

/-- The point added `n` times, for an `n` below `2 ^ bits`. -/
def scaleBits (a : Point) : (bits n : Nat) → Point
  | 0, _ => zero
  | bits + 1, n =>
    let half := (a.scaleBits bits (n / 2)).double
    if n % 2 = 1 then half.add a else half

/-- The point added `n` times, for an `n` below `2 ^ 256`. -/
def scale (n : Nat) (a : Point) : Point := a.scaleBits 256 n

/-- The 32-byte form of a point. -/
def compress (a : Point) : Bytes :=
  let w := inv a.z
  let x := a.x * w % p
  let y := a.y * w % p
  Bytes.ofNatLE 32 (y + x % 2 * Nat.pow 2 255)

@[simp] theorem length_compress (a : Point) : a.compress.length = 32 := by
  simp [compress]

/-- A root of `u / v` that is even, if `u / v` is a square. -/
def root? (u v : Nat) : Option Nat :=
  let v3 := v * v % p * v % p
  let v7 := v3 * v3 % p * v % p
  let r := u * v3 % p * powMod (u * v7 % p) 253 ((p - 5) / 8) % p
  let square := v * (r * r % p) % p
  let even (r : Nat) := if r % 2 = 1 then p - r else r
  if square = u then some (even r)
  else if square = sub 0 u then some (even (r * rootOfMinusOne % p))
  else none

/-- The point with a given form. -/
def decompress? (form : Bytes) : Option Point :=
  let n := form.toNatLE
  let y := n % Nat.pow 2 255 % p
  let y2 := y * y % p
  (root? (sub y2 1) ((d * y2 + 1) % p)).map fun x =>
    ofAffine (if n / Nat.pow 2 255 % 2 = 1 then sub 0 x else x) y

end Point

end SelectiveDisclosure.Ed25519
