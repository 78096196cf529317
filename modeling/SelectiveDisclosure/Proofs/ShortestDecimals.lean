import Mathlib.Algebra.Order.Field.Power
import Mathlib.Algebra.Order.Field.Rat
import Mathlib.Data.Nat.Cast.Order.Field
import Mathlib.Tactic.FieldSimp
import Mathlib.Tactic.Linarith
import Mathlib.Tactic.NormNum
import Mathlib.Tactic.Positivity
import Mathlib.Tactic.Ring
import SelectiveDisclosure.Decimal.Shortest

/-!
# The chosen decimal is the shortest

A binary64 number is written with the decimal that `Binary64.shortest` chooses. It is found among
whole numbers only, by comparisons over a common denominator, from grid to grid: first among the
multiples of the power of ten of the leading digit, then among those of a tenth of it, and so on.

Here magnitudes and decimals are rational numbers, and each comparison is one of these. What rounds
to a magnitude is an interval with the magnitude inside. So if any point of a grid lies in it, then
one of the two does that stand next to the magnitude, and these two are all that is looked at. The
interval is wider than the grid of the seventeenth digit is coarse, so that the search ends there at
the latest.

## Main definitions

* `Decimal.value`, `Binary64.size` — what a decimal stands for, and a magnitude.
* `Binary64.Rounds` — a rational number rounds to a magnitude.
* `Binary64.Preferred` — one decimal is nearer than another, or as near and even.

## Main results

* `Binary64.readsBack_iff` — a decimal reads back exactly if it rounds to the magnitude.
* `Binary64.leading_spec` — the leading digit stands where it is said to.
* `Binary64.candidate_eq_none_iff`, `Binary64.candidate_preferred` — what a grid offers.
* `Binary64.shortest_spec` — no decimal that reads back is shorter, and none as short is preferred.
-/

namespace SelectiveDisclosure

/-! ### Values -/

/-- The rational number that a decimal stands for. -/
def Decimal.value (c : Decimal) : ℚ := c.digits * 10 ^ c.exponent

namespace Binary64

variable {x : Binary64} {c : Decimal} {e : ℤ} {q r s : ℚ}

/-- The distance of neighbouring numbers, as far as they have the exponent of this one. -/
def step (x : Binary64) : ℚ := 2 ^ x.exponent

/-- The magnitude as a rational number. -/
def size (x : Binary64) : ℚ := x.significand * x.step

/-- The distance to the lower bound of what rounds to the number. -/
def roomBelow (x : Binary64) : ℚ :=
  if x.significand = 2 ^ 52 ∧ x.exponent ≠ -1074 then x.step / 4 else x.step / 2

/-- Whether a rational number rounds to the magnitude of a number. -/
def Rounds (x : Binary64) (q : ℚ) : Prop :=
  if x.significand % 2 = 0 then x.size - x.roomBelow ≤ q ∧ q ≤ x.size + x.step / 2
  else x.size - x.roomBelow < q ∧ q < x.size + x.step / 2

theorem ten_pos (e : ℤ) : (0 : ℚ) < 10 ^ e := zpow_pos (by norm_num) e

theorem step_pos (x : Binary64) : 0 < x.step := zpow_pos (by norm_num) _

theorem significand_lt (x : Binary64) : x.significand < 2 ^ 53 := by
  rw [significand]
  split <;> simp only [Nat.pow_eq] at * <;> omega

theorem exponent_bounds (x : Binary64) : -1074 ≤ x.exponent ∧ x.exponent ≤ 971 := by
  have hlt := x.magnitude_lt
  rw [exponent]
  split <;> simp only [Nat.pow_eq] at * <;> omega

theorem significand_pos (hx : x.magnitude ≠ 0) : 0 < x.significand := by
  rw [significand]
  split <;> simp only [Nat.pow_eq] at * <;> omega

theorem step_le_size (hx : x.magnitude ≠ 0) : x.step ≤ x.size := by
  have hone : (1 : ℚ) ≤ x.significand := by exact_mod_cast significand_pos hx
  exact le_mul_of_one_le_left x.step_pos.le hone

theorem roomBelow_le (x : Binary64) : x.roomBelow ≤ x.step / 2 := by
  have hstep := x.step_pos
  rw [roomBelow]
  split <;> linarith

theorem roomBelow_pos (x : Binary64) : 0 < x.roomBelow := by
  have hstep := x.step_pos
  rw [roomBelow]
  split <;> linarith

/-! ### Comparisons of whole numbers -/

/-- A power without its denominator. -/
theorem zpow_mul_pow_toNat {b : ℚ} (hb : b ≠ 0) (z : ℤ) :
    b ^ z * b ^ (-z).toNat = b ^ z.toNat := by
  rw [← zpow_natCast, ← zpow_natCast, ← zpow_add₀ hb]
  congr 1
  omega

/-- A decimal and a quotient over one denominator. -/
theorem over_common {k n d : ℕ} (hd : 0 < d) :
    ∃ unit : ℚ, 0 < unit ∧ ((k * Nat.pow 10 e.toNat * d : ℕ) : ℚ) = k * 10 ^ e * unit ∧
      ((n * Nat.pow 10 (-e).toNat : ℕ) : ℚ) = n / d * unit := by
  have hd' : (0 : ℚ) < d := by exact_mod_cast hd
  refine ⟨d * 10 ^ (-e).toNat, mul_pos hd' (by positivity), ?_, ?_⟩
  · rw [Nat.pow_eq]
    push_cast
    rw [← zpow_mul_pow_toNat (by norm_num) e]
    ring
  · rw [Nat.pow_eq]
    push_cast
    field_simp

/-- A decimal against a quotient, without division. -/
theorem decimal_le_ratio_iff {k n d : ℕ} (hd : 0 < d) :
    k * Nat.pow 10 e.toNat * d ≤ n * Nat.pow 10 (-e).toNat ↔ (k : ℚ) * 10 ^ e ≤ n / d := by
  obtain ⟨unit, hunit, hk, hn⟩ := over_common (e := e) (k := k) (n := n) hd
  rw [← Nat.cast_le (α := ℚ), hk, hn, mul_le_mul_iff_of_pos_right hunit]

/-- A quotient against a decimal, without division. -/
theorem ratio_le_decimal_iff {k n d : ℕ} (hd : 0 < d) :
    n * Nat.pow 10 (-e).toNat ≤ k * Nat.pow 10 e.toNat * d ↔ (n : ℚ) / d ≤ k * 10 ^ e := by
  obtain ⟨unit, hunit, hk, hn⟩ := over_common (e := e) (k := k) (n := n) hd
  rw [← Nat.cast_le (α := ℚ), hk, hn, mul_le_mul_iff_of_pos_right hunit]

theorem ratio_pos (x : Binary64) : 0 < x.ratio.2 := Nat.pow_pos Nat.two_pos

/-- The power of two of a spacing, over the denominator of the ratio. -/
theorem pow_div_ratio (x : Binary64) :
    ((Nat.pow 2 x.exponent.toNat : ℕ) : ℚ) / x.ratio.2 = x.step := by
  rw [div_eq_iff (by exact_mod_cast x.ratio_pos.ne'), ratio, Nat.pow_eq, Nat.pow_eq, step]
  push_cast
  rw [zpow_mul_pow_toNat (by norm_num)]

theorem ratio_eq (x : Binary64) : (x.ratio.1 : ℚ) / x.ratio.2 = x.size := by
  have hstep := x.pow_div_ratio
  rw [size, ← hstep, ← mul_div_assoc]
  congr 1
  rw [ratio]
  push_cast
  rfl

/-! ### What reads back -/

theorem spacing_div_two (x : Binary64) : x.spacing / 2 = 2 * Nat.pow 2 x.exponent.toNat := by
  rw [spacing]
  omega

/-- Four times the distance to the lower bound, over the denominator of the ratio. -/
theorem gapBelow_div (x : Binary64) : (x.gapBelow : ℚ) / x.ratio.2 = 4 * x.roomBelow := by
  have hquarter : x.spacing / 4 = Nat.pow 2 x.exponent.toNat := by
    rw [spacing]
    omega
  rw [gapBelow, roomBelow, hquarter, spacing_div_two]
  simp only [Nat.pow_eq]
  split
  · rw [← Nat.pow_eq, pow_div_ratio]
    ring
  · rw [← Nat.pow_eq, Nat.cast_mul, mul_div_assoc, pow_div_ratio]
    push_cast
    ring

theorem high_div (x : Binary64) :
    ((4 * x.ratio.1 + x.spacing / 2 : ℕ) : ℚ) / x.ratio.2 = 4 * (x.size + x.step / 2) := by
  rw [spacing_div_two, Nat.cast_add, Nat.cast_mul, Nat.cast_mul, add_div, mul_div_assoc,
    mul_div_assoc, ratio_eq, pow_div_ratio]
  push_cast
  ring

theorem low_div (hx : x.magnitude ≠ 0) :
    ((4 * x.ratio.1 - x.gapBelow : ℕ) : ℚ) / x.ratio.2 = 4 * (x.size - x.roomBelow) := by
  have hden : (0 : ℚ) < x.ratio.2 := by exact_mod_cast x.ratio_pos
  have hvalue : ((4 * x.ratio.1 : ℕ) : ℚ) / x.ratio.2 = 4 * x.size := by
    rw [Nat.cast_mul, mul_div_assoc, ratio_eq]
    rfl
  have hle : x.gapBelow ≤ 4 * x.ratio.1 := by
    have hroom := x.roomBelow_le
    have hstep := step_le_size hx
    have hpos := x.step_pos
    rw [← Nat.cast_le (α := ℚ), ← div_le_div_iff_of_pos_right hden, gapBelow_div, hvalue]
    linarith
  rw [Nat.cast_sub hle, sub_div, hvalue, gapBelow_div]
  ring

/-- A bound that is held four times over against a decimal. -/
theorem bound_le_iff {m k : ℕ} (hm : (m : ℚ) / x.ratio.2 = 4 * q) :
    m * Nat.pow 10 (-e).toNat ≤ 4 * k * Nat.pow 10 e.toNat * x.ratio.2 ↔ q ≤ k * 10 ^ e := by
  rw [ratio_le_decimal_iff x.ratio_pos, hm, Nat.cast_mul, mul_assoc]
  exact mul_le_mul_iff_of_pos_left (by norm_num)

/-- A decimal against a bound that is held four times over. -/
theorem le_bound_iff {m k : ℕ} (hm : (m : ℚ) / x.ratio.2 = 4 * q) :
    4 * k * Nat.pow 10 e.toNat * x.ratio.2 ≤ m * Nat.pow 10 (-e).toNat ↔ k * 10 ^ e ≤ q := by
  rw [decimal_le_ratio_iff x.ratio_pos, hm, Nat.cast_mul, mul_assoc]
  exact mul_le_mul_iff_of_pos_left (by norm_num)

/-- **A decimal reads back exactly if it rounds to the magnitude.** -/
theorem readsBack_iff (hx : x.magnitude ≠ 0) : x.readsBack c = true ↔ x.Rounds c.value := by
  have hlow := low_div hx
  have hhigh := x.high_div
  by_cases heven : x.significand % 2 = 0
  · simp only [readsBack, Rounds, Decimal.value, heven, if_true, Bool.and_eq_true,
      decide_eq_true_iff]
    rw [quadruple, bound_le_iff hlow, le_bound_iff hhigh]
  · simp only [readsBack, Rounds, Decimal.value, heven, if_false, Bool.and_eq_true,
      decide_eq_true_iff, ← Nat.not_le]
    rw [quadruple, le_bound_iff hlow, bound_le_iff hhigh, not_le, not_le]

theorem rounds_size (x : Binary64) : x.Rounds x.size := by
  have hroom := x.roomBelow_pos
  have hstep := x.step_pos
  rw [Rounds]
  split <;> constructor <;> linarith

/-- What lies between two numbers that round to a magnitude rounds to it. -/
theorem Rounds.between (hq : x.Rounds q) (hs : x.Rounds s) (hqr : q ≤ r) (hrs : r ≤ s) :
    x.Rounds r := by
  rw [Rounds] at hq hs ⊢
  split_ifs at hq hs ⊢
  · exact ⟨hq.1.trans hqr, hrs.trans hs.2⟩
  · exact ⟨hq.1.trans_le hqr, hrs.trans_lt hs.2⟩

/-- What does not round to a magnitude is far from it. -/
theorem far_of_not_rounds (hq : ¬ x.Rounds q) :
    q ≤ x.size - x.roomBelow ∨ x.size + x.step / 2 ≤ q := by
  by_contra hnear
  rw [not_or, not_le, not_le] at hnear
  refine hq ?_
  rw [Rounds]
  split
  · exact ⟨hnear.1.le, hnear.2.le⟩
  · exact hnear

/-! ### The leading digit -/

/-- The decimal place of a power of two, rounded down, from the first digits of the logarithm. -/
def decimalPlace (b : ℤ) : ℤ := b * 30103 / 100000

/-- The digits of the logarithm are enough for the powers of two that occur. -/
theorem pow_ten_bounds : ∀ n < 1100, Nat.pow 10 (n * 30103 / 100000) ≤ Nat.pow 2 n ∧
    Nat.pow 2 n ≤ Nat.pow 10 (n * 30103 / 100000 + 1) := by
  decide +kernel

theorem decimalPlace_spec {b : ℤ} (hb : -1100 < b) (hb' : b < 1100) :
    (10 : ℚ) ^ (decimalPlace b - 1) ≤ 2 ^ b ∧ (2 : ℚ) ^ b ≤ 10 ^ (decimalPlace b + 1) := by
  have hten : (1 : ℚ) ≤ 10 := by norm_num
  obtain ⟨n, hn⟩ := b.eq_nat_or_neg
  have hplace : decimalPlace b = b * 30103 / 100000 := rfl
  obtain ⟨hlow, hhigh⟩ := pow_ten_bounds n (by omega)
  replace hlow : (10 : ℚ) ^ ((n * 30103 / 100000 : ℕ) : ℤ) ≤ 2 ^ (n : ℤ) := by
    rw [zpow_natCast, zpow_natCast]
    exact_mod_cast hlow
  replace hhigh : (2 : ℚ) ^ (n : ℤ) ≤ 10 ^ ((n * 30103 / 100000 + 1 : ℕ) : ℤ) := by
    rw [zpow_natCast, zpow_natCast]
    exact_mod_cast hhigh
  rcases hn with rfl | rfl
  · constructor
    · exact (zpow_le_zpow_right₀ hten (by omega)).trans hlow
    · exact hhigh.trans (zpow_le_zpow_right₀ hten (by omega))
  · replace hlow := inv_anti₀ (ten_pos _) hlow
    replace hhigh := inv_anti₀ (zpow_pos (by norm_num) _) hhigh
    rw [← zpow_neg, ← zpow_neg] at hlow hhigh
    constructor
    · exact (zpow_le_zpow_right₀ hten (by omega)).trans hhigh
    · exact hlow.trans (zpow_le_zpow_right₀ hten (by omega))

/-- The place of the leading bit of the magnitude, at most one too low. -/
def binaryPlace (x : Binary64) : ℤ := (x.ratio.1.log2 : ℤ) - x.ratio.2.log2 - 1

theorem ratio_ne_zero (hx : x.magnitude ≠ 0) : x.ratio.1 ≠ 0 :=
  Nat.mul_ne_zero (significand_pos hx).ne' (Nat.pow_pos Nat.two_pos).ne'

theorem log2_ratio (x : Binary64) : x.ratio.2.log2 = (-x.exponent).toNat := Nat.log2_two_pow

theorem binaryPlace_bounds (hx : x.magnitude ≠ 0) :
    -1075 ≤ x.binaryPlace ∧ x.binaryPlace ≤ 1022 := by
  obtain ⟨hlow, hhigh⟩ := x.exponent_bounds
  have hlog : x.ratio.1.log2 < 53 + x.exponent.toNat := by
    rw [Nat.log2_lt (ratio_ne_zero hx), Nat.pow_add]
    exact Nat.mul_lt_mul_of_pos_right x.significand_lt (Nat.two_pow_pos _)
  rw [binaryPlace, log2_ratio]
  omega

theorem size_binaryPlace (hx : x.magnitude ≠ 0) :
    (2 : ℚ) ^ x.binaryPlace ≤ x.size ∧ x.size < 2 ^ (x.binaryPlace + 2) := by
  have hden : (x.ratio.2 : ℚ) = 2 ^ (x.ratio.2.log2 : ℤ) := by
    rw [log2_ratio, zpow_natCast]
    exact_mod_cast rfl
  have hlow : (2 : ℚ) ^ (x.ratio.1.log2 : ℤ) ≤ x.ratio.1 := by
    rw [zpow_natCast]
    exact_mod_cast Nat.log2_self_le (ratio_ne_zero hx)
  have hhigh : (x.ratio.1 : ℚ) < 2 ^ ((x.ratio.1.log2 : ℤ) + 1) := by
    exact_mod_cast (Nat.lt_log2_self : x.ratio.1 < 2 ^ (x.ratio.1.log2 + 1))
  have htwo (z : ℤ) : (0 : ℚ) < 2 ^ z := zpow_pos (by norm_num) z
  rw [← x.ratio_eq, hden, le_div_iff₀ (htwo _), div_lt_iff₀ (htwo _), binaryPlace,
    ← zpow_add₀ (by norm_num), ← zpow_add₀ (by norm_num)]
  constructor
  · refine le_trans (zpow_le_zpow_right₀ (by norm_num) ?_) hlow
    omega
  · refine hhigh.trans_le (zpow_le_zpow_right₀ (by norm_num) ?_)
    omega

/-- **The leading digit of a magnitude stands where it is said to.** -/
theorem leading_spec (hx : x.magnitude ≠ 0) :
    (10 : ℚ) ^ x.leading ≤ x.size ∧ x.size < 10 ^ (x.leading + 1) := by
  have hreaches (e : ℤ) : decide (Nat.pow 10 e.toNat * x.ratio.2 ≤
      x.ratio.1 * Nat.pow 10 (-e).toNat) = true ↔ (10 : ℚ) ^ e ≤ x.size := by
    have hone := decimal_le_ratio_iff (e := e) (k := 1) (n := x.ratio.1) x.ratio_pos
    rw [Nat.one_mul, x.ratio_eq, Nat.cast_one, one_mul] at hone
    rw [decide_eq_true_iff, hone]
  have hbounds := binaryPlace_bounds hx
  obtain ⟨hlow, hhigh⟩ := decimalPlace_spec (b := x.binaryPlace) (by omega) (by omega)
  obtain ⟨hlow', hhigh'⟩ := size_binaryPlace hx
  have hguess : x.leading = if (10 : ℚ) ^ (decimalPlace x.binaryPlace - 1 + 2) ≤ x.size then
      decimalPlace x.binaryPlace - 1 + 2 else
        if (10 : ℚ) ^ (decimalPlace x.binaryPlace - 1 + 1) ≤ x.size then
          decimalPlace x.binaryPlace - 1 + 1 else decimalPlace x.binaryPlace - 1 := by
    simp only [leading, hreaches]
    rfl
  rw [hguess]
  split_ifs with htwo hone
  · refine ⟨htwo, ?_⟩
    calc x.size < 2 ^ (x.binaryPlace + 2) := hhigh'
      _ = 4 * 2 ^ x.binaryPlace := by
        rw [zpow_add₀ (by norm_num)]
        ring
      _ ≤ 10 * 10 ^ (decimalPlace x.binaryPlace + 1) := by
        linarith [ten_pos (decimalPlace x.binaryPlace + 1)]
      _ = 10 ^ (decimalPlace x.binaryPlace - 1 + 2 + 1) := by
        rw [← zpow_one_add₀ (by norm_num)]
        congr 1
        omega
  · refine ⟨hone, lt_of_not_ge fun hle => htwo ?_⟩
    rwa [add_assoc] at hle
  · exact ⟨hlow.trans hlow', lt_of_not_ge hone⟩

/-! ### One grid -/

/-- The magnitude in units of a power of ten, as a quotient. -/
def inUnits (x : Binary64) (e : ℤ) : ℕ × ℕ :=
  (x.ratio.1 * Nat.pow 10 (-e).toNat, x.ratio.2 * Nat.pow 10 e.toNat)

theorem inUnits_pos (x : Binary64) (e : ℤ) : 0 < (x.inUnits e).2 :=
  Nat.mul_pos x.ratio_pos (Nat.pow_pos (by norm_num))

theorem inUnits_eq (x : Binary64) (e : ℤ) :
    ((x.inUnits e).1 : ℚ) / (x.inUnits e).2 * 10 ^ e = x.size := by
  obtain ⟨unit, hunit, hd, hn⟩ := over_common (e := e) (k := 1) (n := x.ratio.1) x.ratio_pos
  rw [Nat.cast_one, one_mul, one_mul, mul_comm] at hd
  rw [inUnits, hd, hn, x.ratio_eq]
  field_simp

/-- How many whole units a magnitude has. -/
def wholeUnits (x : Binary64) (e : ℤ) : ℕ := (x.inUnits e).1 / (x.inUnits e).2

theorem wholeUnits_le (x : Binary64) (e : ℤ) : x.wholeUnits e * 10 ^ e ≤ x.size := by
  rw [← x.inUnits_eq e, mul_le_mul_iff_of_pos_right (ten_pos e)]
  exact Nat.cast_div_le

theorem size_lt (x : Binary64) (e : ℤ) : x.size < (x.wholeUnits e + 1 : ℕ) * 10 ^ e := by
  have hden : (0 : ℚ) < (x.inUnits e).2 := by exact_mod_cast x.inUnits_pos e
  rw [← x.inUnits_eq e, mul_lt_mul_iff_of_pos_right (ten_pos e), div_lt_iff₀ hden]
  exact_mod_cast Nat.lt_mul_of_div_lt (Nat.lt_succ_self _) (x.inUnits_pos e)

/-- The grid point nearest to the magnitude, or the even one of two. -/
def nearestUnits (x : Binary64) (e : ℤ) : ℕ := divNearest (x.inUnits e).1 (x.inUnits e).2

theorem abs_sub_size (x : Binary64) (e : ℤ) (q : ℚ) :
    |q * 10 ^ e - x.size| = |q - (x.inUnits e).1 / (x.inUnits e).2| * 10 ^ e := by
  rw [← x.inUnits_eq e, ← sub_mul, abs_mul, abs_of_pos (ten_pos e)]

theorem nearestUnits_close (x : Binary64) (e : ℤ) :
    |x.nearestUnits e * 10 ^ e - x.size| ≤ 1 / 2 * 10 ^ e := by
  have hden : (0 : ℚ) < (x.inUnits e).2 := by exact_mod_cast x.inUnits_pos e
  obtain ⟨habove, hbelow⟩ := divNearest_close (n := (x.inUnits e).1) (x.inUnits_pos e)
  rw [← Nat.cast_le (α := ℚ)] at habove hbelow
  push_cast at habove hbelow
  rw [abs_sub_size, mul_le_mul_iff_of_pos_right (ten_pos e), abs_le, neg_le_sub_iff_le_add,
    sub_le_iff_le_add, div_le_iff₀ hden, ← sub_le_iff_le_add', le_div_iff₀ hden, nearestUnits]
  constructor <;> linarith

theorem nearestUnits_even (htie : |x.nearestUnits e * 10 ^ e - x.size| = 1 / 2 * 10 ^ e) :
    x.nearestUnits e % 2 = 0 := by
  have hden : (0 : ℚ) < (x.inUnits e).2 := by exact_mod_cast x.inUnits_pos e
  rw [abs_sub_size, mul_left_inj' (ten_pos e).ne', abs_eq (by norm_num), sub_eq_iff_eq_add,
    sub_eq_iff_eq_add] at htie
  refine divNearest_even ?_ (x.inUnits_pos e)
  rw [← nearestUnits, ← Nat.cast_inj (R := ℚ), ← Nat.cast_inj (R := ℚ)]
  push_cast
  rcases htie with htie | htie
  · right
    rw [htie]
    field_simp
    ring
  · left
    rw [htie]
    field_simp
    ring

/-- All that a grid can offer are the two points next to the magnitude. -/
theorem candidate_eq (x : Binary64) (e : ℤ) :
    x.candidate e =
      if x.readsBack ⟨x.wholeUnits e, e⟩ then
        if x.readsBack ⟨x.wholeUnits e + 1, e⟩ then some ⟨x.nearestUnits e, e⟩
        else some ⟨x.wholeUnits e, e⟩
      else if x.readsBack ⟨x.wholeUnits e + 1, e⟩ then some ⟨x.wholeUnits e + 1, e⟩
      else none := by
  have hnearest : (if x.nearestUnits e = x.wholeUnits e then (⟨x.wholeUnits e, e⟩ : Decimal)
      else ⟨x.wholeUnits e + 1, e⟩) = ⟨x.nearestUnits e, e⟩ := by
    rcases divNearest_eq_or (x.inUnits e).1 (x.inUnits e).2 with h | h
    · rw [nearestUnits, h, wholeUnits, if_pos rfl]
    · rw [nearestUnits, h, wholeUnits, if_neg (Nat.succ_ne_self _)]
  simp only [candidate]
  split
  next hbelow habove =>
    have hb : x.readsBack ⟨x.wholeUnits e, e⟩ = true := hbelow
    have ha : x.readsBack ⟨x.wholeUnits e + 1, e⟩ = true := habove
    rw [hb, ha, ← hnearest]
    rfl
  next hbelow habove =>
    have hb : x.readsBack ⟨x.wholeUnits e, e⟩ = true := hbelow
    have ha : x.readsBack ⟨x.wholeUnits e + 1, e⟩ = false := habove
    rw [hb, ha]
    rfl
  next hbelow habove =>
    have hb : x.readsBack ⟨x.wholeUnits e, e⟩ = false := hbelow
    have ha : x.readsBack ⟨x.wholeUnits e + 1, e⟩ = true := habove
    rw [hb, ha]
    rfl
  next hbelow habove =>
    have hb : x.readsBack ⟨x.wholeUnits e, e⟩ = false := hbelow
    have ha : x.readsBack ⟨x.wholeUnits e + 1, e⟩ = false := habove
    rw [hb, ha]
    rfl

/-- Whether one decimal is nearer to the magnitude than another, or as near and even. -/
def Preferred (x : Binary64) (c c' : Decimal) : Prop :=
  |c.value - x.size| < |c'.value - x.size| ∨
    |c.value - x.size| = |c'.value - x.size| ∧ (c = c' ∨ c.digits % 2 = 0)

theorem wholeUnits_preferred {j : ℕ} (hj : j ≤ x.wholeUnits e) :
    x.Preferred ⟨x.wholeUnits e, e⟩ ⟨j, e⟩ := by
  rcases hj.eq_or_lt with rfl | hlt
  · exact .inr ⟨rfl, .inl rfl⟩
  · have hwhole := x.wholeUnits_le e
    have hj' : (j : ℚ) * 10 ^ e < x.wholeUnits e * 10 ^ e :=
      mul_lt_mul_of_pos_right (by exact_mod_cast hlt) (ten_pos e)
    left
    rw [Decimal.value, Decimal.value, abs_of_nonpos (by linarith), abs_of_nonpos (by linarith)]
    linarith

theorem wholeUnits_succ_preferred {j : ℕ} (hj : x.wholeUnits e < j) :
    x.Preferred ⟨x.wholeUnits e + 1, e⟩ ⟨j, e⟩ := by
  rcases (Nat.succ_le_of_lt hj).eq_or_lt with rfl | hlt
  · exact .inr ⟨rfl, .inl rfl⟩
  · have hwhole := x.size_lt e
    have hj' : ((x.wholeUnits e + 1 : ℕ) : ℚ) * 10 ^ e < j * 10 ^ e :=
      mul_lt_mul_of_pos_right (by exact_mod_cast hlt) (ten_pos e)
    left
    rw [Decimal.value, Decimal.value, abs_of_nonneg (by linarith), abs_of_nonneg (by linarith)]
    linarith

/-- Another grid point is at least one unit away from the nearest one. -/
theorem nearestUnits_preferred (x : Binary64) (e : ℤ) (j : ℕ) :
    x.Preferred ⟨x.nearestUnits e, e⟩ ⟨j, e⟩ := by
  by_cases hj : j = x.nearestUnits e
  · exact hj ▸ .inr ⟨rfl, .inl rfl⟩
  · have hclose := x.nearestUnits_close e
    have hone : (1 : ℚ) ≤ |(j : ℚ) - x.nearestUnits e| := by
      have hne : (j : ℤ) - x.nearestUnits e ≠ 0 := by omega
      exact_mod_cast Int.one_le_abs hne
    have hunit : 1 * 10 ^ e ≤ |j * 10 ^ e - x.size| + |x.nearestUnits e * 10 ^ e - x.size| := by
      calc 1 * 10 ^ e ≤ |(j : ℚ) - x.nearestUnits e| * 10 ^ e :=
            mul_le_mul_of_nonneg_right hone (ten_pos e).le
        _ = |(j * 10 ^ e - x.size) - (x.nearestUnits e * 10 ^ e - x.size)| := by
            rw [sub_sub_sub_cancel_right, ← sub_mul, abs_mul, abs_of_pos (ten_pos e)]
        _ ≤ _ := abs_sub _ _
    rw [Preferred, Decimal.value, Decimal.value]
    rcases lt_or_ge |x.nearestUnits e * 10 ^ e - x.size| |(j : ℚ) * 10 ^ e - x.size| with hlt | hge
    · exact .inl hlt
    · refine .inr ⟨by linarith, .inr (nearestUnits_even (by linarith))⟩

/-- If a grid point not above the magnitude rounds to it, then so does the last one. -/
theorem rounds_wholeUnits {j : ℕ} (hj : x.Rounds (j * 10 ^ e)) (hle : j ≤ x.wholeUnits e) :
    x.Rounds (x.wholeUnits e * 10 ^ e) := by
  refine hj.between x.rounds_size ?_ (x.wholeUnits_le e)
  exact mul_le_mul_of_nonneg_right (by exact_mod_cast hle) (ten_pos e).le

/-- If a grid point above the magnitude rounds to it, then so does the first one. -/
theorem rounds_wholeUnits_succ {j : ℕ} (hj : x.Rounds (j * 10 ^ e)) (hlt : x.wholeUnits e < j) :
    x.Rounds ((x.wholeUnits e + 1 : ℕ) * 10 ^ e) := by
  refine x.rounds_size.between hj (x.size_lt e).le ?_
  exact mul_le_mul_of_nonneg_right (by exact_mod_cast hlt) (ten_pos e).le

/-- A grid offers nothing exactly if none of its points rounds to the magnitude. -/
theorem candidate_eq_none_iff (hx : x.magnitude ≠ 0) :
    x.candidate e = none ↔ ∀ j : ℕ, ¬ x.Rounds (j * 10 ^ e) := by
  have hbelow := readsBack_iff (c := ⟨x.wholeUnits e, e⟩) hx
  have habove := readsBack_iff (c := ⟨x.wholeUnits e + 1, e⟩) hx
  rw [Decimal.value] at hbelow habove
  constructor
  · intro hnone j hj
    rw [candidate_eq] at hnone
    rcases Nat.lt_or_ge (x.wholeUnits e) j with hlt | hle
    · simp only [habove.2 (rounds_wholeUnits_succ hj hlt), if_true] at hnone
      split_ifs at hnone
    · simp only [hbelow.2 (rounds_wholeUnits hj hle), if_true] at hnone
      split_ifs at hnone
  · intro hnone
    rw [candidate_eq, if_neg (mt hbelow.1 (hnone _)), if_neg (mt habove.1 (hnone _))]

/-- What a grid offers is on it, and preferred to all of its points that round to the magnitude. -/
theorem candidate_preferred (hx : x.magnitude ≠ 0) (hc : x.candidate e = some c) :
    c.exponent = e ∧ ∀ j : ℕ, x.Rounds (j * 10 ^ e) → x.Preferred c ⟨j, e⟩ := by
  have hbelow := readsBack_iff (c := ⟨x.wholeUnits e, e⟩) hx
  have habove := readsBack_iff (c := ⟨x.wholeUnits e + 1, e⟩) hx
  rw [Decimal.value] at hbelow habove
  rw [candidate_eq] at hc
  split_ifs at hc with hb ha ha
  · obtain rfl := Option.some.inj hc
    exact ⟨rfl, fun j _ => x.nearestUnits_preferred e j⟩
  · obtain rfl := Option.some.inj hc
    refine ⟨rfl, fun j hj => wholeUnits_preferred (Nat.le_of_not_lt fun hlt => ?_)⟩
    exact ha (habove.2 (rounds_wholeUnits_succ hj hlt))
  · obtain rfl := Option.some.inj hc
    refine ⟨rfl, fun j hj => wholeUnits_succ_preferred (Nat.lt_of_not_le fun hle => ?_)⟩
    exact hb (hbelow.2 (rounds_wholeUnits hj hle))

/-! ### From grid to grid -/

/-- A grid offers something if its points lie closer than the bounds of what rounds to the
magnitude. -/
theorem candidate_ne_none (hx : x.magnitude ≠ 0)
    (hclose : (10 : ℚ) ^ e < x.roomBelow + x.step / 2) : x.candidate e ≠ none := by
  intro hnone
  rw [candidate_eq_none_iff hx] at hnone
  have hstep := x.step_pos
  have hroom := x.roomBelow_pos
  have hbelow := x.wholeUnits_le e
  have habove := x.size_lt e
  have hfar := (far_of_not_rounds (hnone (x.wholeUnits e))).resolve_right (by linarith)
  have hfar' := (far_of_not_rounds (hnone (x.wholeUnits e + 1))).resolve_left (by linarith)
  push_cast at hfar'
  linarith

/-- Seventeen digits always suffice. -/
theorem candidate_seventeen (hx : x.magnitude ≠ 0) : x.candidate (x.leading - 16) ≠ none := by
  have hstep := x.step_pos
  have hunit : (10 : ℚ) ^ (x.leading - 16) * 10 ^ 16 ≤ x.size := by
    calc (10 : ℚ) ^ (x.leading - 16) * 10 ^ 16 = 10 ^ x.leading := by
          rw [← zpow_natCast, ← zpow_add₀ (by norm_num)]
          congr 1
          omega
      _ ≤ x.size := (leading_spec hx).1
  apply candidate_ne_none hx
  rw [roomBelow]
  split
  next hpow =>
    rw [size, hpow.1] at hunit
    push_cast at hunit
    linarith
  next =>
    have hsize : x.size < 2 ^ 53 * x.step :=
      mul_lt_mul_of_pos_right (by exact_mod_cast x.significand_lt) hstep
    linarith

theorem shortestFrom_spec {room i : ℕ} (hfound : x.candidate (e - i) ≠ none) (hi : i < room) :
    ∃ k ≤ i, x.candidate (e - k) = some (x.shortestFrom e room) ∧
      ∀ l < k, x.candidate (e - l) = none := by
  induction room generalizing e i with
  | zero => omega
  | succ room ih =>
    rw [shortestFrom]
    cases hc : x.candidate e with
    | some c => exact ⟨0, Nat.zero_le i, by rwa [Nat.cast_zero, sub_zero], by simp⟩
    | none =>
      obtain ⟨i, rfl⟩ := Nat.exists_eq_succ_of_ne_zero fun h0 : i = 0 => hfound (by simpa [h0])
      have hshift (n : ℕ) : e - (n + 1 : ℕ) = e - 1 - n := by
        push_cast
        ring
      rw [Nat.succ_eq_add_one, hshift] at hfound
      obtain ⟨k, hk, hsome, hnone⟩ := ih hfound (Nat.lt_of_succ_lt_succ hi)
      refine ⟨k + 1, Nat.succ_le_succ hk, by rwa [hshift], fun l hl => ?_⟩
      cases l with
      | zero => rwa [Nat.cast_zero, sub_zero]
      | succ l => rw [hshift, hnone l (Nat.lt_of_succ_lt_succ hl)]

/-- A decimal is a point of every finer grid. -/
theorem exists_value_eq (c : Decimal) (he : e ≤ c.exponent) : ∃ j : ℕ, c.value = j * 10 ^ e := by
  refine ⟨c.digits * 10 ^ (c.exponent - e).toNat, ?_⟩
  push_cast
  rw [Decimal.value, mul_assoc, ← zpow_natCast, ← zpow_add₀ (by norm_num)]
  congr 2
  omega

/-- **The chosen decimal is the shortest.** It reads back, and has seventeen digits at most, counted
from the leading digit of the magnitude. Every decimal that reads back ends at the same place or
further to the right, where one that ends in front of the leading digit counts as ending there. Of
those that end at the same place the chosen one is the nearest, or the even one of two. -/
theorem shortest_spec (hx : x.magnitude ≠ 0) :
    x.readsBack x.shortest = true ∧
      x.leading - 16 ≤ x.shortest.exponent ∧ x.shortest.exponent ≤ x.leading ∧
        ∀ c : Decimal, x.readsBack c = true → min c.exponent x.leading ≤ x.shortest.exponent ∧
          (c.exponent = x.shortest.exponent → x.Preferred x.shortest c) := by
  have hfound : x.candidate (x.leading - (16 : ℕ)) ≠ none := candidate_seventeen hx
  obtain ⟨k, hk, hsome, hnone⟩ := shortestFrom_spec hfound (show 16 < 18 by norm_num)
  have hshortest : x.shortest = x.shortestFrom x.leading 18 := if_neg hx
  rw [← hshortest] at hsome
  obtain ⟨hexponent, hpreferred⟩ := candidate_preferred hx hsome
  refine ⟨readsBack_of_candidate hsome, by omega, by omega, fun c hc => ?_⟩
  have hrounds := (readsBack_iff hx).1 hc
  refine ⟨le_of_not_gt fun hlt => ?_, fun heq => ?_⟩
  · obtain ⟨j, hj⟩ := exists_value_eq c (min_le_left c.exponent x.leading)
    rw [hj] at hrounds
    have hskipped := hnone (x.leading - min c.exponent x.leading).toNat (by omega)
    rw [show x.leading - (x.leading - min c.exponent x.leading).toNat =
      min c.exponent x.leading by omega] at hskipped
    exact (candidate_eq_none_iff hx).1 hskipped j hrounds
  · rw [Decimal.value, heq, hexponent] at hrounds
    have hc' := hpreferred c.digits hrounds
    rwa [← hexponent, ← heq] at hc'

/-- The number nearest to a tenth has more than fifty digits, of which one is enough. -/
example : shortest ⟨false, 0x3fb999999999999a, by decide⟩ = ⟨1, -1⟩ := by decide +kernel

end Binary64

end SelectiveDisclosure
