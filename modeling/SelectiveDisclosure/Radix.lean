import SelectiveDisclosure.Bytes

/-!
# Positional notation

The digits of a number in any base, least significant digit first and without leading zeros, so that
zero has no digits at all.

## Main definitions

* `Radix.digits` — the digits of a number.
* `Radix.value` — the number that digits spell.

## Main results

* `Radix.value_digits` — digits spell the number they were taken from, if enough were asked for.

## Implementation notes

`digits` is told how many digits it may produce. Asking for too many is harmless, because the list
ends where the number is used up.
-/

namespace SelectiveDisclosure.Radix

/-- The digits of `n`, least significant first, at most `room` of them. -/
def digits (base : Nat) : (room n : Nat) → List Nat
  | 0, _ => []
  | room + 1, n => if n = 0 then [] else n % base :: digits base room (n / base)

/-- The number that digits spell, least significant first. -/
def value (base : Nat) (ds : List Nat) : Nat := ds.foldr (fun d n => d + base * n) 0

@[simp] theorem value_nil (base : Nat) : value base [] = 0 := rfl

@[simp] theorem value_cons (base d : Nat) (ds : List Nat) :
    value base (d :: ds) = d + base * value base ds := rfl

@[simp] theorem digits_zero (base room : Nat) : digits base room 0 = [] := by
  cases room <;> simp [digits]

theorem value_digits {base room n : Nat} (h : n < Nat.pow base room) :
    value base (digits base room n) = n := by
  induction room generalizing n with
  | zero => simp at h; simp [h]
  | succ room ih =>
    by_cases hn : n = 0
    · simp [hn]
    · have : n / base < Nat.pow base room := by
        rw [Nat.div_lt_iff_lt_mul (Nat.pos_of_ne_zero fun hb => by simp [hb] at h)]
        exact h
      simp [digits, hn, ih this, Nat.mod_add_div]

end SelectiveDisclosure.Radix
