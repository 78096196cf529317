import Mathlib.Data.List.TakeWhile
import Mathlib.Data.Nat.Digits.Lemmas
import SelectiveDisclosure.Fault
import SelectiveDisclosure.Text.Base58

/-!
# Base58 texts and byte strings are one to one

A text is Base58 of just one byte string, and a byte string has just one Base58 text. The two are
the digits of one number in two bases, with as many leading zeros on both sides.

The zeros are what needs care. They do not count for the number, and neither base can tell how many
there were in the other. Writing them down apart works because the digits of a number never begin
with one, so that it is seen again where they end.

## Main definitions

* `Radix.rebase` — digits in another base, with as many leading zeros.

## Main results

* `Radix.digits_eq` — with enough room, the digits of a number are those of the standard library.
* `Radix.rebase_rebase` — changing the base and changing it back gives the same digits.
* `Base58.digitValues_eq_ok_iff` — which texts consist of digits, and of which.
* `Base58.decode_eq_ok_iff` — a text is read as a byte string exactly if it is the text of it.
-/

namespace SelectiveDisclosure

/-! ### Another base -/

namespace Radix

variable {base base' room room' n : ℕ} {ds : List ℕ}

theorem value_eq_ofDigits (base : ℕ) (ds : List ℕ) : value base ds = Nat.ofDigits base ds := by
  induction ds with
  | nil => rfl
  | cons d ds ih => rw [value_cons, ih, Nat.ofDigits_cons]

theorem digits_eq (hbase : 1 < base) (hroom : n < base ^ room) :
    digits base room n = Nat.digits base n := by
  induction room generalizing n with
  | zero =>
    obtain rfl : n = 0 := by simpa using hroom
    simp
  | succ room ih =>
    by_cases hn : n = 0
    · simp [hn]
    · have hdiv : n / base < base ^ room := Nat.div_lt_of_lt_mul (by rwa [← pow_succ'])
      rw [digits, if_neg hn, ih hdiv, Nat.digits_def' hbase (Nat.pos_of_ne_zero hn)]

/-- The digits of a number, most significant first, in another base and with as many leading
zeros. -/
def rebase (base base' room : ℕ) (ds : List ℕ) : List ℕ :=
  ds.takeWhile (· = 0) ++ (digits base' room (value base ds.reverse)).reverse

/-- Leading zeros do not count. -/
theorem value_reverse_append_zeros {zs : List ℕ} (hzs : ∀ z ∈ zs, z = 0) :
    value base (zs ++ ds).reverse = value base ds.reverse := by
  rw [List.eq_replicate_of_mem hzs, List.reverse_append, List.reverse_replicate,
    value_eq_ofDigits, Nat.ofDigits_append_replicate_zero, value_eq_ofDigits]

/-- The digits of a number do not begin with a zero, so leading zeros are told apart from them. -/
theorem takeWhile_append_digits {zs : List ℕ} (hzs : ∀ z ∈ zs, z = 0) (base n : ℕ) :
    (zs ++ (Nat.digits base n).reverse).takeWhile (· = 0) = zs := by
  rw [List.takeWhile_append_of_pos (by simpa using hzs)]
  cases hreverse : (Nat.digits base n).reverse with
  | nil => simp
  | cons d rest =>
    have hdigits : Nat.digits base n = rest.reverse ++ [d] := by
      rw [← List.reverse_cons, ← hreverse, List.reverse_reverse]
    have hn : n ≠ 0 := by
      rintro rfl
      simp at hdigits
    have hlast := Nat.getLast_digit_ne_zero base hn
    have hd : d ≠ 0 := by simpa [hdigits] using hlast
    simp [hd]

theorem eq_zero_of_mem_takeWhile {z : ℕ} (hz : z ∈ ds.takeWhile (· = 0)) : z = 0 := by
  simpa using List.mem_takeWhile_imp hz

/-- Behind the leading zeros stand the digits of the number. -/
theorem digits_value_dropWhile (hbase : 1 < base) (hds : ∀ d ∈ ds, d < base) :
    (Nat.digits base (value base ds.reverse)).reverse = ds.dropWhile (· = 0) := by
  have hvalue : value base ds.reverse = Nat.ofDigits base (ds.dropWhile (· = 0)).reverse := by
    conv_lhs => rw [← List.takeWhile_append_dropWhile (p := (· = 0)) (l := ds)]
    rw [value_reverse_append_zeros fun z hz => eq_zero_of_mem_takeWhile hz, value_eq_ofDigits]
  rw [hvalue, Nat.digits_ofDigits base hbase, List.reverse_reverse]
  · intro d hd
    exact hds d ((List.dropWhile_sublist _).subset (List.mem_reverse.1 hd))
  · intro hne
    rw [List.getLast_reverse]
    exact of_decide_eq_false (List.head_dropWhile_not (· = 0) (List.reverse_ne_nil_iff.1 hne))

theorem value_reverse_lt (hbase : 1 < base) (hds : ∀ d ∈ ds, d < base) :
    value base ds.reverse < base ^ ds.length := by
  rw [value_eq_ofDigits, ← List.length_reverse]
  exact Nat.ofDigits_lt_base_pow_length hbase fun d hd => hds d (List.mem_reverse.1 hd)

theorem rebase_eq (hbase : 1 < base) (hbase' : 1 < base') (hds : ∀ d ∈ ds, d < base)
    (hroom : base ^ ds.length ≤ base' ^ room) :
    rebase base base' room ds =
      ds.takeWhile (· = 0) ++ (Nat.digits base' (value base ds.reverse)).reverse := by
  rw [rebase, digits_eq hbase' ((value_reverse_lt hbase hds).trans_le hroom)]

theorem lt_of_mem_rebase (hbase : 1 < base) (hbase' : 1 < base') (hds : ∀ d ∈ ds, d < base)
    (hroom : base ^ ds.length ≤ base' ^ room) {d : ℕ} (hd : d ∈ rebase base base' room ds) :
    d < base' := by
  rw [rebase_eq hbase hbase' hds hroom] at hd
  rcases List.mem_append.1 hd with hd | hd
  · rw [eq_zero_of_mem_takeWhile hd]
    omega
  · exact Nat.digits_lt_base hbase' (List.mem_reverse.1 hd)

/-- **Changing the base and changing it back gives the same digits**, leading zeros included. -/
theorem rebase_rebase (hbase : 1 < base) (hbase' : 1 < base') (hds : ∀ d ∈ ds, d < base)
    (hroom : base ^ ds.length ≤ base' ^ room)
    (hroom' : base' ^ (rebase base base' room ds).length ≤ base ^ room') :
    rebase base' base room' (rebase base base' room ds) = ds := by
  have hzeros : ∀ z ∈ ds.takeWhile (· = 0), z = 0 := fun z hz => eq_zero_of_mem_takeWhile hz
  rw [rebase_eq hbase' hbase (fun d hd => lt_of_mem_rebase hbase hbase' hds hroom hd) hroom',
    rebase_eq hbase hbase' hds hroom, takeWhile_append_digits hzeros,
    value_reverse_append_zeros hzeros, List.reverse_reverse, value_eq_ofDigits base',
    Nat.ofDigits_digits, digits_value_dropWhile hbase hds, List.takeWhile_append_dropWhile]

end Radix

/-! ### Byte strings and digits -/

namespace Base58

open Radix

/-- A byte string as digits in base 256. -/
def byteDigits (bs : Bytes) : List ℕ := bs.map (·.toNat)

theorem byteDigits_lt (bs : Bytes) : ∀ d ∈ byteDigits bs, d < 256 := by
  intro d hd
  obtain ⟨b, -, rfl⟩ := List.mem_map.1 hd
  exact b.toNat_lt

theorem map_ofNat_byteDigits (bs : Bytes) : (byteDigits bs).map UInt8.ofNat = bs := by
  simp [byteDigits, Function.comp_def]

theorem byteDigits_map_ofNat {ds : List ℕ} (hds : ∀ d ∈ ds, d < 256) :
    byteDigits (ds.map UInt8.ofNat) = ds := by
  rw [byteDigits, List.map_map]
  refine (List.map_congr_left fun d hd => ?_).trans (List.map_id _)
  exact UInt8.toNat_ofNat_of_lt' (hds d hd)

/-- The characters of a byte string are its digits in base 58. -/
theorem chars_eq (bs : Bytes) :
    chars bs = (rebase 256 58 (2 * bs.length) (byteDigits bs)).map digit := by
  have hvalue : bs.toNatBE = value 256 (byteDigits bs).reverse := by
    rw [Bytes.toNatBE, value, List.foldr_reverse, byteDigits, List.foldl_map]
    simp only [Nat.add_comm]
  have hzeros : ((byteDigits bs).takeWhile (· = 0)).map digit =
      (bs.takeWhile (· = 0)).map fun _ => '1' := by
    have htest : (fun d : ℕ => decide (d = 0)) ∘ UInt8.toNat = fun b => decide (b = 0) := by
      funext b
      exact decide_eq_decide.2 (UInt8.toNat_inj (b := 0))
    rw [byteDigits, List.takeWhile_map, htest, List.map_map]
    refine List.map_congr_left fun b hb => ?_
    obtain rfl : b = 0 := by simpa using List.mem_takeWhile_imp hb
    rfl
  rw [chars, rebase, List.map_append, hzeros, hvalue]

/-- What digits in base 58 spell are their digits in base 256. -/
theorem spelled_eq (ds : List ℕ) :
    spelled ds = (rebase 58 256 ds.length ds).map UInt8.ofNat := by
  have hzeros : (ds.takeWhile (· = 0)).map UInt8.ofNat = (ds.takeWhile (· = 0)).map fun _ => 0 :=
    List.map_congr_left fun d hd => by rw [eq_zero_of_mem_takeWhile hd]; rfl
  rw [spelled, rebase, List.map_append, hzeros]

/-- Two digits in base 58 have room for a byte. -/
theorem room_le (bs : Bytes) : 256 ^ (byteDigits bs).length ≤ 58 ^ (2 * bs.length) := by
  rw [byteDigits, List.length_map, pow_mul]
  exact Nat.pow_le_pow_left (by norm_num) _

theorem spelled_rebase (bs : Bytes) :
    spelled (rebase 256 58 (2 * bs.length) (byteDigits bs)) = bs := by
  rw [spelled_eq, rebase_rebase (by norm_num) (by norm_num) (byteDigits_lt bs) (room_le bs),
    map_ofNat_byteDigits]
  exact Nat.pow_le_pow_left (by norm_num) _

theorem chars_spelled {ds : List ℕ} (hds : ∀ d ∈ ds, d < 58) :
    chars (spelled ds) = ds.map digit := by
  have hroom : 58 ^ ds.length ≤ 256 ^ ds.length := Nat.pow_le_pow_left (by norm_num) _
  have hlt : ∀ d ∈ rebase 58 256 ds.length ds, d < 256 := fun d hd =>
    lt_of_mem_rebase (by norm_num) (by norm_num) hds hroom hd
  rw [chars_eq, spelled_eq, byteDigits_map_ofNat hlt, List.length_map,
    rebase_rebase (by norm_num) (by norm_num) hds hroom]
  rw [pow_mul]
  exact Nat.pow_le_pow_left (by norm_num) _

/-! ### Digits and characters -/

/-- The UTF-8 byte of a digit. -/
def digitByte (d : ℕ) : UInt8 := UInt8.ofNat (digit d).toNat

theorem digit_spells {d : ℕ} (hd : d < 58) :
    String.utf8EncodeChar (digit d) = [digitByte d] ∧ digitByte d < 128 ∧
      alphabet.idxOf? (Char.ofNat (digitByte d).toNat) = some d := by
  revert d
  decide +kernel

theorem utf8_digits {ds : List ℕ} (hds : ∀ d ∈ ds, d < 58) :
    utf8 (String.ofList (ds.map digit)) = ds.map digitByte := by
  rw [utf8_ofList, List.flatMap_map]
  induction ds with
  | nil => rfl
  | cons d ds ih =>
    obtain ⟨hd, hrest⟩ := List.forall_mem_cons.1 hds
    rw [List.flatMap_cons, List.map_cons, (digit_spells hd).1, ih hrest]
    rfl

/-- A byte that is read as a digit is the byte of it. -/
theorem eq_digitByte_of_idxOf? {b : UInt8} {d : ℕ} (hb : b < 128)
    (h : alphabet.idxOf? (Char.ofNat b.toNat) = some d) : d < 58 ∧ b = digitByte d := by
  obtain ⟨hd, hdigit, -⟩ := List.idxOf?_eq_some_iff.1 h
  have hascii : ∀ n < 128, (Char.ofNat n).toNat = n := by decide
  refine ⟨hd, ?_⟩
  rw [digitByte, digit, List.getD_eq_getElem?_getD, List.getElem?_eq_getElem hd, Option.getD_some,
    hdigit, hascii b.toNat hb, UInt8.ofNat_toNat]

theorem digitValues_map_digitByte {ds : List ℕ} (hds : ∀ d ∈ ds, d < 58) (position : ℕ) :
    digitValues position (ds.map digitByte) = .ok ds := by
  induction ds generalizing position with
  | nil => rfl
  | cons d ds ih =>
    obtain ⟨hd, hrest⟩ := List.forall_mem_cons.1 hds
    obtain ⟨-, hascii, hvalue⟩ := digit_spells hd
    rw [List.map_cons, digitValues, if_neg (UInt8.not_le.2 hascii), hvalue, ih hrest]
    rfl

/-- **The bytes that are read as digits are those of the digits.** -/
theorem digitValues_eq_ok_iff {position : ℕ} {bs : Bytes} {ds : List ℕ} :
    digitValues position bs = .ok ds ↔ (∀ d ∈ ds, d < 58) ∧ bs = ds.map digitByte := by
  constructor
  · intro h
    induction bs generalizing position ds with
    | nil =>
      obtain rfl := Except.ok.inj h
      simp
    | cons b rest ih =>
      rw [digitValues] at h
      split at h
      · simp at h
      · next hb =>
        split at h
        · simp at h
        · next d hd =>
          obtain ⟨others, hothers, rfl⟩ := map_eq_ok_iff.1 h
          obtain ⟨hlt, rfl⟩ := ih hothers
          obtain ⟨hd58, rfl⟩ := eq_digitByte_of_idxOf? (UInt8.not_le.1 hb) hd
          exact ⟨List.forall_mem_cons.2 ⟨hd58, hlt⟩, rfl⟩
  · rintro ⟨hds, rfl⟩
    exact digitValues_map_digitByte hds position

/-- **A text is read as a byte string exactly if it is the text of it.** -/
theorem decode_eq_ok_iff {s : String} {bs : Bytes} : decode s = .ok bs ↔ s = encode bs := by
  rw [decode, map_eq_ok_iff]
  constructor
  · rintro ⟨ds, hds, rfl⟩
    obtain ⟨hlt, hbytes⟩ := digitValues_eq_ok_iff.1 hds
    refine utf8_inj ?_
    rw [encode, chars_spelled hlt, utf8_digits hlt, hbytes]
  · rintro rfl
    have hlt : ∀ d ∈ rebase 256 58 (2 * bs.length) (byteDigits bs), d < 58 := fun d hd =>
      lt_of_mem_rebase (by norm_num) (by norm_num) (byteDigits_lt bs) (room_le bs) hd
    refine ⟨_, digitValues_eq_ok_iff.2 ⟨hlt, ?_⟩, spelled_rebase bs⟩
    rw [encode, chars_eq, utf8_digits hlt]

theorem encode_inj {bs bs' : Bytes} (h : encode bs = encode bs') : bs = bs' :=
  Except.ok.inj ((decode_eq_ok_iff.2 rfl).symm.trans (decode_eq_ok_iff.2 h))

end Base58

end SelectiveDisclosure
