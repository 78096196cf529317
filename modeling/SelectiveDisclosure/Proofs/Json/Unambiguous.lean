import SelectiveDisclosure.Proofs.Json.Scanning

/-!
# The text of a value determines the value

Two values with one text are one value. The first character of a text tells whether null, a boolean,
a number, a string, an array or an object comes. A quoted string says by itself where it ends, and
behind every item or member stands a comma or a bracket, with which no value begins.

## Where a number ends

Nothing closes a number: `1` is a text, and so is `12`. So what the induction carries along is not
that a value delimits itself, but that it does so in front of a character that numbers are not
written with, or at the end of the text. Everything that is ever written behind a value is of this
kind.

Values with whole numbers only are looked at. That binary64 numbers too have different texts is a
property of shortest digits and not of JSON.

## Main definitions

* `Json.everyNumber`, `Json.Integral` — all numbers of a value pass a test, or are whole.
* `Json.Form`, `Json.form` — the six kinds of values.

## Main results

* `Number.wholeChars_inj` — whole numbers with the same digits are equal.
* `Json.form_eq_of_append_eq` — the first character tells the kind of value.
* `Json.chars_append_inj` — a value is determined by its text and whatever stands behind it.
* `Json.chars_inj` — a value is determined by its text.
-/

namespace SelectiveDisclosure

/-! ### Numbers -/

namespace Number

/-- Whether a number is whole. -/
def isWhole : Number → Bool
  | .whole _ => true
  | .real _ => false

theorem toDigits_inj {m n : Nat} (h : Nat.toDigits 10 m = Nat.toDigits 10 n) : m = n := by
  rw [← Nat.ofDigitChars_ten_toDigits (n := m), h, Nat.ofDigitChars_ten_toDigits]

theorem minus_notMem_toDigits (n : Nat) : '-' ∉ Nat.toDigits 10 n := by
  intro h
  exact absurd (Nat.isDigit_of_mem_toDigits (by decide) (by decide) h) (by decide)

/-- Whole numbers with the same digits and sign are equal. -/
theorem wholeChars_inj {m n : Int} (h : wholeChars m = wholeChars n) : m = n := by
  rw [wholeChars, wholeChars] at h
  split at h <;> split at h
  · have := toDigits_inj (List.cons.inj h).2
    omega
  · exact absurd (h ▸ List.mem_cons_self) (minus_notMem_toDigits n.natAbs)
  · exact absurd (h ▸ List.mem_cons_self) (minus_notMem_toDigits m.natAbs)
  · have := toDigits_inj h
    omega

/-- A whole number begins with a sign or a digit. -/
theorem exists_wholeChars_eq_cons (n : Int) :
    ∃ c rest, wholeChars n = c :: rest ∧ (c = '-' ∨ c.isDigit = true) := by
  rw [wholeChars]
  split
  · exact ⟨_, _, rfl, .inl rfl⟩
  · cases hdigits : Nat.toDigits 10 n.natAbs with
    | nil => exact absurd hdigits Nat.toDigits_ne_nil
    | cons c rest =>
      have hmem : c ∈ Nat.toDigits 10 n.natAbs := hdigits ▸ List.mem_cons_self
      exact ⟨c, rest, rfl, .inr (Nat.isDigit_of_mem_toDigits (by decide) (by decide) hmem)⟩

/-- Whether a text does not go on with a character that numbers are written with. -/
def Ends (rest : List Char) : Prop := ∀ c ∈ rest.head?, ¬ Spells c

theorem ends_nil : Ends [] := by simp [Ends]

theorem ends_cons {c : Char} {rest : List Char} : Ends (c :: rest) ↔ ¬ Spells c := by
  simp [Ends]

/-- Where such characters end is determined. -/
theorem append_inj_of_ends {xs ys rest rest' : List Char} (hxs : ∀ c ∈ xs, Spells c)
    (hys : ∀ c ∈ ys, Spells c) (hrest : Ends rest) (hrest' : Ends rest')
    (h : xs ++ rest = ys ++ rest') : xs = ys ∧ rest = rest' := by
  induction xs generalizing ys with
  | nil =>
    cases ys with
    | nil => exact ⟨rfl, h⟩
    | cons y ys =>
      rw [List.nil_append] at h
      rw [h, List.cons_append, ends_cons] at hrest
      exact absurd (hys y List.mem_cons_self) hrest
  | cons x xs ih =>
    cases ys with
    | nil =>
      rw [List.nil_append] at h
      rw [← h, List.cons_append, ends_cons] at hrest'
      exact absurd (hxs x List.mem_cons_self) hrest'
    | cons y ys =>
      rw [List.forall_mem_cons] at hxs hys
      obtain ⟨rfl, htail⟩ := List.cons.inj h
      obtain ⟨rfl, hends⟩ := ih hxs.2 hys.2 htail
      exact ⟨rfl, hends⟩

end Number

namespace Json

/-! ### The numbers of a value -/

mutual

/-- Whether all numbers of a value pass a test. -/
def everyNumber (p : Number → Bool) : Json → Bool
  | .number n => p n
  | .array items => everyNumberItems p items
  | .object members => everyNumberMembers p members
  | .null | .bool _ | .string _ => true

/-- Whether all numbers of the items pass a test. -/
def everyNumberItems (p : Number → Bool) : List Json → Bool
  | [] => true
  | item :: rest => item.everyNumber p && everyNumberItems p rest

/-- Whether all numbers in the values of members pass a test. -/
def everyNumberMembers (p : Number → Bool) : List (String × Json) → Bool
  | [] => true
  | (_, value) :: rest => value.everyNumber p && everyNumberMembers p rest

end

/-- Whether all numbers of a value are whole. -/
def Integral (j : Json) : Prop := j.everyNumber Number.isWhole = true

instance (j : Json) : Decidable j.Integral :=
  inferInstanceAs (Decidable (j.everyNumber Number.isWhole = true))

/-! ### What the first character tells -/

/-- The kinds of values. -/
inductive Form where
  | null
  | bool
  | number
  | string
  | array
  | object
  deriving DecidableEq, Repr

/-- What kind of value a value is. -/
def form : Json → Form
  | .null => .null
  | .bool _ => .bool
  | .number _ => .number
  | .string _ => .string
  | .array _ => .array
  | .object _ => .object

/-- The kind of value whose text begins with a character. -/
def Form.begunBy? (c : Char) : Option Form :=
  if c = 'n' then some .null
  else if c = 't' ∨ c = 'f' then some .bool
  else if c = '"' then some .string
  else if c = '[' then some .array
  else if c = '\x7b' then some .object
  else if c = '-' ∨ c.isDigit = true then some .number
  else none

theorem Form.begunBy?_of_digit {c : Char} (h : c = '-' ∨ c.isDigit = true) :
    begunBy? c = some .number := by
  have hne : ∀ d ∈ ['n', 't', 'f', '"', '[', '\x7b'], c ≠ d := by
    rintro d hd rfl
    revert h
    simp only [List.mem_cons, List.not_mem_nil, or_false] at hd
    rcases hd with rfl | rfl | rfl | rfl | rfl | rfl <;> decide
  simp only [List.forall_mem_cons] at hne
  obtain ⟨hn, ht, hf, hq, ha, ho, -⟩ := hne
  simp [begunBy?, hn, ht, hf, hq, ha, ho, h]

theorem exists_chars_eq_cons {j : Json} (hj : j.Integral) :
    ∃ c rest, j.chars = c :: rest ∧ Form.begunBy? c = some j.form := by
  match j, hj with
  | .null, _ | .bool true, _ | .bool false, _ | .array [], _ | .object [], _ =>
    rw [chars]
    exact ⟨_, _, rfl, rfl⟩
  | .array (_ :: _), _ | .object ((_, _) :: _), _ =>
    rw [chars]
    exact ⟨_, _, rfl, rfl⟩
  | .string s, _ =>
    rw [chars, quote, List.cons_append]
    exact ⟨_, _, rfl, rfl⟩
  | .number (.whole n), _ =>
    rw [chars, Number.chars]
    obtain ⟨c, rest, hn, hc⟩ := Number.exists_wholeChars_eq_cons n
    exact ⟨c, rest, hn, Form.begunBy?_of_digit hc⟩

variable {j j' : Json} {xs ys : List Char}

/-- The first character tells the kind of value. -/
theorem form_eq_of_append_eq (hj : j.Integral) (hj' : j'.Integral)
    (h : j.chars ++ xs = j'.chars ++ ys) : j.form = j'.form := by
  obtain ⟨c, rest, hchars, hc⟩ := exists_chars_eq_cons hj
  obtain ⟨c', rest', hchars', hc'⟩ := exists_chars_eq_cons hj'
  rw [hchars, hchars'] at h
  obtain ⟨rfl, -⟩ := List.cons.inj h
  exact Option.some.inj (hc.symm.trans hc')

/-- No value begins with a bracket that closes an array. -/
theorem closing_ne_chars_append (hj : j.Integral) : ']' :: ys ≠ j.chars ++ xs := by
  obtain ⟨c, rest, hchars, hc⟩ := exists_chars_eq_cons hj
  rw [hchars]
  intro h
  obtain ⟨rfl, -⟩ := List.cons.inj h
  have none : Form.begunBy? ']' = Option.none := by decide
  rw [none] at hc
  cases hc

/-! ### What can stand behind an item or member -/

theorem ends_moreItems (items : List Json) (xs : List Char) :
    Number.Ends (moreItems items ++ ']' :: xs) := by
  cases items with
  | nil =>
    rw [moreItems]
    exact Number.ends_cons.2 (by decide)
  | cons item rest =>
    rw [moreItems]
    exact Number.ends_cons.2 (by decide)

theorem ends_moreMembers (members : List (String × Json)) (xs : List Char) :
    Number.Ends (moreMembers members ++ '\x7d' :: xs) := by
  cases members with
  | nil =>
    rw [moreMembers]
    exact Number.ends_cons.2 (by decide)
  | cons member rest =>
    rw [moreMembers]
    exact Number.ends_cons.2 (by decide)

/-- Where arrays have one text, so have their items with a comma before each. -/
theorem moreItems_append_eq_of_array {items items' : List Json}
    (hj : (array items).Integral) (hj' : (array items').Integral)
    (h : (array items).chars ++ xs = (array items').chars ++ ys) :
    moreItems items ++ ']' :: xs = moreItems items' ++ ']' :: ys := by
  match items, items' with
  | [], [] => simpa [chars, moreItems] using h
  | [], item' :: rest' =>
    rw [Integral, everyNumber, everyNumberItems, Bool.and_eq_true] at hj'
    simp only [chars, List.cons_append, List.append_assoc, List.cons.injEq] at h
    exact absurd h.2 (closing_ne_chars_append hj'.1)
  | item :: rest, [] =>
    rw [Integral, everyNumber, everyNumberItems, Bool.and_eq_true] at hj
    simp only [chars, List.cons_append, List.append_assoc, List.cons.injEq] at h
    exact absurd h.2.symm (closing_ne_chars_append hj.1)
  | item :: rest, item' :: rest' => simpa [chars, moreItems] using h

/-- Where objects have one text, so have their members with a comma before each. -/
theorem moreMembers_append_eq_of_object {members members' : List (String × Json)}
    (h : (object members).chars ++ xs = (object members').chars ++ ys) :
    moreMembers members ++ '\x7d' :: xs = moreMembers members' ++ '\x7d' :: ys := by
  match members, members' with
  | [], [] => simpa [chars, moreMembers] using h
  | [], (_, _) :: _ => simp [chars, quote] at h
  | (_, _) :: _, [] => simp [chars, quote] at h
  | (_, _) :: _, (_, _) :: _ => simpa [chars, moreMembers] using h

/-! ### The induction -/

theorem bool_append_inj {b b' : Bool} (h : (bool b).chars ++ xs = (bool b').chars ++ ys) :
    b = b' ∧ xs = ys := by
  cases b <;> cases b' <;> simp_all [chars]

theorem whole_append_inj {m n : Int} (hxs : Number.Ends xs) (hys : Number.Ends ys)
    (h : Number.wholeChars m ++ xs = Number.wholeChars n ++ ys) : m = n ∧ xs = ys := by
  have spells : ∀ n, ∀ c ∈ Number.wholeChars n, Number.Spells c :=
    fun n => Number.spells_of_mem_chars (n := .whole n)
  obtain ⟨hchars, hrest⟩ := Number.append_inj_of_ends (spells m) (spells n) hxs hys h
  exact ⟨Number.wholeChars_inj hchars, hrest⟩

mutual

/-- **A value is determined by its text**, whatever stands behind it that cannot be part of a
number. -/
theorem chars_append_inj : {j j' : Json} → {xs ys : List Char} → j.Integral → j'.Integral →
    Number.Ends xs → Number.Ends ys → j.chars ++ xs = j'.chars ++ ys → j = j' ∧ xs = ys
  | j, j', xs, ys, hj, hj', hxs, hys, h => by
    match j, j', form_eq_of_append_eq hj hj' h with
    | .null, .null, _ => exact ⟨rfl, List.append_cancel_left h⟩
    | .bool b, .bool b', _ =>
      obtain ⟨rfl, hrest⟩ := bool_append_inj h
      exact ⟨rfl, hrest⟩
    | .number (.whole n), .number (.whole n'), _ =>
      rw [chars, chars] at h
      obtain ⟨rfl, hrest⟩ := whole_append_inj hxs hys h
      exact ⟨rfl, hrest⟩
    | .string s, .string s', _ =>
      rw [chars, chars] at h
      obtain ⟨rfl, hrest⟩ := quote_append_inj h
      exact ⟨rfl, hrest⟩
    | .array items, .array items', _ =>
      obtain ⟨rfl, hrest⟩ :=
        moreItems_append_inj hj hj' (moreItems_append_eq_of_array hj hj' h)
      exact ⟨rfl, hrest⟩
    | .object members, .object members', _ =>
      obtain ⟨rfl, hrest⟩ :=
        moreMembers_append_inj hj hj' (moreMembers_append_eq_of_object h)
      exact ⟨rfl, hrest⟩

theorem moreItems_append_inj : {items items' : List Json} → {xs ys : List Char} →
    everyNumberItems Number.isWhole items = true → everyNumberItems Number.isWhole items' = true →
    moreItems items ++ ']' :: xs = moreItems items' ++ ']' :: ys → items = items' ∧ xs = ys
  | [], [], _, _, _, _, h => ⟨rfl, (List.cons.inj h).2⟩
  | [], _ :: _, _, _, _, _, h | _ :: _, [], _, _, _, _, h => by simp [moreItems] at h
  | item :: rest, item' :: rest', _, _, hi, hi', h => by
    rw [everyNumberItems, Bool.and_eq_true] at hi hi'
    simp only [moreItems, List.cons_append, List.append_assoc] at h
    obtain ⟨rfl, hmore⟩ := chars_append_inj hi.1 hi'.1 (ends_moreItems rest _)
      (ends_moreItems rest' _) (List.cons.inj h).2
    obtain ⟨rfl, hrest⟩ := moreItems_append_inj hi.2 hi'.2 hmore
    exact ⟨rfl, hrest⟩

theorem moreMembers_append_inj : {members members' : List (String × Json)} → {xs ys : List Char} →
    everyNumberMembers Number.isWhole members = true →
    everyNumberMembers Number.isWhole members' = true →
    moreMembers members ++ '\x7d' :: xs = moreMembers members' ++ '\x7d' :: ys →
    members = members' ∧ xs = ys
  | [], [], _, _, _, _, h => ⟨rfl, (List.cons.inj h).2⟩
  | [], (_, _) :: _, _, _, _, _, h | (_, _) :: _, [], _, _, _, _, h => by
    simp [moreMembers] at h
  | (name, value) :: rest, (name', value') :: rest', _, _, hm, hm', h => by
    rw [everyNumberMembers, Bool.and_eq_true] at hm hm'
    simp only [moreMembers, List.cons_append, List.append_assoc] at h
    obtain ⟨rfl, hvalue⟩ := quote_append_inj (List.cons.inj h).2
    obtain ⟨rfl, hmore⟩ := chars_append_inj hm.1 hm'.1 (ends_moreMembers rest _)
      (ends_moreMembers rest' _) (List.cons.inj hvalue).2
    obtain ⟨rfl, hrest⟩ := moreMembers_append_inj hm.2 hm'.2 hmore
    exact ⟨rfl, hrest⟩

end

/-- A value is determined by its text. -/
theorem chars_inj (hj : j.Integral) (hj' : j'.Integral) (h : j.chars = j'.chars) : j = j' :=
  (chars_append_inj hj hj' Number.ends_nil Number.ends_nil (congrArg (· ++ []) h)).1

end Json

end SelectiveDisclosure
