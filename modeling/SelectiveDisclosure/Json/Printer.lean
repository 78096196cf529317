import SelectiveDisclosure.Decimal.Shortest
import SelectiveDisclosure.Json.Basic
import SelectiveDisclosure.Text.Hex

/-!
# Compact JSON text

JSON is written without blanks and with the members of an object in their given order.

In a string the quote, the backslash and the controls below U+0020 are escaped, and nothing else. A
binary64 number is written with the shortest digits that read back: with a point where the exponent
of its leading digit is from `-5` to `15`, in scientific notation elsewhere.

## Main definitions

* `Json.chars`, `Json.text` — the text of a value.
* `Json.quote`, `Json.escape` — the text of a string and of each character in it.
* `Number.chars` — the text of a number.

## Main results

* `Json.escape_eq_self` — which characters stand for themselves in a string.
-/

namespace SelectiveDisclosure

/-! ### Numbers -/

namespace Number

/-- The least exponent of the leading digit that is written with a point. -/
def pointFrom : Int := -5

/-- The exponents of the leading digit below this one are written with a point. -/
def pointBelow : Int := 16

/-- The text of a whole number. -/
def wholeChars (n : Int) : List Char :=
  if n < 0 then '-' :: Nat.toDigits 10 n.natAbs else Nat.toDigits 10 n.natAbs

/-- Digits without the zeros at their end, of which one stays if there is nothing else. -/
def trimmed (ds : List Char) : List Char :=
  match (ds.reverse.dropWhile (· = '0')).reverse with
  | [] => ['0']
  | ds => ds

/-- Digits with a point behind the first `n`, with zeros where digits lack. A zero stands behind a
point that would be last. -/
def pointed (ds : List Char) (n : Nat) : List Char :=
  let whole := (ds ++ List.replicate (n - ds.length) '0').take n
  let fraction := ds.drop n
  whole ++ '.' :: (if fraction.isEmpty then ['0'] else fraction)

/-- The text of digits with a leading digit that counts `10 ^ e`. -/
def layOut (ds : List Char) (e : Int) : List Char :=
  if pointFrom ≤ e ∧ e < pointBelow then
    if 0 ≤ e then pointed ds (e.toNat + 1)
    else '0' :: '.' :: List.replicate ((-e).toNat - 1) '0' ++ ds
  else
    let mantissa := match ds with
      | [] | [_] => ds
      | first :: rest => first :: '.' :: rest
    mantissa ++ 'e' :: (if 0 ≤ e then '+' else '-') :: Nat.toDigits 10 e.natAbs

/-- The text of a binary64 number. -/
def realChars (x : Binary64) : List Char :=
  let c := x.shortest
  let ds := Nat.toDigits 10 c.digits
  let text :=
    if x.magnitude = 0 then ['0', '.', '0']
    else layOut (trimmed ds) (c.exponent + ds.length - 1)
  if x.negative then '-' :: text else text

/-- The text of a number. -/
def chars : Number → List Char
  | .whole n => wholeChars n
  | .real x => realChars x

end Number

namespace Json

/-! ### Strings -/

/-- A character of a string as it is written. -/
def escape (c : Char) : List Char :=
  if c = '"' then ['\\', '"']
  else if c = '\\' then ['\\', '\\']
  else if c = '\x08' then ['\\', 'b']
  else if c = '\t' then ['\\', 't']
  else if c = '\n' then ['\\', 'n']
  else if c = '\x0c' then ['\\', 'f']
  else if c = '\r' then ['\\', 'r']
  else if c.toNat < 0x20 then
    ['\\', 'u', '0', '0', Hex.digit (c.toNat / 16), Hex.digit (c.toNat % 16)]
  else [c]

theorem escape_eq_self {c : Char} (h : 0x20 ≤ c.toNat) (hq : c ≠ '"') (hb : c ≠ '\\') :
    escape c = [c] := by
  have h8 : c ≠ '\x08' := by rintro rfl; simp at h
  have ht : c ≠ '\t' := by rintro rfl; simp at h
  have hn : c ≠ '\n' := by rintro rfl; simp at h
  have hf : c ≠ '\x0c' := by rintro rfl; simp at h
  have hr : c ≠ '\r' := by rintro rfl; simp at h
  simp [escape, hq, hb, h8, ht, hn, hf, hr, Nat.not_lt.2 h]

/-- The text of a string. -/
def quote (s : String) : List Char := '"' :: s.toList.flatMap escape ++ ['"']

/-! ### Values -/

mutual

/-- The characters of the text of a value. -/
def chars : Json → List Char
  | .null => ['n', 'u', 'l', 'l']
  | .bool true => ['t', 'r', 'u', 'e']
  | .bool false => ['f', 'a', 'l', 's', 'e']
  | .number n => n.chars
  | .string s => quote s
  | .array [] => ['[', ']']
  | .array (item :: rest) => '[' :: (item.chars ++ (moreItems rest ++ [']']))
  | .object [] => ['\x7b', '\x7d']
  | .object ((name, value) :: rest) =>
    '\x7b' :: (quote name ++ ':' :: (value.chars ++ (moreMembers rest ++ ['\x7d'])))

/-- The items behind the first, each behind a comma. -/
def moreItems : List Json → List Char
  | [] => []
  | item :: rest => ',' :: (item.chars ++ moreItems rest)

/-- The members behind the first, each behind a comma. -/
def moreMembers : List (String × Json) → List Char
  | [] => []
  | (name, value) :: rest => ',' :: (quote name ++ ':' :: (value.chars ++ moreMembers rest))

end

/-- The text of a value. -/
def text (j : Json) : String := String.ofList j.chars

end Json

end SelectiveDisclosure
