import SelectiveDisclosure.Text.Printable

/-!
# Quoted text

Reports quote the names and characters they speak of. Between the quotes stand the characters
themselves, except that the delimiter, the backslash and the usual controls have a short escape and
every other character that would not show is given by its number.

## Main definitions

* `quoted` — a text between double quotes.
* `quotedChar` — a character between single quotes.

## Implementation notes

Only the delimiter at hand is escaped: a single quote stands bare in a text, a double quote stands
bare in a character.
-/

namespace SelectiveDisclosure.Text

/-- A number in lowercase hexadecimal digits. -/
def hexNumber (n : Nat) : List Char := Nat.toDigits 16 n

/-- A character as it stands between delimiters. -/
def escaped (delimiter c : Char) : List Char :=
  if c = '\x00' then ['\\', '0']
  else if c = '\t' then ['\\', 't']
  else if c = '\n' then ['\\', 'n']
  else if c = '\r' then ['\\', 'r']
  else if c = '\\' ∨ c = delimiter then ['\\', c]
  else if isPrintable c then [c]
  else ['\\', 'u', '\x7b'] ++ hexNumber c.toNat ++ ['\x7d']

/-- A text between double quotes. -/
def quoted (s : String) : String :=
  String.ofList ('"' :: s.toList.flatMap (escaped '"') ++ ['"'])

/-- A character between single quotes. -/
def quotedChar (c : Char) : String := String.ofList ('\'' :: escaped '\'' c ++ ['\''])

example : (quoted "say \"hi\"\n").toList = "\"say \\\"hi\\\"\\n\"".toList := by decide
example : (quotedChar '\'').toList = ['\'', '\\', '\'', '\''] := by decide

end SelectiveDisclosure.Text
