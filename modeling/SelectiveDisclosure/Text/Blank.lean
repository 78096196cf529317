/-!
# Blank text

A text is blank when every character of it is white space: the twenty-five code points with the
Unicode property `White_Space`, which takes in the no-break spaces and the line and paragraph
separators as well as the ASCII ones.

## Main definitions

* `isBlankChar` — the character is white space.
* `isBlank` — the text holds nothing else.

## Main results

* `isBlankChar_of_isWhitespace` — the ASCII white space of the standard library is white space here.
-/

namespace SelectiveDisclosure.Text

/-- The white-space characters, as inclusive ranges of code points. -/
def blankRanges : List (Nat × Nat) := [
  (0x9, 0xd), (0x20, 0x20), (0x85, 0x85), (0xa0, 0xa0), (0x1680, 0x1680), (0x2000, 0x200a),
  (0x2028, 0x2029), (0x202f, 0x202f), (0x205f, 0x205f), (0x3000, 0x3000)]

/-- Whether a character is white space. -/
def isBlankChar (c : Char) : Bool :=
  blankRanges.any fun range => range.1 ≤ c.toNat && c.toNat ≤ range.2

/-- Whether a text holds white space only. The empty text is blank. -/
def isBlank (s : String) : Bool := s.toList.all isBlankChar

theorem isBlankChar_of_isWhitespace {c : Char} (h : c.isWhitespace) : isBlankChar c := by
  simp only [Char.isWhitespace, Bool.or_eq_true, decide_eq_true_eq] at h
  rcases h with ((rfl | rfl) | rfl) | rfl <;> decide

/-- The ranges hold twenty-five characters. -/
example : (blankRanges.map fun range => range.2 + 1 - range.1).sum = 25 := by decide

end SelectiveDisclosure.Text
