import SelectiveDisclosure.Json.Literal
import SelectiveDisclosure.Json.Printer

/-!
# Quoted strings are read back, and delimit themselves

A string is written between quotes with some of its characters escaped. Reading such a literal one
character at a time gives the string back and stops exactly behind the closing quote, whatever
comes next. So a quoted string says by itself where it ends: two texts that begin with quoted
strings and are equal begin with the same string.

## Main definitions

* `Literal.read` — reads a literal up to and including its closing quote.

## Main results

* `Json.escape_forms` — the three ways in which a character is written.
* `Literal.read_escape` — an escaped character is read back as the character.
* `Literal.read_quote` — a quoted string is read back, and nothing behind it is touched.
* `Json.quote_append_inj` — a quoted string delimits itself.
-/

namespace SelectiveDisclosure

namespace Json

/-- The characters with a short escape. -/
def shortened : List Char := ['"', '\\', '\x08', '\t', '\n', '\x0c', '\r']

/-- A character with a short escape is written as a backslash and a letter that stands for it. -/
theorem escape_of_mem_shortened : ∀ c ∈ shortened, ∃ letter ∈ ['"', '\\', 'b', 't', 'n', 'f', 'r'],
    letter ≠ 'u' ∧ Literal.short? letter = some c ∧ escape c = ['\\', letter] := by
  simp only [shortened, List.forall_mem_cons, List.not_mem_nil, false_implies, implies_true,
    and_true]
  exact ⟨⟨'"', by decide⟩, ⟨'\\', by decide⟩, ⟨'b', by decide⟩, ⟨'t', by decide⟩,
    ⟨'n', by decide⟩, ⟨'f', by decide⟩, ⟨'r', by decide⟩⟩

/-- The three ways in which a character is written: as itself, with a short escape, or with an
escape by number. -/
theorem escape_forms (c : Char) :
    (0x20 ≤ c.toNat ∧ c ≠ '"' ∧ c ≠ '\\' ∧ escape c = [c]) ∨
      (∃ letter, letter ≠ 'u' ∧ Literal.short? letter = some c ∧ escape c = ['\\', letter]) ∨
      (c.toNat < 0x20 ∧ escape c =
        ['\\', 'u', '0', '0', Hex.digit (c.toNat / 16), Hex.digit (c.toNat % 16)]) := by
  by_cases hs : c ∈ shortened
  · obtain ⟨letter, -, hu, hl, he⟩ := escape_of_mem_shortened c hs
    exact .inr (.inl ⟨letter, hu, hl, he⟩)
  · simp only [shortened, List.mem_cons, List.not_mem_nil, or_false, not_or] at hs
    obtain ⟨hq, hb, h8, ht, hn, hf, hr⟩ := hs
    by_cases h : c.toNat < 0x20
    · exact .inr (.inr ⟨h, by simp [escape, hq, hb, h8, ht, hn, hf, hr, h]⟩)
    · exact .inl ⟨Nat.not_lt.1 h, hq, hb, escape_eq_self (Nat.not_lt.1 h) hq hb⟩

end Json

namespace Literal

/-- Reads a literal up to and including its closing quote: its value and the rest of the text. -/
def read : Literal → List Char → Option (Option String × List Char)
  | _, [] => none
  | l, c :: rest =>
    match l.push c with
    | .more l => read l rest
    | .over value => some (value, rest)
    | .wrong => none

theorem read_cons_of_more {l m : Literal} {c : Char} (h : l.push c = .more m) (rest : List Char) :
    l.read (c :: rest) = m.read rest := by
  rw [read, h]

/-- The literal behind an opening quote in which these characters have been read. -/
def plain (done : List Char) : Literal := ⟨.plain, done, none, false⟩

theorem push_plain {done : List Char} {c : Char} (h : 0x20 ≤ c.toNat) (hq : c ≠ '"')
    (hb : c ≠ '\\') : (plain done).push c = .more (plain (c :: done)) := by
  simp [push, plain, add, hq, hb, Nat.not_lt.2 h]

/-- A backslash and the letter of a short escape are read as the character it stands for. -/
theorem read_short {done : List Char} {letter c : Char} (hu : letter ≠ 'u')
    (h : short? letter = some c) (rest : List Char) :
    (plain done).read ('\\' :: letter :: rest) = (plain (c :: done)).read rest := by
  simp [read, push, plain, add, hu, h]

theorem digit?_digit : ∀ n < 16, digit? (Hex.digit n) = some n := by decide

/-- The escape by number of a control character is read as that character. -/
theorem read_control {done : List Char} {c : Char} (h : c.toNat < 0x20) (rest : List Char) :
    (plain done).read ('\\' :: 'u' :: '0' :: '0' :: Hex.digit (c.toNat / 16) ::
      Hex.digit (c.toNat % 16) :: rest) = (plain (c :: done)).read rest := by
  have high : digit? (Hex.digit (c.toNat / 16)) = some (c.toNat / 16) :=
    digit?_digit _ (by omega)
  have low : digit? (Hex.digit (c.toNat % 16)) = some (c.toNat % 16) := digit?_digit _ (by omega)
  have zero : digit? '0' = some 0 := by decide
  have whole : 16 * (c.toNat / 16) + c.toNat % 16 = c.toNat := by omega
  have below : ¬ 0xdc00 ≤ c.toNat := by omega
  have below' : ¬ 0xd800 ≤ c.toNat := by omega
  simp [read, push, plain, zero, high, low, whole, addUnit, below, below', add]

/-- **An escaped character is read back as the character.** -/
theorem read_escape (done : List Char) (c : Char) (rest : List Char) :
    (plain done).read (Json.escape c ++ rest) = (plain (c :: done)).read rest := by
  rcases Json.escape_forms c with ⟨h, hq, hb, he⟩ | ⟨letter, hu, hs, he⟩ | ⟨h, he⟩ <;> rw [he]
  · exact read_cons_of_more (push_plain h hq hb) rest
  · exact read_short hu hs rest
  · exact read_control h rest

theorem read_escapes (done cs rest : List Char) :
    (plain done).read (cs.flatMap Json.escape ++ rest) =
      (plain (cs.reverse ++ done)).read rest := by
  induction cs generalizing done with
  | nil => rfl
  | cons c cs ih =>
    rw [List.flatMap_cons, List.append_assoc, read_escape, ih]
    simp

/-- **A quoted string is read back**, from behind its opening quote, and nothing behind it is
touched. -/
theorem read_quote (s : String) (rest : List Char) :
    start.read (s.toList.flatMap Json.escape ++ '"' :: rest) = some (some s, rest) := by
  have h := read_escapes [] s.toList ('"' :: rest)
  rw [show start = plain [] from rfl, h]
  simp [read, push, plain, value?]

end Literal

namespace Json

/-- **A quoted string delimits itself.** -/
theorem quote_append_inj {s t : String} {xs ys : List Char}
    (h : quote s ++ xs = quote t ++ ys) : s = t ∧ xs = ys := by
  have inner : s.toList.flatMap escape ++ '"' :: xs = t.toList.flatMap escape ++ '"' :: ys := by
    simpa [quote] using h
  have both : some (some s, xs) = some (some t, ys) := by
    rw [← Literal.read_quote s xs, ← Literal.read_quote t ys, inner]
  simpa using both

end Json

end SelectiveDisclosure
