/-!
# Four words side by side

BLAKE2b and BLAKE3 keep their state as a square of sixteen words and mix its four columns, then its
four diagonals. Held as rows of four words, a column step works on all lanes at once, and a diagonal
step is a column step between two turns of the lower rows.

## Main definitions

* `Lanes` — four words side by side.
* `Square` — four rows of lanes.
* `Square.round` — a column step and a diagonal step, for whatever function mixes one column.
-/

namespace SelectiveDisclosure.Hash

/-- Four words side by side. -/
structure Lanes (α : Type) where
  w0 : α
  w1 : α
  w2 : α
  w3 : α
  deriving DecidableEq, Repr

namespace Lanes

variable {α β : Type}

/-- The four words in order. -/
def toList (r : Lanes α) : List α := [r.w0, r.w1, r.w2, r.w3]

/-- Lane by lane. -/
def zipWith (f : α → α → β) (r s : Lanes α) : Lanes β :=
  ⟨f r.w0 s.w0, f r.w1 s.w1, f r.w2 s.w2, f r.w3 s.w3⟩

/-- The lanes moved one place to the left, the first to the end. -/
def turn (r : Lanes α) : Lanes α := ⟨r.w1, r.w2, r.w3, r.w0⟩

@[simp] theorem turn_turn_turn_turn (r : Lanes α) : r.turn.turn.turn.turn = r := rfl

end Lanes

/-- Sixteen words as four rows. -/
structure Square (α : Type) where
  a : Lanes α
  b : Lanes α
  c : Lanes α
  d : Lanes α
  deriving DecidableEq, Repr

namespace Square

variable {α : Type}

/-- A function that mixes the four words of a column with two words of the message. -/
abbrev Mixer (α : Type) := (a b c d x y : α) → α × α × α × α

/-- Mixes each column with its two words of the message. -/
def columns (mix : Mixer α) (s : Square α) (x y : Lanes α) : Square α :=
  let m0 := mix s.a.w0 s.b.w0 s.c.w0 s.d.w0 x.w0 y.w0
  let m1 := mix s.a.w1 s.b.w1 s.c.w1 s.d.w1 x.w1 y.w1
  let m2 := mix s.a.w2 s.b.w2 s.c.w2 s.d.w2 x.w2 y.w2
  let m3 := mix s.a.w3 s.b.w3 s.c.w3 s.d.w3 x.w3 y.w3
  ⟨⟨m0.1, m1.1, m2.1, m3.1⟩, ⟨m0.2.1, m1.2.1, m2.2.1, m3.2.1⟩,
    ⟨m0.2.2.1, m1.2.2.1, m2.2.2.1, m3.2.2.1⟩, ⟨m0.2.2.2, m1.2.2.2, m2.2.2.2, m3.2.2.2⟩⟩

/-- Turns the lower rows so that the diagonals stand in columns. -/
def slant (s : Square α) : Square α := ⟨s.a, s.b.turn, s.c.turn.turn, s.d.turn.turn.turn⟩

/-- Turns the lower rows back. -/
def straighten (s : Square α) : Square α := ⟨s.a, s.b.turn.turn.turn, s.c.turn.turn, s.d.turn⟩

@[simp] theorem straighten_slant (s : Square α) : s.slant.straighten = s := rfl

/-- Mixes the columns with the first eight words of a message, then the diagonals with the last
eight. A message of any other length leaves the square alone. -/
def round (mix : Mixer α) (s : Square α) : List α → Square α
  | [m0, m1, m2, m3, m4, m5, m6, m7, m8, m9, m10, m11, m12, m13, m14, m15] =>
    (((s.columns mix ⟨m0, m2, m4, m6⟩ ⟨m1, m3, m5, m7⟩).slant).columns mix
      ⟨m8, m10, m12, m14⟩ ⟨m9, m11, m13, m15⟩).straighten
  | _ => s

end Square

end SelectiveDisclosure.Hash
