import SelectiveDisclosure.Fault
import SelectiveDisclosure.OrderedMap
import SelectiveDisclosure.Text.Hex

/-!
# Digests

A digest is a string of exactly 32 bytes. Statement digests, salted hashes and root hashes are all
digests. They are ordered byte by byte from the left, which is the order of the numbers they spell.

The text of a digest is `0x` and 64 lowercase hexadecimal digits; reading takes digits of either
case, with or without one `0x`.

## Main definitions

* `Digest` — 32 bytes.
* `Digest.toHex`, `Digest.text` — the digits, and the digits behind `0x`.
* `Digest.ofHex` — reads either, or gives a `Digest.Problem`.
* `NonceMap` — nonces by the digest of the statement they salt.

## Main results

* `Digest.ext_bytes` — digests with the same bytes are equal.
* `Digest.flatten_bytes_inj` — digests laid end to end can be told apart again.
* `Digest.sort_perm`, `Digest.sort_ascending`, `Digest.sort_eq_of_perm` — what sorting does.
* instances that make digests a linear order, so that they can be keys and can be sorted.
-/

namespace SelectiveDisclosure

/-- A string of 32 bytes. -/
structure Digest where
  bytes : Bytes
  length_bytes : bytes.length = 32
  deriving DecidableEq

namespace Digest

theorem ext_bytes {a b : Digest} (h : a.bytes = b.bytes) : a = b := by
  cases a; cases b; congr

/-- Digests laid end to end can be told apart again. -/
theorem flatten_bytes_inj {ds es : List Digest}
    (h : (ds.map (·.bytes)).flatten = (es.map (·.bytes)).flatten) : ds = es := by
  induction ds generalizing es with
  | nil =>
    cases es with
    | nil => rfl
    | cons e es =>
      have hlen := congrArg List.length h
      simp only [List.map_nil, List.flatten_nil, List.map_cons, List.flatten_cons, List.length_nil,
        List.length_append, e.length_bytes] at hlen
      omega
  | cons d ds ih =>
    cases es with
    | nil =>
      have hlen := congrArg List.length h
      simp only [List.map_nil, List.flatten_nil, List.map_cons, List.flatten_cons, List.length_nil,
        List.length_append, d.length_bytes] at hlen
      omega
    | cons e es =>
      simp only [List.map_cons, List.flatten_cons] at h
      obtain ⟨hhead, htail⟩ := List.append_inj h (by rw [d.length_bytes, e.length_bytes])
      rw [ext_bytes hhead, ih htail]

/-- The digest of 32 zero bytes. -/
def zero : Digest := ⟨List.replicate 32 0, by simp⟩

instance : Inhabited Digest := ⟨zero⟩

/-! ### Order -/

instance : LT Digest := ⟨fun a b => a.bytes < b.bytes⟩
instance : LE Digest := ⟨fun a b => a.bytes ≤ b.bytes⟩
instance : DecidableLT Digest := fun a b => inferInstanceAs (Decidable (a.bytes < b.bytes))
instance : DecidableLE Digest := fun a b => inferInstanceAs (Decidable (a.bytes ≤ b.bytes))

theorem lt_def {a b : Digest} : a < b ↔ a.bytes < b.bytes := .rfl

instance : Std.IsLinearOrder Digest where
  le_refl a := Std.le_refl a.bytes
  le_trans a b c (h : a.bytes ≤ b.bytes) (h' : b.bytes ≤ c.bytes) :=
    show a.bytes ≤ c.bytes from Std.le_trans h h'
  le_antisymm a b (h : a.bytes ≤ b.bytes) (h' : b.bytes ≤ a.bytes) :=
    ext_bytes (Std.le_antisymm h h')
  le_total a b := show a.bytes ≤ b.bytes ∨ b.bytes ≤ a.bytes from Std.le_total

instance : Std.LawfulOrderLT Digest where
  lt_iff a b := Std.LawfulOrderLT.lt_iff a.bytes b.bytes

/-- The digests in ascending order, repetitions kept. -/
def sort (ds : List Digest) : List Digest := ds.mergeSort fun d e => decide (d ≤ e)

theorem sort_perm (ds : List Digest) : (sort ds).Perm ds := List.mergeSort_perm ds _

theorem sort_ascending (ds : List Digest) : (sort ds).Pairwise (· ≤ ·) := by
  refine (List.pairwise_mergeSort ?_ ?_ ds).imp of_decide_eq_true
  · simpa using fun _ _ _ => Std.le_trans
  · simpa using fun _ _ => Std.le_total

/-- Sorting forgets the order that the digests came in. -/
theorem sort_eq_of_perm {ds es : List Digest} (h : ds.Perm es) : sort ds = sort es :=
  List.Perm.eq_of_pairwise (fun _ _ _ _ => Std.le_antisymm) (sort_ascending ds) (sort_ascending es)
    ((sort_perm ds).trans (h.trans (sort_perm es).symm))

/-- Sorting leaves ascending digests alone. -/
theorem sort_eq_self {ds : List Digest} (h : ds.Pairwise (· ≤ ·)) : sort ds = ds :=
  List.Perm.eq_of_pairwise (fun _ _ _ _ => Std.le_antisymm) (sort_ascending ds) h (sort_perm ds)

theorem sort_strictly_ascending {ds : List Digest} (h : ds.Nodup) :
    (sort ds).Pairwise (· < ·) :=
  (sort_ascending ds).imp₂ (fun _ _ hle hne => Std.lt_of_le_of_ne hle hne)
    ((sort_perm ds).nodup_iff.2 h)

/-! ### Text -/

/-- What can be wrong with the text of a digest. -/
inductive Problem where
  /-- The digits cannot be read. -/
  | digits (problem : Hex.Problem)
  /-- The digits spell this many bytes. -/
  | length (found : Nat)
  deriving DecidableEq, Repr

/-- The text of a problem with the text `s`. -/
def Problem.message (s : String) : Problem → String
  | .digits problem => s ++ ": " ++ problem.message
  | .length found => s ++ ": expected 32 bytes, got " ++ toString found

/-- The 64 lowercase hexadecimal digits. -/
def toHex (d : Digest) : String := Hex.encode d.bytes

/-- The digits behind `0x`. -/
def text (d : Digest) : String := Hex.marked d.bytes

/-- A byte string as a digest, if it has the right length. -/
def ofBytes? (bs : Bytes) : Option Digest :=
  if h : bs.length = 32 then some ⟨bs, h⟩ else none

/-- Reads hexadecimal digits, with or without one leading `0x`, or says what is wrong with them. -/
def read (s : String) : Except Problem Digest :=
  match Hex.decode (Hex.unmarked s) with
  | .error problem => .error (.digits problem)
  | .ok bs =>
    match ofBytes? bs with
    | some d => .ok d
    | none => .error (.length bs.length)

/-- Reads hexadecimal digits, with or without one leading `0x`. -/
def ofHex (s : String) : Except Fault Digest :=
  (read s).mapError fun problem => .malformedDigest (problem.message s)

@[simp] theorem ofBytes?_bytes (d : Digest) : ofBytes? d.bytes = some d := by
  simp [ofBytes?, d.length_bytes]

theorem bytes_eq_of_ofBytes? {bs : Bytes} {d : Digest} (h : ofBytes? bs = some d) :
    d.bytes = bs := by
  rw [ofBytes?] at h
  split at h
  · exact congrArg bytes (Option.some.inj h).symm
  · simp at h

end Digest

/-- Nonces by the unsalted digest of the statement they salt. -/
abbrev NonceMap := OrderedMap Digest String

end SelectiveDisclosure
