import SelectiveDisclosure.Proofs.Wire.RoundTrip

/-!
# Which texts are texts of a digest

A digest is read from 64 hexadecimal digits of either case, with or without one `0x` in front, and
from nothing else. What is written is one of these texts: the one with `0x` and lowercase digits.
Records are stricter and insist on the `0x`.

Hexadecimal text is read byte by byte, and what is a digit is said about bytes. For a text of any
characters that comes to the same, since a byte that is a digit is never part of a longer character.
So a text that is read consists of digits, as characters, and a character that is no digit is
refused however its bytes fall into pairs.

## Main definitions

* `Hex.IsDigit` — a character is the digit for a number, in either case.
* `Hex.Spells` — characters are the digits of a byte string.
* `Digest.Denotes` — a text is one of those of a digest.

## Main results

* `Hex.decode_eq_ok_iff` — a text is read as a byte string exactly if it spells it.
* `Hex.spells_iff_toLower` — characters spell a byte string exactly if they are the digits that are
  written, up to their case.
* `Digest.ofHex_eq_ok_iff`, `Digest.ofMarked_eq_ok_iff` — which texts are read as a digest.
* `Digest.read_exactly` — all of this together, and which texts are texts of the same digest.
-/

namespace SelectiveDisclosure

namespace Hex

/-! ### Digits -/

/-- The digits with their numbers, in either case. -/
def digitTable : List (Char × Nat) :=
  "0123456789abcdef".toList.zipIdx ++ "0123456789ABCDEF".toList.zipIdx

/-- Whether a character is the digit for a number, in either case. -/
def IsDigit (c : Char) (n : Nat) : Prop := (c, n) ∈ digitTable

instance (c : Char) (n : Nat) : Decidable (IsDigit c n) :=
  inferInstanceAs (Decidable ((c, n) ∈ digitTable))

section Digits

variable {c : Char} {n : Nat} {b : UInt8}

theorem IsDigit.lt (h : IsDigit c n) : n < 16 := by
  have table : ∀ entry ∈ digitTable, entry.2 < 16 := by decide
  exact table _ h

theorem IsDigit.ne_x (h : IsDigit c n) : c ≠ 'x' := by
  have table : ∀ entry ∈ digitTable, entry.1 ≠ 'x' := by decide
  exact table _ h

theorem IsDigit.toLower_eq (h : IsDigit c n) : c.toLower = digit n := by
  have table : ∀ entry ∈ digitTable, entry.1.toLower = digit entry.2 := by decide
  exact table _ h

/-- A digit is one byte, and this is read as its number. -/
theorem IsDigit.byte (h : IsDigit c n) :
    ∃ b, String.utf8EncodeChar c = [b] ∧ digitValue? b = some n := by
  have table : ∀ entry ∈ digitTable, String.utf8EncodeChar entry.1 = [entry.1.toNat.toUInt8] ∧
      digitValue? entry.1.toNat.toUInt8 = some entry.2 := by decide
  exact ⟨_, table _ h⟩

theorem isDigit_digit (hn : n < 16) : IsDigit (digit n) n := by
  have table : ∀ n < 16, IsDigit (digit n) n := by decide
  exact table n hn

/-- A byte that is read as a number is the whole of a digit. -/
theorem exists_isDigit (h : digitValue? b = some n) :
    ∃ c, String.utf8EncodeChar c = [b] ∧ IsDigit c n := by
  have table : ∀ i < 256, ∀ n ∈ digitValue? (UInt8.ofNat i),
      String.utf8EncodeChar (Char.ofNat i) = [UInt8.ofNat i] ∧ IsDigit (Char.ofNat i) n := by
    decide +kernel
  have hb := table b.toNat b.toNat_lt n (by rwa [UInt8.ofNat_toNat])
  rw [UInt8.ofNat_toNat] at hb
  exact ⟨_, hb⟩

theorem toList_toLower (s : String) : s.toLower.toList = s.toList.map Char.toLower :=
  String.toList_map

/-- Only the letters `A` to `Z` have another lowercase form. -/
theorem toLower_eq_self (hc : 91 ≤ c.toNat) : c.toLower = c := by
  have hupper : ¬ (c.val ≥ 'A'.val ∧ c.val ≤ 'Z'.val) := fun h => by
    have hle : c.toNat ≤ 90 := UInt32.le_iff_toNat_le.1 h.2
    omega
  exact dif_neg hupper

/-- A character is the digit for a number exactly if its lowercase form is the one that is
written. -/
theorem isDigit_iff_toLower (hn : n < 16) : IsDigit c n ↔ c.toLower = digit n := by
  refine ⟨IsDigit.toLower_eq, fun h => ?_⟩
  have table : ∀ i < 91, ∀ n < 16, (Char.ofNat i).toLower = digit n →
      IsDigit (Char.ofNat i) n := by decide +kernel
  rcases Nat.lt_or_ge c.toNat 91 with hc | hc
  · rw [← Char.ofNat_toNat c] at h ⊢
    exact table c.toNat hc n hn h
  · rw [toLower_eq_self hc] at h
    rw [h]
    exact isDigit_digit hn

end Digits

/-! ### Digits of byte strings -/

/-- Whether characters are the digits of a byte string, two for each byte, the higher one first. -/
inductive Spells : List Char → Bytes → Prop where
  | nil : Spells [] []
  | cons {high low : Char} {m n : Nat} {cs : List Char} {bs : Bytes} (hhigh : IsDigit high m)
      (hlow : IsDigit low n) (hrest : Spells cs bs) :
      Spells (high :: low :: cs) (UInt8.ofNat (16 * m + n) :: bs)

section Spelling

variable {cs : List Char} {s : String} {bs text : Bytes}

theorem Spells.length_eq (h : Spells cs bs) : cs.length = 2 * bs.length := by
  induction h with
  | nil => rfl
  | cons _ _ _ ih =>
    rw [List.length_cons, List.length_cons, List.length_cons, ih]
    omega

/-- What spells a byte string is one byte for each digit, and is read as the byte string. -/
theorem Spells.decodePairs_eq (h : Spells cs bs) (position : Nat) :
    (cs.flatMap String.utf8EncodeChar).length = 2 * bs.length ∧
      decodePairs position (cs.flatMap String.utf8EncodeChar) = .ok bs := by
  induction h generalizing position with
  | nil => exact ⟨rfl, rfl⟩
  | cons hhigh hlow _ ih =>
    obtain ⟨b, hb, hm⟩ := hhigh.byte
    obtain ⟨b', hb', hn⟩ := hlow.byte
    obtain ⟨hlength, hread⟩ := ih (position + 2)
    rw [List.flatMap_cons, List.flatMap_cons, hb, hb']
    refine ⟨?_, ?_⟩
    · simp only [List.length_append, List.length_cons, List.length_nil, hlength]
      omega
    · simp [decodePairs, hm, hn, hread, Except.map]

/-- Bytes that are read are those of characters that spell what is read. -/
theorem exists_spells {position : Nat} (h : decodePairs position text = .ok bs) :
    ∃ cs, cs.flatMap String.utf8EncodeChar = text ∧ Spells cs bs := by
  induction position, text using decodePairs.induct generalizing bs with
  | case1 position =>
    obtain rfl := Except.ok.inj h
    exact ⟨[], rfl, .nil⟩
  | case2 position b => cases h
  | case3 position high low rest hhigh => simp [decodePairs, hhigh] at h
  | case4 position high low rest m hhigh hlow => simp [decodePairs, hhigh, hlow] at h
  | case5 position high low rest m n hlow hhigh ih =>
    rw [decodePairs] at h
    simp only [hhigh, hlow] at h
    obtain ⟨tail, htail, rfl⟩ := map_eq_ok_iff.1 h
    obtain ⟨cs, rfl, hcs⟩ := ih htail
    obtain ⟨c, hc, hm⟩ := exists_isDigit hhigh
    obtain ⟨c', hc', hn⟩ := exists_isDigit hlow
    exact ⟨c :: c' :: cs, by simp [hc, hc'], .cons hm hn hcs⟩

/-- **A text is read as a byte string exactly if it spells it.** -/
theorem decode_eq_ok_iff : decode s = .ok bs ↔ Spells s.toList bs := by
  constructor
  · intro h
    rw [decode, decodeBytes, ite_error_eq_ok_iff] at h
    obtain ⟨cs, hcs, hspells⟩ := exists_spells h.2
    obtain rfl : String.ofList cs = s := utf8_inj (by rw [utf8_ofList, hcs])
    rwa [String.toList_ofList]
  · intro h
    obtain ⟨hlength, hread⟩ := h.decodePairs_eq 0
    rw [← utf8_ofList, String.ofList_toList] at hlength hread
    rw [decode, decodeBytes, hread, hlength, if_neg (by omega)]

/-- **Characters spell a byte string exactly if they are the digits that are written**, up to their
case. -/
theorem spells_iff_toLower : Spells cs bs ↔ cs.map Char.toLower = chars bs := by
  constructor
  · intro h
    induction h with
    | nil => rfl
    | @cons high low m n cs bs hhigh hlow hrest ih =>
      have hm := hhigh.lt
      have hn := hlow.lt
      have hbyte : (UInt8.ofNat (16 * m + n)).toNat = 16 * m + n :=
        UInt8.toNat_ofNat_of_lt' (show 16 * m + n < 256 by omega)
      rw [chars_cons, digits, hbyte, show (16 * m + n) / 16 = m by omega,
        show (16 * m + n) % 16 = n by omega, List.map_cons, List.map_cons, hhigh.toLower_eq,
        hlow.toLower_eq, ih, List.cons_append, List.cons_append, List.nil_append]
  · intro h
    induction bs generalizing cs with
    | nil =>
      obtain rfl := List.map_eq_nil_iff.1 h
      exact .nil
    | cons b bs ih =>
      rw [chars_cons] at h
      obtain ⟨high, tail, rfl, hhigh, htail⟩ := List.map_eq_cons_iff.1 h
      obtain ⟨low, rest, rfl, hlow, hrest⟩ := List.map_eq_cons_iff.1 htail
      have hb := b.toNat_lt
      have hspells := Spells.cons ((isDigit_iff_toLower (by omega)).2 hhigh)
        ((isDigit_iff_toLower (by omega)).2 hlow) (ih hrest)
      rwa [show 16 * (b.toNat / 16) + b.toNat % 16 = b.toNat by omega,
        UInt8.ofNat_toNat] at hspells

/-- The digits that are written are lowercase. -/
theorem mem_lowercase_of_mem_chars {c : Char} (hc : c ∈ chars bs) :
    c ∈ "0123456789abcdef".toList := by
  have table : ∀ n < 16, digit n ∈ "0123456789abcdef".toList := by decide
  obtain ⟨b, -, hc⟩ := List.mem_flatMap.1 hc
  have hb := b.toNat_lt
  rw [digits, List.mem_cons, List.mem_singleton] at hc
  rcases hc with rfl | rfl
  · exact table _ (by omega)
  · exact table _ (by omega)

end Spelling

/-! ### The mark in front -/

section Mark

variable {s : String} {bs : Bytes}

theorem unmarked_append (digits : String) : unmarked ("0x" ++ digits) = digits := by
  simp [unmarked]

/-- A text is a text without the mark, or has one in front of what is left without it. -/
theorem eq_unmarked_or (s : String) : s = unmarked s ∨ s = "0x" ++ unmarked s := by
  rw [unmarked]
  split
  next rest hs =>
    right
    simp [← String.toList_inj, hs]
  next => exact .inl rfl

/-- Digits have no mark in front, for `x` is none. -/
theorem unmarked_eq_self (h : Spells s.toList bs) : unmarked s = s := by
  rw [unmarked]
  split
  next rest hs =>
    rw [hs] at h
    cases h with
    | cons hhigh hlow hrest => exact absurd rfl hlow.ne_x
  next => rfl

end Mark

end Hex

/-! ### Digests -/

namespace Digest

variable {s : String} {d : Digest}

/-- Whether a text is, behind at most one `0x`, 64 digits of either case that spell a digest. -/
def Denotes (s : String) (d : Digest) : Prop :=
  ∃ digits : String, (s = digits ∨ s = "0x" ++ digits) ∧ digits.length = 64 ∧
    Hex.Spells digits.toList d.bytes

theorem denotes_iff_unmarked : Denotes s d ↔ Hex.Spells (Hex.unmarked s).toList d.bytes := by
  constructor
  · rintro ⟨digits, rfl | rfl, -, hspells⟩
    · rwa [Hex.unmarked_eq_self hspells]
    · rwa [Hex.unmarked_append]
  · intro h
    refine ⟨Hex.unmarked s, Hex.eq_unmarked_or s, ?_, h⟩
    rw [← String.length_toList, h.length_eq, d.length_bytes]

theorem ofBytes?_eq_some_iff {bs : Bytes} : ofBytes? bs = some d ↔ bs = d.bytes := by
  constructor
  · exact fun h => (bytes_eq_of_ofBytes? h).symm
  · rintro rfl
    exact ofBytes?_bytes d

theorem read_eq_ok_iff : read s = .ok d ↔ Hex.decode (Hex.unmarked s) = .ok d.bytes := by
  rw [read]
  cases Hex.decode (Hex.unmarked s) with
  | error problem => simp
  | ok bs =>
    simp only [Except.ok.injEq, ← ofBytes?_eq_some_iff]
    cases ofBytes? bs <;> simp

/-- **A text is read as a digest exactly if it denotes it.** -/
theorem ofHex_eq_ok_iff : ofHex s = .ok d ↔ Denotes s d := by
  rw [ofHex, mapError_eq_ok_iff, read_eq_ok_iff, Hex.decode_eq_ok_iff, denotes_iff_unmarked]

/-- A text that denotes no digest is reported as malformed. -/
theorem exists_malformed_iff :
    (∃ detail, ofHex s = .error (.malformedDigest detail)) ↔ ¬ ∃ d, Denotes s d := by
  simp only [← ofHex_eq_ok_iff]
  rw [ofHex]
  cases read s with
  | error problem =>
    refine iff_of_true ⟨_, rfl⟩ ?_
    rintro ⟨d, hd⟩
    cases hd
  | ok d =>
    refine iff_of_false ?_ (not_not_intro ⟨d, rfl⟩)
    rintro ⟨detail, hdetail⟩
    cases hdetail

/-- **A record takes exactly the texts with `0x` in front.** -/
theorem ofMarked_eq_ok_iff :
    ofMarked s = .ok d ↔ (∃ digits, s = "0x" ++ digits) ∧ ofHex s = .ok d := by
  have hmarked : ['0', 'x'].isPrefixOf s.toList = true ↔ ∃ digits, s = "0x" ++ digits := by
    rw [List.isPrefixOf_iff_prefix]
    constructor
    · rintro ⟨rest, hrest⟩
      exact ⟨String.ofList rest, by simp [← String.toList_inj, ← hrest]⟩
    · rintro ⟨digits, rfl⟩
      exact ⟨digits.toList, by rw [String.toList_append]; rfl⟩
  rw [ofMarked]
  by_cases h : ['0', 'x'].isPrefixOf s.toList = true
  · rw [if_pos h, mapError_eq_ok_iff]
    exact (and_iff_right (hmarked.1 h)).symm
  · rw [if_neg h]
    simp only [reduceCtorEq, false_iff]
    exact fun hd => h (hmarked.2 hd.1)

/-! ### Records -/

theorem string_eq_ok_iff {o : Origin} {tree : Tree} :
    o.string tree = .ok s ↔ tree = .string (some s) := by
  cases tree with
  | string text =>
    cases text with
    | none => simp [Origin.string]
    | some text => simp [Origin.string]
  | _ => simp [Origin.string]

theorem readTree_eq_ok_iff {o : Origin} {tree : Tree} :
    readTree o tree = .ok d ↔ ∃ s, tree = .string (some s) ∧ ofMarked s = .ok d := by
  simp only [readTree, bind_eq_ok_iff, string_eq_ok_iff]

theorem toJson?_eq_string_iff {room : Nat} {tree : Tree} :
    tree.toJson? room = some (.string s) ↔ tree = .string (some s) := by
  cases tree with
  | array items closed => cases room <;> cases closed <;> simp [Tree.toJson?]
  | object members closed => cases room <;> cases closed <;> simp [Tree.toJson?]
  | _ => simp [Tree.toJson?]

/-- What is read from a JSON text is read from the string that it is the text of. -/
theorem ofText_eq_ok_iff {json : String} :
    Misread.ofText readTree json = .ok d ↔
      ∃ s, Json.ofText? json = some (.string s) ∧ ofMarked s = .ok d := by
  simp only [Misread.ofText, bind_eq_ok_iff, readTree_eq_ok_iff, Json.ofText?]
  cases (Document.read json).trailing with
  | true => simp
  | false => simp [toJson?_eq_string_iff]

theorem ofText_text (d : Digest) : Misread.ofText readTree d.toJson.text = .ok d := by
  have hexact : d.toJson.Exact := rfl
  rw [Misread.ofText_text hexact d.reads_toJson]
  exact if_pos (Nat.zero_le _)

/-! ### One digest, many texts -/

/-- What is written for a digest, in terms of any text that it was read from. -/
theorem text_eq_of_ofHex (h : ofHex s = .ok d) : d.text = "0x" ++ (Hex.unmarked s).toLower := by
  have hspells := denotes_iff_unmarked.1 (ofHex_eq_ok_iff.1 h)
  rw [← String.toList_inj, String.toList_append, Hex.toList_toLower,
    Hex.spells_iff_toLower.1 hspells, text, Hex.toList_marked]
  rfl

/-- **The texts of one digest differ in the mark and in the case of the digits**, and in nothing
else. -/
theorem ofHex_eq_ok_iff_of_ofHex {t : String} (h : ofHex s = .ok d) :
    ofHex t = .ok d ↔ (Hex.unmarked t).toLower = (Hex.unmarked s).toLower := by
  have hspells := denotes_iff_unmarked.1 (ofHex_eq_ok_iff.1 h)
  rw [ofHex_eq_ok_iff, denotes_iff_unmarked, Hex.spells_iff_toLower,
    ← Hex.spells_iff_toLower.1 hspells, ← String.toList_inj, Hex.toList_toLower,
    Hex.toList_toLower]

/-- **Which texts are texts of a digest.** A text is read as a digest exactly if it is, behind at
most one `0x`, 64 digits of either case that spell it, and every other text is reported as
malformed. Records take the texts among them that have the `0x`, as strings of a JSON text and
wherever else a digest stands in them. What is written is `0x` and lowercase digits, which all
readers read again. Two texts are of the same digest exactly if they differ in nothing but the `0x`
and the case of the digits. -/
theorem read_exactly :
    (∀ s d, ofHex s = .ok d ↔ Denotes s d) ∧
    (∀ s, (∃ detail, ofHex s = .error (.malformedDigest detail)) ↔ ¬ ∃ d, Denotes s d) ∧
    (∀ s d, ofMarked s = .ok d ↔ (∃ digits, s = "0x" ++ digits) ∧ ofHex s = .ok d) ∧
    (∀ json d, Misread.ofText readTree json = .ok d ↔
      ∃ digits, Json.ofText? json = some (.string ("0x" ++ digits)) ∧
        ofHex ("0x" ++ digits) = .ok d) ∧
    (∀ d, ∃ digits, d.text = "0x" ++ digits ∧ Hex.Spells digits.toList d.bytes ∧
      (∀ c ∈ digits.toList, c ∈ "0123456789abcdef".toList) ∧
        ofHex d.text = .ok d ∧ ofMarked d.text = .ok d ∧
          Misread.ofText readTree d.toJson.text = .ok d) ∧
    ∀ s d, ofHex s = .ok d → d.text = "0x" ++ (Hex.unmarked s).toLower ∧
      ∀ t e, ofHex t = .ok e →
        (d = e ↔ (Hex.unmarked s).toLower = (Hex.unmarked t).toLower) := by
  refine ⟨fun _ _ => ofHex_eq_ok_iff, fun _ => exists_malformed_iff, fun _ _ => ofMarked_eq_ok_iff,
    fun json d => ?_, fun d => ⟨d.toHex, rfl, ?_, ?_, ?_, d.ofMarked_text, d.ofText_text⟩,
    fun s d hs => ⟨text_eq_of_ofHex hs, fun t e ht => ?_⟩⟩
  · rw [ofText_eq_ok_iff]
    constructor
    · rintro ⟨s, hjson, hs⟩
      obtain ⟨⟨digits, rfl⟩, hd⟩ := ofMarked_eq_ok_iff.1 hs
      exact ⟨digits, hjson, hd⟩
    · rintro ⟨digits, hjson, hd⟩
      exact ⟨_, hjson, ofMarked_eq_ok_iff.2 ⟨⟨digits, rfl⟩, hd⟩⟩
  · exact Hex.decode_eq_ok_iff.1 (Hex.decode_encode d.bytes)
  · intro c hc
    rw [toHex, Hex.encode, String.toList_ofList] at hc
    exact Hex.mem_lowercase_of_mem_chars hc
  · exact (ofMarked_eq_ok_iff.1 d.ofMarked_text).2
  · rw [← ofHex_eq_ok_iff_of_ofHex ht, hs]
    simp

/-- Two texts of one digest, in capitals and without the mark, and the one that is written. Only the
second can stand in a record. -/
theorem read_exactly_of_capitals :
    let capitals := "ABABABABABABABABABABABABABABABABABABABABABABABABABABABABABABABAB"
    let written := "0xabababababababababababababababababababababababababababababababab"
    ∃ d, ofHex capitals = .ok d ∧ ofHex written = .ok d ∧ d.text = written ∧
      (Hex.unmarked capitals).toLower = (Hex.unmarked written).toLower ∧
        ofMarked written = .ok d ∧ ofMarked capitals ≠ .ok d := by
  intro capitals written
  let d : Digest := ⟨List.replicate 32 0xAB, by simp⟩
  have hcapitals : ofHex capitals = .ok d :=
    ofHex_eq_ok_iff.2 (denotes_iff_unmarked.2 (Hex.spells_iff_toLower.2 (by decide +kernel)))
  have hwritten : ofHex written = .ok d :=
    ofHex_eq_ok_iff.2 (denotes_iff_unmarked.2 (Hex.spells_iff_toLower.2 (by decide +kernel)))
  obtain ⟨-, -, hmarked, -, -, hagree⟩ := read_exactly
  obtain ⟨htext, hsame⟩ := hagree capitals d hcapitals
  have htext' : "0x" ++ (Hex.unmarked capitals).toLower = written := by decide +kernel
  refine ⟨d, hcapitals, hwritten, htext.trans htext', (hsame written d hwritten).1 rfl,
    (hmarked written d).2 ⟨⟨_, htext'.symm⟩, hwritten⟩, fun h => ?_⟩
  obtain ⟨⟨digits, hdigits⟩, -⟩ := (hmarked capitals d).1 h
  have hfirst := congrArg (·.toList.head?) hdigits
  simp [capitals] at hfirst

end Digest

end SelectiveDisclosure
