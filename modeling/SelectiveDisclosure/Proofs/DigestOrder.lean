import Mathlib.Data.List.Chain
import Mathlib.Tactic.NormNum
import Mathlib.Tactic.Ring
import SelectiveDisclosure.Proofs.Issuance

/-!
# The order of digests

Digests are compared byte by byte from the left, and the hashes of a credential are listed in this
order. Whoever builds a credential sorts them, whoever verifies it looks at neighbours only, and
whoever hashes the leaves sorts them again, so a root hash can be found again only if all of them,
and all that read and write the texts of digests elsewhere, mean the same order. They do: it is the
order of the numbers that the bytes spell, most significant byte first, and that of the texts.

All three agree for one reason. The first byte in which two digests differ decides, for the bytes
behind it spell less than one unit of it, and in a text its two digits decide in the same way. For
the numbers that takes byte strings of one length: `02` comes behind `0100`, though it spells the
lesser number.

## Main definitions

* `Digest.toNat` — the number that a digest spells.
* `Finding.notAscending` — the finding that hashes are out of order.

## Main results

* `Bytes.toNatBE_lt_toNatBE_iff` — byte strings of one length in the order of their numbers.
* `Hex.chars_lt_chars_iff` — byte strings in the order of their digits.
* `strictlyAscending_iff_neighbours` — what a look at neighbours sees.
* `Credential.structureFinding?_eq_notAscending_iff` — which hashes a verifier takes for out of
  order.
* `Digest.order_is_numeric` — all orders agree, for verifiers and issuers.
-/

namespace SelectiveDisclosure

/-! ### Bytes and numbers -/

namespace Bytes

variable {as bs : Bytes}

theorem foldl_toNatBE (n : ℕ) (bs : Bytes) :
    bs.foldl (fun n b => 256 * n + b.toNat) n = 256 ^ bs.length * n + toNatBE bs := by
  induction bs generalizing n with
  | nil => simp [toNatBE]
  | cons b rest ih =>
    rw [toNatBE, List.foldl_cons, List.foldl_cons, ih, ih (256 * 0 + b.toNat), List.length_cons,
      pow_succ]
    ring

/-- The first byte counts for as many units as all bytes behind it can spell numbers. -/
theorem toNatBE_cons (b : UInt8) (rest : Bytes) :
    toNatBE (b :: rest) = 256 ^ rest.length * b.toNat + toNatBE rest := by
  rw [toNatBE, List.foldl_cons, foldl_toNatBE]
  simp

theorem toNatBE_lt (bs : Bytes) : toNatBE bs < 256 ^ bs.length := by
  induction bs with
  | nil => simp [toNatBE]
  | cons b rest ih =>
    have hb : b.toNat + 1 ≤ 256 := b.toNat_lt
    calc toNatBE (b :: rest)
        < 256 ^ rest.length * b.toNat + 256 ^ rest.length := by
          rw [toNatBE_cons]
          exact Nat.add_lt_add_left ih _
      _ = 256 ^ rest.length * (b.toNat + 1) := by ring
      _ ≤ 256 ^ rest.length * 256 := Nat.mul_le_mul_left _ hb
      _ = 256 ^ (b :: rest).length := by rw [List.length_cons, pow_succ]

/-- Of two numbers with a greater and a smaller part, the greater parts decide unless they are
equal. -/
theorem mul_add_lt_mul_add_iff {m a b x y : ℕ} (hx : x < m) (hy : y < m) :
    m * a + x < m * b + y ↔ a < b ∨ a = b ∧ x < y := by
  rcases lt_trichotomy a b with hab | rfl | hba
  · have hunit : m * (a + 1) ≤ m * b := Nat.mul_le_mul_left m hab
    rw [Nat.mul_add, Nat.mul_one] at hunit
    exact iff_of_true (by omega) (.inl hab)
  · simp
  · have hunit : m * (b + 1) ≤ m * a := Nat.mul_le_mul_left m hba
    rw [Nat.mul_add, Nat.mul_one] at hunit
    exact iff_of_false (by omega) (by omega)

/-- **Byte strings of one length are in the order of their numbers.** -/
theorem toNatBE_lt_toNatBE_iff (hlength : as.length = bs.length) :
    toNatBE as < toNatBE bs ↔ as < bs := by
  induction as generalizing bs with
  | nil =>
    obtain rfl := List.length_eq_zero_iff.1 hlength.symm
    simp
  | cons a as ih =>
    cases bs with
    | nil => simp at hlength
    | cons b bs =>
      have hrest : as.length = bs.length := Nat.succ.inj hlength
      have hbound : toNatBE bs < 256 ^ as.length := hrest ▸ toNatBE_lt bs
      rw [toNatBE_cons, toNatBE_cons, ← hrest, mul_add_lt_mul_add_iff (toNatBE_lt as) hbound,
        ih hrest, List.cons_lt_cons_iff, UInt8.lt_iff_toNat_lt, UInt8.toNat_inj]

end Bytes

/-! ### Bytes and digits -/

namespace Hex

theorem digit_lt_digit_iff {m n : ℕ} (hm : m < 16) (hn : n < 16) : digit m < digit n ↔ m < n := by
  have table : ∀ m < 16, ∀ n < 16, (digit m < digit n ↔ m < n) := by decide
  exact table m hm n hn

theorem digit_inj {m n : ℕ} (hm : m < 16) (hn : n < 16) : digit m = digit n ↔ m = n := by
  have table : ∀ m < 16, ∀ n < 16, (digit m = digit n ↔ m = n) := by decide
  exact table m hm n hn

/-- The digits of two bytes decide like the bytes. -/
theorem digits_append_lt_iff {a b : UInt8} {cs ds : List Char} :
    digits a ++ cs < digits b ++ ds ↔ a < b ∨ a = b ∧ cs < ds := by
  have ha := a.toNat_lt
  have hb := b.toNat_lt
  have hlt : a < b ↔ a.toNat / 16 < b.toNat / 16 ∨
      a.toNat / 16 = b.toNat / 16 ∧ a.toNat % 16 < b.toNat % 16 := by
    rw [UInt8.lt_iff_toNat_lt]
    omega
  have heq : a = b ↔ a.toNat / 16 = b.toNat / 16 ∧ a.toNat % 16 = b.toNat % 16 := by
    rw [← UInt8.toNat_inj]
    omega
  simp only [digits, List.cons_append, List.nil_append, List.cons_lt_cons_iff]
  rw [digit_lt_digit_iff (by omega) (by omega), digit_lt_digit_iff (by omega) (by omega),
    digit_inj (by omega) (by omega), digit_inj (by omega) (by omega), hlt, heq]
  tauto

/-- **Byte strings are in the order of their digits.** -/
theorem chars_lt_chars_iff {as bs : Bytes} : chars as < chars bs ↔ as < bs := by
  induction as generalizing bs with
  | nil =>
    cases bs with
    | nil => simp [chars]
    | cons b bs => simp [chars, digits]
  | cons a as ih =>
    cases bs with
    | nil => simp [chars, digits]
    | cons b bs =>
      rw [chars_cons, chars_cons, digits_append_lt_iff, ih, List.cons_lt_cons_iff]

end Hex

/-! ### Digests -/

namespace Digest

variable {a b : Digest} {ds : List Digest}

/-- The number that a digest spells, most significant byte first. -/
def toNat (d : Digest) : ℕ := d.bytes.toNatBE

theorem toNat_lt (d : Digest) : d.toNat < 2 ^ 256 := by
  have hlt := Bytes.toNatBE_lt d.bytes
  rw [d.length_bytes] at hlt
  calc d.toNat < 256 ^ 32 := hlt
    _ = 2 ^ 256 := by norm_num

/-- Digests are in the order of their numbers. -/
theorem lt_iff_toNat_lt : a < b ↔ a.toNat < b.toNat := by
  rw [lt_def, toNat, toNat,
    Bytes.toNatBE_lt_toNatBE_iff (a.length_bytes.trans b.length_bytes.symm)]

theorem le_iff_toNat_le : a ≤ b ↔ a.toNat ≤ b.toNat := by
  rw [← Std.not_lt, lt_iff_toNat_lt, Nat.not_lt]

theorem toNat_inj : a.toNat = b.toNat ↔ a = b := by
  constructor
  · intro heq
    exact Std.le_antisymm (le_iff_toNat_le.2 heq.le) (le_iff_toNat_le.2 heq.ge)
  · rintro rfl
    rfl

/-- Digests are in the order of their texts. -/
theorem lt_iff_text_lt : a < b ↔ a.text < b.text := by
  rw [lt_def, String.lt_iff, text, text, Hex.toList_marked, Hex.toList_marked,
    List.cons_lt_cons_iff, List.cons_lt_cons_iff, Hex.chars_lt_chars_iff]
  simp

theorem text_inj : a.text = b.text ↔ a = b := by
  constructor
  · intro heq
    have hab : ¬ a < b := by
      rw [lt_iff_text_lt, heq]
      exact Std.lt_irrefl
    have hba : ¬ b < a := by
      rw [lt_iff_text_lt, heq]
      exact Std.lt_irrefl
    exact Std.le_antisymm (Std.not_lt.1 hba) (Std.not_lt.1 hab)
  · rintro rfl
    rfl

theorem pairwise_lt_iff :
    ds.Pairwise (· < ·) ↔ (ds.map toNat).Pairwise (· < ·) := by
  rw [List.pairwise_map]
  exact List.Pairwise.iff fun _ _ => lt_iff_toNat_lt

theorem pairwise_le_iff :
    ds.Pairwise (· ≤ ·) ↔ (ds.map toNat).Pairwise (· ≤ ·) := by
  rw [List.pairwise_map]
  exact List.Pairwise.iff fun _ _ => le_iff_toNat_le

/-- Strictly ascending is ascending without repetitions. -/
theorem pairwise_lt_iff_nodup : ds.Pairwise (· < ·) ↔ ds.Pairwise (· ≤ ·) ∧ ds.Nodup := by
  rw [List.Nodup, ← List.pairwise_and_iff]
  exact List.Pairwise.iff fun _ _ => Std.lt_iff_le_and_ne

end Digest

/-! ### Lists of hashes -/

/-- A look at neighbours sees whether each digest is less than the next. -/
theorem strictlyAscending_iff_neighbours {ds : List Digest} :
    strictlyAscending ds = true ↔ ∀ i (_ : i + 1 < ds.length), ds[i] < ds[i + 1] := by
  rw [← List.isChain_iff_getElem]
  induction ds with
  | nil => simp [strictlyAscending]
  | cons a rest ih =>
    cases rest with
    | nil => simp [strictlyAscending]
    | cons b rest => simp [strictlyAscending, ih]

/-- The finding that hashes are out of order, or listed twice. -/
def Finding.notAscending : Finding := .structural "content hashes must be strictly ascending"

/-- **Which hashes a verifier takes for out of order.** Where the schema is blank it looks no
further. -/
theorem Credential.structureFinding?_eq_notAscending_iff {checkIdentifier : Bool}
    {c : Credential} :
    c.structureFinding? checkIdentifier = some .notAscending ↔
      Text.isBlank c.content.schema = false ∧ strictlyAscending c.hashes = false := by
  have hsizes (m n : ℕ) : Finding.structural ("nonce map has " ++ toString m ++ " entries for " ++
      toString n ++ " content hashes") ≠ .notAscending := by
    intro heq
    have hfirst := congrArg (·.toList.head?) (Finding.structural.inj heq)
    simp at hfirst
  rw [structureFinding?]
  by_cases hblank : Text.isBlank c.content.schema = true
  · simp [hblank, Finding.notAscending]
  · by_cases hascending : strictlyAscending c.hashes = true
    · rw [if_neg hblank, if_neg (by simp [hascending])]
      refine iff_of_false ?_ (by simp [hascending])
      split_ifs with hsize hempty hidentifier
      · exact fun heq => hsizes _ _ (Option.some.inj heq)
      · simp [Finding.notAscending]
      · simp [Finding.notAscending]
      · simp
    · simp [hblank, hascending, Finding.notAscending]

/-! ### All orders agree -/

/-- **The order of digests is that of numbers.** One digest is less than another exactly if it
spells a lesser number of 256 bits, and exactly if its text comes first. A verifier, which compares
neighbours, takes hashes for in order exactly if every number is less than all that follow it, so
that the hashes are sorted and none is listed twice. An issuer lists the salted hashes of the
statements, each with the nonce that was drawn for it, in this order, and lists them all. -/
theorem Digest.order_is_numeric :
    (∀ a b : Digest, a.toNat < 2 ^ 256 ∧
      (a < b ↔ a.toNat < b.toNat) ∧ (a = b ↔ a.toNat = b.toNat) ∧
        (a < b ↔ a.text < b.text) ∧ (a = b ↔ a.text = b.text)) ∧
    (∀ ds : List Digest,
      (strictlyAscending ds = true ↔
        ∀ i (_ : i + 1 < ds.length), ds[i].toNat < ds[i + 1].toNat) ∧
      (strictlyAscending ds = true ↔ (ds.map toNat).Pairwise (· < ·)) ∧
      (strictlyAscending ds = true ↔ ds.Pairwise (· ≤ ·) ∧ ds.Nodup)) ∧
    (∀ (checkIdentifier : Bool) (c : Credential),
      c.structureFinding? checkIdentifier = some .notAscending ↔
        Text.isBlank c.content.schema = false ∧ ¬ (c.hashes.map toNat).Pairwise (· < ·)) ∧
    ∀ (σ : Type) (h : Hasher) (source : NonceSource σ) (content : Content)
        (evidence : List Credential) (state : σ) (c : Credential),
      (Credential.issue h source content evidence state).1 = .ok c →
        ∃ ss drawn, content.statements = .ok ss ∧
          drawn = (SaltedStatement.drawAll h source ss state).1 ∧
            drawn.map (·.statement) = ss ∧
              (∀ d ∈ drawn, d.salted = d.statement.salted h d.nonce) ∧
                c.hashes.Perm (drawn.map (·.salted)) ∧
                  (c.hashes.map toNat).Pairwise (· ≤ ·) := by
  refine ⟨fun a b => ⟨toNat_lt a, lt_iff_toNat_lt, toNat_inj.symm, lt_iff_text_lt, text_inj.symm⟩,
    fun ds => ⟨?_, ?_, ?_⟩, fun checkIdentifier c => ?_,
    fun σ h source content evidence state c hissue => ?_⟩
  · simp only [strictlyAscending_iff_neighbours, lt_iff_toNat_lt]
  · rw [strictlyAscending_iff, pairwise_lt_iff]
  · rw [strictlyAscending_iff, pairwise_lt_iff_nodup]
  · rw [Credential.structureFinding?_eq_notAscending_iff, ← pairwise_lt_iff,
      ← strictlyAscending_iff, Bool.not_eq_true]
  · obtain ⟨⟨ss, hss⟩, rfl⟩ := Credential.issue_eq_ok_iff.1 hissue
    have hdrawn : content.drawn h source state =
        (SaltedStatement.drawAll h source ss state).1 := by
      rw [Content.drawn, Content.stated_eq hss]
    refine ⟨ss, content.drawn h source state, hss, hdrawn, Content.map_statement_drawn _ _ _ hss,
      fun d hd => Content.salted_eq_of_mem_drawn hd, ?_, ?_⟩
    · rw [Credential.hashes_issued]
      exact sort_perm _
    · exact pairwise_le_iff.1 Credential.ascending_hashes_issued

/-- The hashes of a claim about a person, as it is issued. Their numbers ascend, and with the
hashes the other way round the credential is taken for out of order. -/
theorem Digest.order_is_numeric_of_personal :
    (Credential.issue Sample.hasher (.counting "n") Sample.person [] 0).1 = .ok Sample.personal ∧
      Sample.personal.hashes.length = 2 ∧
        (Sample.personal.hashes.map toNat).Pairwise (· ≤ ·) ∧
          ({ Sample.personal with hashes := Sample.personal.hashes.reverse } :
            Credential).structureFinding? true = some .notAscending := by
  obtain ⟨-, -, hfinding, hissued⟩ := order_is_numeric
  have hissue : (Credential.issue Sample.hasher (.counting "n") Sample.person [] 0).1 =
      .ok Sample.personal := rfl
  obtain ⟨ss, drawn, -, -, -, -, -, hascending⟩ := hissued _ _ _ _ _ _ _ hissue
  -- The nonces make the salted hashes come in their order, so that nothing has to be sorted.
  have hhashes : Sample.personal.hashes =
      (Sample.person.drawn Sample.hasher (.counting "n") 0).map (·.salted) := by
    rw [Sample.personal, Credential.hashes_issued, sort_eq_self (by decide)]
  have hreversed : ¬ (Sample.personal.hashes.reverse.map toNat).Pairwise (· < ·) := by
    rw [hhashes]
    decide
  exact ⟨hissue, by rw [hhashes]; decide, hascending, (hfinding _ _).2 ⟨by decide, hreversed⟩⟩

end SelectiveDisclosure
