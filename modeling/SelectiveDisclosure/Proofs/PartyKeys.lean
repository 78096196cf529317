import SelectiveDisclosure.Proofs.Json.Unambiguous
import SelectiveDisclosure.Testing.Parties

/-!
# Parties with one key

Tests that need several holders take the parties with the numbers from zero on. The URI of a holder
has the number written out in it, and no two are the same. The seed of a key has room for one byte
of the number. So every party has a holder of its own, but keys come round again after 256 parties,
and from there on a signature of one party is a signature of another one too.

That keys differ where seeds do is a matter of the signature scheme, and enters as an assumption on
the two seeds at hand. To assume it of all seeds of 32 bytes would be to assume something false:
there are fewer secret scalars than seeds.

## Main results

* `holder_party_inj` — the holders are different.
* `pair_party_eq_iff` — which parties have one seed.
* `parties_apart` — holders and keys of any two of a number of parties.
* `first_key_comes_round` — the first two parties with one key.
-/

namespace SelectiveDisclosure

variable {count i j : Nat}

theorem getElem?_parties (hi : i < count) : (parties count)[i]? = some (party i) := by
  rw [parties, List.getElem?_map, List.getElem?_range hi, Option.map_some]

/-- Every party has a holder of its own. -/
theorem holder_party_inj : (party i).holder = (party j).holder ↔ i = j := by
  have hdigits : toString i = toString j ↔ i = j :=
    ⟨fun h => Number.toDigits_inj (String.ofList_injective h), congrArg toString⟩
  rw [party, party, String.append_right_inj, hdigits]

/-- The key of a party is registered under a URI of its own. -/
theorem keyUri_party_inj : (party i).keyUri = (party j).keyUri ↔ i = j := by
  rw [Party.keyUri, Party.keyUri, String.append_left_inj, holder_party_inj]

/-- **Parties have one seed exactly if their numbers leave the same remainder by 256.** -/
theorem pair_party_eq_iff : (party i).pair = (party j).pair ↔ i % 256 = j % 256 := by
  have hbyte : UInt8.ofNat i = UInt8.ofNat j ↔ i % 256 = j % 256 := by
    rw [← UInt8.toNat_inj, UInt8.toNat_ofNat', UInt8.toNat_ofNat']
  rw [← hbyte]
  simp [party]

/-- **Any two of a number of parties have different holders, and one key only if their numbers leave
the same remainder by 256.** That they have different keys otherwise is left to the signature
scheme, for the two seeds at hand. Up to 256 parties all keys are different then. -/
theorem parties_apart (hi : i < count) (hj : j < count) (hij : i ≠ j) :
    (parties count)[i]? = some (party i) ∧ (parties count)[j]? = some (party j) ∧
      (party i).holder ≠ (party j).holder ∧ (party i).keyUri ≠ (party j).keyUri ∧
        (((party i).pair ≠ (party j).pair → (party i).publicKey ≠ (party j).publicKey) →
          ((party i).publicKey = (party j).publicKey ↔ i % 256 = j % 256) ∧
            (count ≤ 256 → (party i).publicKey ≠ (party j).publicKey)) := by
  refine ⟨getElem?_parties hi, getElem?_parties hj, mt holder_party_inj.1 hij,
    mt keyUri_party_inj.1 hij, fun hkeys => ?_⟩
  have hshared : (party i).publicKey = (party j).publicKey ↔ i % 256 = j % 256 := by
    rw [← pair_party_eq_iff]
    constructor
    · intro hkey
      exact Decidable.byContradiction fun hpair => hkeys hpair hkey
    · intro hpair
      rw [Party.publicKey, Party.publicKey, hpair]
  refine ⟨hshared, fun hcount hkey => hij ?_⟩
  have hremainder := hshared.1 hkey
  rwa [Nat.mod_eq_of_lt (by omega), Nat.mod_eq_of_lt (by omega)] at hremainder

/-- Of 258 parties the last has another key than the first, and the same key as the second. -/
theorem parties_apart_of_last :
    (parties 258)[257]? = some (party 257) ∧ (party 0).holder ≠ (party 257).holder ∧
      (party 1).holder ≠ (party 257).holder ∧ (party 0).publicKey ≠ (party 257).publicKey ∧
        (party 1).publicKey = (party 257).publicKey := by
  have hseeds : (party 0).publicKey ≠ (party 257).publicKey := by decide +kernel
  have hsame : (party 1).pair = (party 257).pair := pair_party_eq_iff.2 rfl
  obtain ⟨-, hlast, hfirst, -, hapart⟩ :=
    parties_apart (show 0 < 258 by decide) (show 257 < 258 by decide) (by decide)
  obtain ⟨-, -, hsecond, -, hshared⟩ :=
    parties_apart (show 1 < 258 by decide) (show 257 < 258 by decide) (by decide)
  exact ⟨hlast, hfirst, hsecond, mt (hapart fun _ => hseeds).1.1 (by decide),
    (hshared fun hne => absurd hsame hne).1.2 rfl⟩

/-- **Keys come round.** The parties with the numbers 0 and 256 have different holders and one key.
They have one seed, so that no assumption on the signature scheme could tell them apart. -/
theorem first_key_comes_round :
    (parties 257)[0]? = some (party 0) ∧ (parties 257)[256]? = some (party 256) ∧
      (party 0).holder ≠ (party 256).holder ∧ (party 0).pair = (party 256).pair ∧
        (party 0).publicKey = (party 256).publicKey := by
  have hseed : (party 0).pair = (party 256).pair := pair_party_eq_iff.2 rfl
  refine ⟨getElem?_parties (by decide), getElem?_parties (by decide),
    mt holder_party_inj.1 (by decide), hseed, ?_⟩
  rw [Party.publicKey, Party.publicKey, hseed]

end SelectiveDisclosure
