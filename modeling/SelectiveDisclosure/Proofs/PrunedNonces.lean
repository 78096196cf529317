import Mathlib.Data.List.Dedup
import SelectiveDisclosure.Proofs.DisclosedCopies
import SelectiveDisclosure.Proofs.Rehashing

/-!
# Pruning changes nothing and leaves nothing over

A nonce map that has seen a few copies may hold more than a content needs: nonces of properties that
are gone, or of a value that a property no longer has. It may also hold less. Pruning drops what is
not needed, and whoever checks the content or commits to it again does not notice. They get the same
answer if something is missing, too, down to the finding and the fault.

The reason is that both look up nonces under the digests of the statements that are there, and
pruning keeps the entries under just these. Committing again makes a nonce map of its own, entry by
entry. If two statements have one digest, the later entry takes the place of the earlier. But both
were looked up under this digest in the same map, so they are the same entry, and what results is
what pruning gives.

## Main definitions

* `Content.PrunedTo` — one nonce map is as good for a content as another, and has nothing to spare.

## Main results

* `OrderedMap.ofList_eq_restrict` — a map made of entries of another is the other under their keys.
* `OrderedMap.size_restrict` — its size, if there are entries under all of the keys.
* `Content.disclosureFindings_congr`, `Content.recommit_congr` — nonces under other digests than
  those of the statements make no difference.
* `Content.nonces_of_recommit` — the nonces of what was committed to again.
* `Content.prune_transparent_and_tight` — pruning changes nothing and leaves nothing over.
-/

namespace SelectiveDisclosure

/-! ### Parts of maps -/

namespace OrderedMap

variable {κ ν : Type} [LT κ] [DecidableEq κ] [LE κ] [Std.LawfulOrderLT κ] {keys : List κ}
  {m m' : OrderedMap κ ν} {es : List (κ × ν)} {k : κ} {v : ν}

theorem get?_restrict_of_mem (hk : k ∈ keys) : (m.restrict keys).get? k = m.get? k := by
  rw [get?_restrict, if_pos hk]

theorem mem_entries_restrict_iff :
    (k, v) ∈ (m.restrict keys).entries ↔ (k, v) ∈ m.entries ∧ k ∈ keys := by
  rw [mem_entries_iff, mem_entries_iff, get?_restrict]
  by_cases hk : k ∈ keys <;> simp [hk]

/-- The size of a part of a map, if there are entries under all of the keys. A key that is listed
twice counts once. -/
theorem size_restrict (hkeys : ∀ k ∈ keys, m.contains k = true) :
    (m.restrict keys).size = keys.dedup.length := by
  have hsame : ∀ k, k ∈ (m.restrict keys).keys ↔ k ∈ keys.dedup := by
    intro k
    rw [mem_keys_iff, contains, get?_restrict, List.mem_dedup]
    by_cases hk : k ∈ keys
    · simpa [hk, contains] using hkeys k hk
    · simp [hk]
  have hperm : (m.restrict keys).keys.Perm keys.dedup :=
    (List.perm_ext_iff_of_nodup (nodup_keys _) keys.nodup_dedup).2 hsame
  calc (m.restrict keys).size = (m.restrict keys).keys.length := (List.length_map _).symm
    _ = keys.dedup.length := hperm.length_eq

variable [Std.IsLinearOrder κ]

theorem restrict_restrict_of_subset {keys' : List κ} (hsub : keys' ⊆ keys) (m : OrderedMap κ ν) :
    (m.restrict keys).restrict keys' = m.restrict keys' :=
  restrict_congr fun _ hk => get?_restrict_of_mem (hsub hk)

theorem restrict_restrict (keys : List κ) (m : OrderedMap κ ν) :
    (m.restrict keys).restrict keys = m.restrict keys :=
  restrict_restrict_of_subset (List.Subset.refl keys) m

variable [DecidableLT κ]

/-- Entries of one map that are added to another hide what is under their keys there. It does not
matter how often a key is added, since it is added with the same value. -/
theorem get?_insertAll_of_forall (hes : ∀ e ∈ es, m.get? e.1 = some e.2) :
    (m'.insertAll es).get? k = if k ∈ es.map (·.1) then m.get? k else m'.get? k := by
  induction es generalizing m' with
  | nil => rfl
  | cons e rest ih =>
    obtain ⟨he, hrest⟩ := List.forall_mem_cons.1 hes
    have hstep : m'.insertAll (e :: rest) = (m'.insert e.1 e.2).insertAll rest := rfl
    rw [hstep, ih hrest, get?_insert, List.map_cons]
    by_cases hk : k = e.1
    · simp [hk, he]
    · simp only [List.mem_cons, hk, false_or, if_false]

/-- **A map made of entries of another is the other under their keys.** -/
theorem ofList_eq_restrict (hes : ∀ e ∈ es, m.get? e.1 = some e.2) :
    ofList es = m.restrict (es.map (·.1)) := by
  refine ext_get? fun k => ?_
  rw [ofList, get?_insertAll_of_forall hes, get?_restrict, get?_empty]

end OrderedMap

/-! ### The nonces that are looked up -/

variable {h : Hasher} {nonces nonces' : NonceMap}

namespace SaltedStatement

variable {ss : List Statement}

theorem lookUpAll_congr
    (hagree : ∀ s ∈ ss, nonces.get? (s.digest h) = nonces'.get? (s.digest h)) :
    lookUpAll h nonces ss = lookUpAll h nonces' ss := by
  induction ss with
  | nil => rfl
  | cons s rest ih =>
    obtain ⟨hs, hrest⟩ := List.forall_mem_cons.1 hagree
    rw [lookUpAll, lookUpAll, hs, ih hrest]

/-- Statements that are salted with recorded nonces have these nonces under their digests. -/
theorem recorded_of_lookUpAll {ds : List SaltedStatement} (hds : lookUpAll h nonces ss = .ok ds) :
    ds.map (·.digest) = ss.map (·.digest h) ∧
      ∀ d ∈ ds, nonces.get? d.digest = some d.nonce := by
  induction ss generalizing ds with
  | nil =>
    obtain rfl := Except.ok.inj hds
    exact ⟨rfl, nofun⟩
  | cons s rest ih =>
    obtain ⟨nonce, others, hnonce, hothers, rfl⟩ := lookUpAll_cons_eq_ok_iff.1 hds
    obtain ⟨hdigests, hrecorded⟩ := ih hothers
    exact ⟨congrArg (s.digest h :: ·) hdigests, List.forall_mem_cons.2 ⟨hnonce, hrecorded⟩⟩

end SaltedStatement

namespace Content

variable {c : Content} {ss : List Statement}

/-- What is found depends on no nonces but those of the statements that are there. -/
theorem disclosureFindings_congr (hashes : List Digest)
    (hagree : ∀ s ∈ c.stated, nonces.get? (s.digest h) = nonces'.get? (s.digest h)) :
    c.disclosureFindings h nonces hashes = c.disclosureFindings h nonces' hashes := by
  cases hss : c.statements with
  | error fault => rw [disclosureFindings_of_error hss, disclosureFindings_of_error hss]
  | ok ss =>
    rw [stated_eq hss] at hagree
    rw [disclosureFindings_of_statements hss, disclosureFindings_of_statements hss]
    refine List.filterMap_congr fun s hs => ?_
    rw [statementFinding?, statementFinding?, hagree s hs]

/-- So does committing again. -/
theorem recommit_congr
    (hagree : ∀ s ∈ c.stated, nonces.get? (s.digest h) = nonces'.get? (s.digest h)) :
    c.recommit h nonces = c.recommit h nonces' := by
  rw [recommit, recommit]
  cases hss : c.statements with
  | error fault => rfl
  | ok ss =>
    rw [stated_eq hss] at hagree
    simp only [bind, Except.bind, SaltedStatement.lookUpAll_congr hagree]

/-- **The nonces of what was committed to again** are those under the digests of the statements, and
each of these digests has one. -/
theorem nonces_of_recommit {commitment : Commitment} (hss : c.statements = .ok ss)
    (hcommitment : c.recommit h nonces = .ok commitment) :
    commitment.nonces = nonces.restrict (ss.map (·.digest h)) ∧
      ∀ digest ∈ ss.map (·.digest h), nonces.contains digest = true := by
  obtain ⟨ss', ds, hss', hds, rfl⟩ := recommit_eq_ok_iff.1 hcommitment
  obtain rfl := Except.ok.inj (hss.symm.trans hss')
  obtain ⟨hdigests, hrecorded⟩ := SaltedStatement.recorded_of_lookUpAll hds
  rw [← hdigests]
  constructor
  · rw [Commitment.ofSalted, OrderedMap.ofList_eq_restrict (List.forall_mem_map.2 hrecorded),
      List.map_map]
    rfl
  · refine List.forall_mem_map.2 fun d hd => ?_
    rw [OrderedMap.contains, hrecorded d hd, Option.isSome_some]

/-! ### Pruning -/

/-- Whether a nonce map is as good as another for a content with some statements, and has nothing to
spare: the same is found with it, the same is committed to or fails for the same reason, and it has
the entries of the other under the digests of the statements, so that pruning it once more makes no
difference. If all statements have nonces, then committing again gives this map, which has one entry
for each digest. -/
structure PrunedTo (h : Hasher) (nonces : NonceMap) (c : Content) (ss : List Statement)
    (pruned : NonceMap) : Prop where
  findings : ∀ hashes, c.disclosureFindings h pruned hashes = c.disclosureFindings h nonces hashes
  recommit : c.recommit h pruned = c.recommit h nonces
  entries : ∀ digest nonce, (digest, nonce) ∈ pruned.entries ↔
    (digest, nonce) ∈ nonces.entries ∧ ∃ s ∈ ss, s.digest h = digest
  again : c.prune h pruned = .ok pruned
  committed : ∀ commitment, c.recommit h nonces = .ok commitment →
    commitment.nonces = pruned ∧ pruned.size = (ss.map (·.digest h)).dedup.length

/-- **Pruning changes nothing and leaves nothing over**, whatever the nonce map has too much or too
little. -/
theorem prune_transparent_and_tight (h : Hasher) (nonces : NonceMap) (c : Content)
    (hss : c.statements = .ok ss) :
    ∃ pruned, c.prune h nonces = .ok pruned ∧ c.PrunedTo h nonces ss pruned := by
  have hagree : ∀ s ∈ c.stated,
      (nonces.restrict (ss.map (·.digest h))).get? (s.digest h) = nonces.get? (s.digest h) := by
    rw [stated_eq hss]
    exact fun s hs => OrderedMap.get?_restrict_of_mem (List.mem_map_of_mem hs)
  refine ⟨nonces.restrict (ss.map (·.digest h)), prune_eq_ok_iff.2 ⟨ss, hss, rfl⟩, ?_⟩
  refine ⟨fun hashes => disclosureFindings_congr hashes hagree, recommit_congr hagree,
    fun digest nonce => ?_, ?_, fun commitment hcommitment => ?_⟩
  · rw [OrderedMap.mem_entries_restrict_iff, List.mem_map]
  · exact prune_eq_ok_iff.2 ⟨ss, hss, (OrderedMap.restrict_restrict _ _).symm⟩
  · obtain ⟨hnonces, hall⟩ := nonces_of_recommit hss hcommitment
    exact ⟨hnonces, OrderedMap.size_restrict hall⟩

end Content

namespace Sample

/-- Nonces for the statements about a person, and one that is left from another statement. -/
def staleNonces : NonceMap :=
  .ofList [((Statement.ofHolder "alice").digest hasher, "n0"),
    ((Statement.ofHolder "bob").digest hasher, "n1"),
    ((Statement.ofEntry "person" ("age", .ofJson (.number (.whole 29)))).digest hasher, "n2")]

end Sample

namespace Content

/-- The nonce that is left from another statement is pruned, and those of the person stay. -/
theorem prune_stale_nonces :
    Sample.staleNonces.size = 3 ∧
      ∃ pruned, Sample.person.prune Sample.hasher Sample.staleNonces = .ok pruned ∧
        pruned.size = 2 := by
  obtain ⟨pruned, hpruned, hprunedTo⟩ :=
    prune_transparent_and_tight Sample.hasher Sample.staleNonces Sample.person rfl
  have hcommitted : Sample.person.recommit Sample.hasher Sample.staleNonces = .ok (.ofSalted
      [.of Sample.hasher (.ofHolder "alice") "n0",
        .of Sample.hasher (.ofEntry "person" ("age", .ofJson (.number (.whole 29)))) "n2"]) := rfl
  exact ⟨by decide, pruned, hpruned, (hprunedTo.committed _ hcommitted).2.trans (by decide)⟩

end Content

end SelectiveDisclosure
