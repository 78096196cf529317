import SelectiveDisclosure.Credential.Basic
import SelectiveDisclosure.Proofs.Messages
import SelectiveDisclosure.Testing.Samples

/-!
# Where order is forgotten

On the way from a list of properties to a root hash the order of the list is forgotten in three
places, and in each for a reason of its own. Properties are added to a content one after the other,
and one that is added again takes the place of the first: so two lists make the same content exactly
if every name has the same value in the end. Salted statements are collected in a sorted list of
hashes and a map of nonces, where those with different digests do not get in each other's way. And
whoever hashes the leaves sorts the salted hashes again.

The order of the evidence is not forgotten. The same leaves with the evidence in another order are
another message, and have another root hash unless the hash function fails.

## Main definitions

* `Content.SameLast` — two lists of properties give every name the same value in the end.
* `rootMessage` — what a root hash is the hash of.

## Main results

* `Content.ofProperties_eq_iff` — which lists of properties make the same content.
* `Commitment.ofSalted_eq_of_perm` — salted statements in another order.
* `rootHash_eq_iff_of_perm` — salted hashes in another order, and evidence.
* `commitment_ignores_order` — all of this together.
-/

namespace SelectiveDisclosure

/-! ### Properties -/

namespace Content

variable {schema issuer : String} {holder : Option String}
  {properties properties' : List (String × Json)} {name : String}

/-- The value that a list of properties gives to a name in the end. -/
def lastValue? (properties : List (String × Json)) (name : String) : Option Value :=
  (OrderedMap.lookup name properties.reverse).map Value.ofJson

/-- Whether two lists of properties give every name the same value in the end. -/
def SameLast (properties properties' : List (String × Json)) : Prop :=
  ∀ name, lastValue? properties name = lastValue? properties' name

/-- Properties that are added to a content one after the other are entries that are added to its
map. -/
theorem foldl_setProperty (c : Content) (properties : List (String × Json)) :
    properties.foldl (fun c p => c.setProperty p.1 (.ofJson p.2)) c =
      { c with
        properties := c.properties.insertAll (properties.map fun p => (p.1, .ofJson p.2)) } := by
  induction properties generalizing c with
  | nil => rfl
  | cons property rest ih =>
    rw [List.foldl_cons, ih]
    rfl

theorem ofProperties_eq (schema issuer : String) (holder : Option String)
    (properties : List (String × Json)) :
    ofProperties schema issuer holder properties =
      ⟨schema, issuer, holder, .ofList (properties.map fun p => (p.1, .ofJson p.2))⟩ :=
  foldl_setProperty (.blank schema issuer holder) properties

theorem get?_ofList_eq_lastValue? (properties : List (String × Json)) (name : String) :
    (OrderedMap.ofList (properties.map fun p => (p.1, Value.ofJson p.2))).get? name =
      lastValue? properties name := by
  rw [OrderedMap.get?_ofList, ← List.map_reverse, OrderedMap.lookup_map, lastValue?]

/-- **Which lists of properties make the same content.** -/
theorem ofProperties_eq_iff :
    ofProperties schema issuer holder properties = ofProperties schema issuer holder properties' ↔
      SameLast properties properties' := by
  simp only [ofProperties_eq, mk.injEq, true_and]
  constructor
  · intro heq name
    rw [← get?_ofList_eq_lastValue?, heq, get?_ofList_eq_lastValue?]
  · intro hsame
    refine OrderedMap.ext_get? fun name => ?_
    rw [get?_ofList_eq_lastValue?, get?_ofList_eq_lastValue?, hsame name]

/-- Properties with different names make one content, in whatever order they come. -/
theorem sameLast_of_perm (hnames : (properties.map (·.1)).Nodup)
    (hperm : properties.Perm properties') : SameLast properties properties' := by
  have hnodup : ((properties.map fun p => (p.1, Value.ofJson p.2)).map (·.1)).Nodup := by
    rwa [List.map_map]
  intro name
  rw [← get?_ofList_eq_lastValue?, OrderedMap.ofList_eq_of_perm hnodup (hperm.map _),
    get?_ofList_eq_lastValue?]

end Content

/-! ### Salted statements -/

/-- **Salted statements with different digests make one commitment**, in whatever order they
come. -/
theorem Commitment.ofSalted_eq_of_perm {ds ds' : List SaltedStatement}
    (hdigests : (ds.map (·.digest)).Nodup) (hperm : ds.Perm ds') : ofSalted ds = ofSalted ds' := by
  rw [ofSalted, ofSalted, Digest.sort_eq_of_perm (hperm.map _),
    OrderedMap.ofList_eq_of_perm (nodup_keys hdigests) (hperm.map _)]

/-! ### Leaves -/

/-- What a root hash is the hash of: the salted hashes in ascending order, and behind them the root
hashes of the evidence in the order given. For those of a credential these are its `leaves`. -/
def rootMessage (salted evidence : List Digest) : Bytes :=
  ((Digest.sort salted ++ evidence).map (·.bytes)).flatten

section Leaves

variable {h : Hasher} {salted salted' evidence evidence' : List Digest}

theorem rootHash_eq_hash (h : Hasher) (salted evidence : List Digest) :
    rootHash h salted evidence = h.hash (rootMessage salted evidence) := rfl

theorem rootMessage_eq_iff_of_perm (hperm : salted.Perm salted') :
    rootMessage salted evidence = rootMessage salted' evidence' ↔ evidence = evidence' := by
  rw [rootMessage, rootMessage, Digest.sort_eq_of_perm hperm]
  constructor
  · intro heq
    exact List.append_cancel_left (Digest.flatten_bytes_inj heq)
  · rintro rfl
    rfl

/-- **The root hash forgets the order of the salted hashes, and not that of the evidence.** -/
theorem rootHash_eq_iff_of_perm (hperm : salted.Perm salted')
    (hclean : h.CollisionFree [rootMessage salted evidence, rootMessage salted' evidence']) :
    rootHash h salted evidence = rootHash h salted' evidence' ↔ evidence = evidence' := by
  rw [← rootMessage_eq_iff_of_perm hperm, rootHash_eq_hash, rootHash_eq_hash]
  exact ⟨hclean _ (by simp) _ (by simp), congrArg h.hash⟩

end Leaves

/-- **A commitment does not depend on order.** Two lists of properties make the same content exactly
if they give every name the same value in the end, as two orders of one list with different names
do; then the statements are the same, and so is what is committed to and issued with one nonce map.
Salted statements with different digests make the same commitment in any order, of all their salted
hashes and nonces. Salted hashes in any order have the same root hash with the same evidence, and in
front of other evidence, or of the same in another order, they have another, if the hash function
does not fail on the two messages. -/
theorem commitment_ignores_order :
    (∀ (schema issuer : String) (holder : Option String)
        (properties properties' : List (String × Json)),
      (Content.SameLast properties properties' ↔
        Content.ofProperties schema issuer holder properties =
          Content.ofProperties schema issuer holder properties') ∧
      ((properties.map (·.1)).Nodup → properties.Perm properties' →
        Content.SameLast properties properties') ∧
      (Content.SameLast properties properties' →
        (Content.ofProperties schema issuer holder properties).statements =
            (Content.ofProperties schema issuer holder properties').statements ∧
          ∀ (h : Hasher) (nonces : NonceMap),
            (Content.ofProperties schema issuer holder properties).recommit h nonces =
                (Content.ofProperties schema issuer holder properties').recommit h nonces ∧
              Credential.issueRecorded h nonces
                  (Content.ofProperties schema issuer holder properties) =
                Credential.issueRecorded h nonces
                  (Content.ofProperties schema issuer holder properties'))) ∧
    (∀ ds ds' : List SaltedStatement, (ds.map (·.digest)).Nodup → ds.Perm ds' →
      Commitment.ofSalted ds = Commitment.ofSalted ds' ∧
        (Commitment.ofSalted ds).hashes.Pairwise (· ≤ ·) ∧
        (Commitment.ofSalted ds).hashes.Perm (ds.map (·.salted)) ∧
        (Commitment.ofSalted ds).nonces.entries.Perm (ds.map fun d => (d.digest, d.nonce))) ∧
    ∀ (h : Hasher) (salted salted' evidence evidence' : List Digest), salted.Perm salted' →
      rootHash h salted evidence = rootHash h salted' evidence ∧
        (h.CollisionFree [rootMessage salted evidence, rootMessage salted' evidence'] →
          (rootHash h salted evidence = rootHash h salted' evidence' ↔ evidence = evidence')) := by
  refine ⟨fun schema issuer holder properties properties' => ⟨Content.ofProperties_eq_iff.symm,
    Content.sameLast_of_perm, fun hsame => ?_⟩, fun ds ds' hdigests hperm =>
      ⟨Commitment.ofSalted_eq_of_perm hdigests hperm, Digest.sort_ascending _,
        Digest.sort_perm _, Commitment.entries_ofSalted_perm hdigests⟩,
    fun h salted salted' evidence evidence' hperm => ⟨rootHash_eq_of_perm h evidence hperm,
      rootHash_eq_iff_of_perm hperm⟩⟩
  have hcontent : Content.ofProperties schema issuer holder properties =
      Content.ofProperties schema issuer holder properties' := Content.ofProperties_eq_iff.2 hsame
  exact ⟨by rw [hcontent], fun h nonces => by rw [hcontent]; exact ⟨rfl, rfl⟩⟩

namespace Sample

/-- The age and the name of a person, and the age once more. -/
def corrected : List (String × Json) :=
  [("age", .number (.whole 28)), ("name", .string "Alice"), ("age", .number (.whole 29))]

/-- The name of a person, and their age. -/
def settled : List (String × Json) :=
  [("name", .string "Alice"), ("age", .number (.whole 29))]

/-- That Alice is the holder, salted. -/
def saltedAlice : SaltedStatement := .of hasher (.ofHolder "alice") "n0"

/-- That Bob is the holder, salted. -/
def saltedBob : SaltedStatement := .of hasher (.ofHolder "bob") "n1"

end Sample

/-- A person whose age was corrected is the person with the right age. Two salted statements make
one commitment, and two pieces of evidence have different root hashes in the two orders. -/
theorem commitment_ignores_order_of_person :
    Content.SameLast Sample.corrected Sample.settled ∧
      Content.ofProperties "person" "registry" none Sample.corrected =
        Content.ofProperties "person" "registry" none Sample.settled ∧
      Content.SameLast Sample.settled Sample.settled.reverse ∧
      Commitment.ofSalted [Sample.saltedAlice, Sample.saltedBob] =
        Commitment.ofSalted [Sample.saltedBob, Sample.saltedAlice] ∧
      rootHash Sample.hasher [] [Sample.saltedAlice.salted, Sample.saltedBob.salted] ≠
        rootHash Sample.hasher [] [Sample.saltedBob.salted, Sample.saltedAlice.salted] := by
  obtain ⟨hproperties, hsalted, hroots⟩ := commitment_ignores_order
  obtain ⟨hcorrected, -, -⟩ :=
    hproperties "person" "registry" none Sample.corrected Sample.settled
  obtain ⟨-, hsettled, -⟩ :=
    hproperties "person" "registry" none Sample.settled Sample.settled.reverse
  have hsame : Content.SameLast Sample.corrected Sample.settled := by
    intro name
    by_cases hname : name = "age" <;>
      simp [Content.lastValue?, Sample.corrected, Sample.settled, OrderedMap.lookup, hname]
  have hclean : Sample.hasher.CollisionFree
      [rootMessage [] [Sample.saltedAlice.salted, Sample.saltedBob.salted],
        rootMessage [] [Sample.saltedBob.salted, Sample.saltedAlice.salted]] := by
    simp only [rootMessage, Digest.sort_eq_self List.Pairwise.nil]
    decide
  refine ⟨hsame, hcorrected.1 hsame, hsettled (by decide) (List.reverse_perm _).symm,
    (hsalted _ _ (by decide) (List.Perm.swap _ _ _)).1, fun heq => ?_⟩
  have hevidence := ((hroots Sample.hasher [] [] _ _ (List.Perm.refl [])).2 hclean).1 heq
  exact absurd hevidence (by decide)

end SelectiveDisclosure
