import SelectiveDisclosure.Hasher
import SelectiveDisclosure.Statement

/-!
# Commitments

A statement is committed to by the hash of a nonce followed by the statement. The nonce is kept
under the digest of the bare statement, so whoever knows a statement can find its nonce and
recompute the salted hash, and whoever does not know it learns nothing.

The salted hashes of a content are published in ascending order, so that they say nothing about the
order of the properties. They and the root hashes of the evidence, in its given order, are hashed
together to the root hash.

## Main definitions

* `NonceSource` — where nonces come from at issuance.
* `Statement.digest`, `Statement.salted` — the two hashes of a statement.
* `SaltedStatement` — a statement with its nonce and both hashes.
* `Commitment` — the salted hashes and the nonces of a content.
* `Content.commit`, `Content.recommit` — with fresh nonces, and with recorded ones.
* `rootHash` — the root hash over salted hashes and evidence.

## Main results

* `Statement.salted_eq` — the salted hash is that of nonce and statement laid end to end.
* `SaltedStatement.length_drawAll` — one nonce is drawn for each statement.
* `SaltedStatement.eq_of_mem_drawAll` — what is drawn is salted with its own nonce.
* `Commitment.entries_ofSalted_perm` — no nonce gets lost among different digests.
-/

namespace SelectiveDisclosure

/-- A source of nonces with a state of type `σ`. A nonce is drawn for the digest of the statement
that it will salt. -/
structure NonceSource (σ : Type) where
  draw : Digest → σ → String × σ

namespace Statement

/-- The digest of the bare statement, under which its nonce is kept. -/
def digest (h : Hasher) (s : Statement) : Digest := h.hash s.bytes

/-- The hash of the nonce followed by the statement. -/
def salted (h : Hasher) (s : Statement) (nonce : String) : Digest :=
  h.hashAll [utf8 nonce, s.bytes]

theorem salted_eq (h : Hasher) (s : Statement) (nonce : String) :
    s.salted h nonce = h.hash (utf8 (nonce ++ s.text)) := by
  simp [salted, bytes, Hasher.hashAll]

end Statement

/-- A statement with its nonce and both hashes. -/
structure SaltedStatement where
  statement : Statement
  digest : Digest
  nonce : String
  salted : Digest
  deriving DecidableEq

namespace SaltedStatement

/-- A statement salted with a nonce. -/
def of (h : Hasher) (s : Statement) (nonce : String) : SaltedStatement :=
  ⟨s, s.digest h, nonce, s.salted h nonce⟩

/-- Salts statements with fresh nonces, drawn in the order of the statements. -/
def drawAll {σ : Type} (h : Hasher) (source : NonceSource σ) :
    List Statement → σ → List SaltedStatement × σ
  | [], state => ([], state)
  | s :: rest, state =>
    let drawn := source.draw (s.digest h) state
    let others := drawAll h source rest drawn.2
    (of h s drawn.1 :: others.1, others.2)

/-- Salts statements with recorded nonces, up to the first without one. -/
def lookUpAll (h : Hasher) (nonces : NonceMap) :
    List Statement → Except Fault (List SaltedStatement)
  | [] => .ok []
  | s :: rest =>
    match nonces.get? (s.digest h) with
    | none => .error (.missingNonce s.text)
    | some nonce => (lookUpAll h nonces rest).map (of h s nonce :: ·)

theorem length_drawAll {σ : Type} (h : Hasher) (source : NonceSource σ) (ss : List Statement)
    (state : σ) : (drawAll h source ss state).1.length = ss.length := by
  induction ss generalizing state with
  | nil => rfl
  | cons s rest ih => simp [drawAll, ih]

theorem map_statement_drawAll {σ : Type} (h : Hasher) (source : NonceSource σ)
    (ss : List Statement) (state : σ) : (drawAll h source ss state).1.map (·.statement) = ss := by
  induction ss generalizing state with
  | nil => rfl
  | cons s rest ih => simp [drawAll, of, ih]

/-- What is drawn for a statement is the statement salted with a nonce. -/
theorem eq_of_mem_drawAll {σ : Type} {h : Hasher} {source : NonceSource σ} {ss : List Statement}
    {state : σ} {d : SaltedStatement} (hd : d ∈ (drawAll h source ss state).1) :
    d = of h d.statement d.nonce := by
  induction ss generalizing state with
  | nil => simp [drawAll] at hd
  | cons s rest ih =>
    simp only [drawAll, List.mem_cons] at hd
    rcases hd with rfl | hd
    · rfl
    · exact ih hd

end SaltedStatement

/-- The salted hashes of a content in ascending order, and its nonces. -/
structure Commitment where
  hashes : List Digest
  nonces : NonceMap
  deriving DecidableEq

namespace Commitment

/-- The commitment that salted statements make. -/
def ofSalted (ss : List SaltedStatement) : Commitment :=
  ⟨Digest.sort (ss.map (·.salted)), .ofList (ss.map fun s => (s.digest, s.nonce))⟩

variable {ss : List SaltedStatement}

theorem nodup_keys (hdigests : (ss.map (·.digest)).Nodup) :
    ((ss.map fun s => (s.digest, s.nonce)).map (·.1)).Nodup := by
  rwa [List.map_map]

/-- The nonce map has an entry for each statement, if these have different digests. -/
theorem entries_ofSalted_perm (hdigests : (ss.map (·.digest)).Nodup) :
    (ofSalted ss).nonces.entries.Perm (ss.map fun s => (s.digest, s.nonce)) :=
  OrderedMap.entries_ofList_perm (nodup_keys hdigests)

end Commitment

namespace Content

/-- Commits to a content with fresh nonces. No nonce is drawn for a content without statements. -/
def commit {σ : Type} (h : Hasher) (source : NonceSource σ) (c : Content) (state : σ) :
    Except Fault Commitment × σ :=
  match c.statements with
  | .error fault => (.error fault, state)
  | .ok ss =>
    let drawn := SaltedStatement.drawAll h source ss state
    (.ok (.ofSalted drawn.1), drawn.2)

/-- Commits to a content with recorded nonces. -/
def recommit (h : Hasher) (nonces : NonceMap) (c : Content) : Except Fault Commitment := do
  let ss ← c.statements
  return .ofSalted (← SaltedStatement.lookUpAll h nonces ss)

end Content

/-- The root hash over salted hashes in ascending order and root hashes of evidence in the order
given. -/
def rootHash (h : Hasher) (salted evidence : List Digest) : Digest :=
  h.hashAll ((Digest.sort salted ++ evidence).map (·.bytes))

theorem rootHash_eq_of_perm (h : Hasher) {salted salted' : List Digest} (evidence : List Digest)
    (p : salted.Perm salted') : rootHash h salted evidence = rootHash h salted' evidence := by
  simp [rootHash, Digest.sort_eq_of_perm p]

end SelectiveDisclosure
