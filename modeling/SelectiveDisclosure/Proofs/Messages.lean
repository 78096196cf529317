import SelectiveDisclosure.Proofs.StatementTexts
import SelectiveDisclosure.Verification

/-!
# The messages that are hashed

A commitment is worth as much as its hash function, and no theorem about commitments can do without
an assumption on it. To assume that it has no collisions at all would be to assume something false:
there are more byte strings than digests. So what is assumed is about a list of messages, those that
the operations in question do hash, and it is no more than that no two of these have one digest.

Three kinds of messages are hashed: the bare statements, the statements behind their nonces, and the
leaves of a credential laid end to end.

## Main definitions

* `Hasher.CollisionFree` — no two messages of a list have the same digest.
* `Content.statementMessages`, `Content.saltedMessages` — what is hashed for the statements of a
  content, the latter with recorded nonces.
* `Content.drawn`, `Content.drawnMessages` — the statements of a content with fresh nonces, and
  what is hashed for these.
* `Credential.leaves` — what the root hash is the hash of.

## Main results

* `Statement.saltedMessage_eq_iff` — a nonce with a statement behind it determines both.
* `Content.salted_inj` — among messages without collisions, a salted hash determines the nonce and
  the text of the statement.
* `Credential.leaves_inj` — equal root hashes are those of equal leaves.
* `Credential.leaves_eq_iff` — equal leaves are the same digests, listed in the same order.
-/

namespace SelectiveDisclosure

/-- Whether no two messages of a list have the same digest. -/
def Hasher.CollisionFree (h : Hasher) (messages : List Bytes) : Prop :=
  ∀ a ∈ messages, ∀ b ∈ messages, h.hash a = h.hash b → a = b

namespace Hasher

instance (h : Hasher) (messages : List Bytes) : Decidable (h.CollisionFree messages) :=
  inferInstanceAs (Decidable (∀ a ∈ messages, ∀ b ∈ messages, h.hash a = h.hash b → a = b))

theorem CollisionFree.of_subset {h : Hasher} {few many : List Bytes} (hmany : h.CollisionFree many)
    (hsub : few ⊆ many) : h.CollisionFree few := by
  intro a ha b hb heq
  exact hmany a (hsub ha) b (hsub hb) heq

theorem collisionFree_same (h : Hasher) (message : Bytes) :
    h.CollisionFree [message, message] := by
  simp [CollisionFree]

theorem CollisionFree.left {h : Hasher} {first second : List Bytes}
    (hclean : h.CollisionFree (first ++ second)) : h.CollisionFree first :=
  hclean.of_subset (List.subset_append_left first second)

theorem CollisionFree.right {h : Hasher} {first second : List Bytes}
    (hclean : h.CollisionFree (first ++ second)) : h.CollisionFree second :=
  hclean.of_subset (List.subset_append_right first second)

theorem CollisionFree.swap {h : Hasher} {first second : List Bytes}
    (hclean : h.CollisionFree (first ++ second)) : h.CollisionFree (second ++ first) :=
  hclean.of_subset List.perm_append_comm.subset

end Hasher

/-! ### Statements -/

/-- The nonce and the statement behind it. -/
def Statement.saltedMessage (s : Statement) (nonce : String) : Bytes := utf8 nonce ++ s.bytes

/-- The nonce and the statement behind it. -/
def SaltedStatement.message (d : SaltedStatement) : Bytes := d.statement.saltedMessage d.nonce

namespace Statement

theorem salted_eq_hash (h : Hasher) (s : Statement) (nonce : String) :
    s.salted h nonce = h.hash (s.saltedMessage nonce) := by
  simp [salted, saltedMessage, Hasher.hashAll]

theorem text_eq_of_bytes_eq {s s' : Statement} (h : s.bytes = s'.bytes) : s.text = s'.text :=
  utf8_inj h

theorem digest_eq_of_text_eq (h : Hasher) {s s' : Statement} (htext : s.text = s'.text) :
    s.digest h = s'.digest h := by
  rw [digest, digest, bytes, bytes, htext]

theorem append_eq_of_saltedMessage_eq {s s' : Statement} {nonce nonce' : String}
    (h : s.saltedMessage nonce = s'.saltedMessage nonce') :
    nonce ++ s.text = nonce' ++ s'.text := by
  refine utf8_inj ?_
  rw [utf8_append, utf8_append]
  exact h

/-- **A nonce with a statement behind it determines both**, the statement by its text. -/
theorem saltedMessage_eq_iff {s s' : Statement} {nonce nonce' : String} (hs : s.Made)
    (hs' : s'.Made) :
    s.saltedMessage nonce = s'.saltedMessage nonce' ↔ nonce = nonce' ∧ s.text = s'.text := by
  constructor
  · intro h
    exact hs.append_inj hs' (append_eq_of_saltedMessage_eq h)
  · rintro ⟨rfl, htext⟩
    rw [saltedMessage, saltedMessage, bytes, bytes, htext]

end Statement

namespace Content

/-- The statements of a content, where there are any. -/
def stated (c : Content) : List Statement :=
  match c.statements with
  | .ok ss => ss
  | .error _ => []

theorem stated_eq {c : Content} {ss : List Statement} (h : c.statements = .ok ss) :
    c.stated = ss := by
  rw [stated, h]

/-- The bare statements of a content. -/
def statementMessages (c : Content) : List Bytes := c.stated.map (·.bytes)

/-- The statements of a content behind their recorded nonces, those without a nonce left out. -/
def saltedMessages (h : Hasher) (nonces : NonceMap) (c : Content) : List Bytes :=
  c.stated.filterMap fun s => (nonces.get? (s.digest h)).map s.saltedMessage

/-- The statements of a content with the nonces that are drawn for them. -/
def drawn {σ : Type} (h : Hasher) (source : NonceSource σ) (c : Content) (state : σ) :
    List SaltedStatement :=
  (SaltedStatement.drawAll h source c.stated state).1

/-- The statements of a content behind the nonces that are drawn for them. -/
def drawnMessages {σ : Type} (h : Hasher) (source : NonceSource σ) (c : Content) (state : σ) :
    List Bytes :=
  (c.drawn h source state).map (·.message)

section Messages

variable {σ : Type} {h : Hasher} {source : NonceSource σ} {state : σ} {c : Content}
  {ss : List Statement}

theorem bytes_mem_statementMessages (hss : c.statements = .ok ss) {s : Statement} (hs : s ∈ ss) :
    s.bytes ∈ c.statementMessages := by
  rw [statementMessages, stated_eq hss]
  exact List.mem_map_of_mem hs

/-- Among bare statements without collisions, a digest determines the text of the statement. -/
theorem text_eq_of_digest_eq (hss : c.statements = .ok ss)
    (hclean : h.CollisionFree c.statementMessages) {s s' : Statement} (hs : s ∈ ss) (hs' : s' ∈ ss)
    (heq : s.digest h = s'.digest h) : s.text = s'.text :=
  Statement.text_eq_of_bytes_eq (hclean _ (bytes_mem_statementMessages hss hs) _
    (bytes_mem_statementMessages hss hs') heq)

theorem saltedMessage_mem_saltedMessages {nonces : NonceMap} (hss : c.statements = .ok ss)
    {s : Statement} (hs : s ∈ ss) {nonce : String}
    (hnonce : nonces.get? (s.digest h) = some nonce) :
    s.saltedMessage nonce ∈ c.saltedMessages h nonces := by
  rw [saltedMessages, stated_eq hss]
  exact List.mem_filterMap.2 ⟨s, hs, by rw [hnonce, Option.map_some]⟩

theorem map_statement_drawn (h : Hasher) (source : NonceSource σ) (state : σ)
    (hss : c.statements = .ok ss) :
    (c.drawn h source state).map (·.statement) = ss := by
  rw [drawn, stated_eq hss, SaltedStatement.map_statement_drawAll]

theorem statement_mem_of_mem_drawn (hss : c.statements = .ok ss) {d : SaltedStatement}
    (hd : d ∈ c.drawn h source state) : d.statement ∈ ss := by
  rw [← map_statement_drawn h source state hss]
  exact List.mem_map_of_mem hd

theorem exists_drawn_of_mem (h : Hasher) (source : NonceSource σ) (state : σ)
    (hss : c.statements = .ok ss) {s : Statement} (hs : s ∈ ss) :
    ∃ d ∈ c.drawn h source state, d.statement = s := by
  rw [← map_statement_drawn h source state hss] at hs
  exact List.mem_map.1 hs

theorem digest_eq_of_mem_drawn {d : SaltedStatement} (hd : d ∈ c.drawn h source state) :
    d.digest = d.statement.digest h := by
  rw [SaltedStatement.eq_of_mem_drawAll hd, SaltedStatement.of]

theorem salted_eq_of_mem_drawn {d : SaltedStatement} (hd : d ∈ c.drawn h source state) :
    d.salted = d.statement.salted h d.nonce := by
  rw [SaltedStatement.eq_of_mem_drawAll hd, SaltedStatement.of]

theorem message_mem_drawnMessages {d : SaltedStatement} (hd : d ∈ c.drawn h source state) :
    d.message ∈ c.drawnMessages h source state :=
  List.mem_map_of_mem hd

/-- **Among messages without collisions, a salted hash determines the nonce and the text of the
statement**, whichever contents the statements are of. -/
theorem salted_inj {c' : Content} {ss' : List Statement} {messages : List Bytes}
    (hclean : h.CollisionFree messages) (hss : c.statements = .ok ss)
    (hss' : c'.statements = .ok ss') {s s' : Statement} (hs : s ∈ ss) (hs' : s' ∈ ss')
    {nonce nonce' : String} (hm : s.saltedMessage nonce ∈ messages)
    (hm' : s'.saltedMessage nonce' ∈ messages) (heq : s.salted h nonce = s'.salted h nonce') :
    nonce = nonce' ∧ s.text = s'.text := by
  rw [Statement.salted_eq_hash, Statement.salted_eq_hash] at heq
  have hmessages := hclean _ hm _ hm' heq
  exact (Statement.saltedMessage_eq_iff (made_of_mem hss hs) (made_of_mem hss' hs')).1 hmessages

end Messages

end Content

/-! ### Leaves -/

namespace Credential

/-- The leaves of a credential, laid end to end: the salted hashes in ascending order, and the root
hashes of the evidence in the order given. -/
def leaves (c : Credential) : Bytes :=
  ((Digest.sort c.hashes ++ c.evidenceRoots).map (·.bytes)).flatten

theorem computedRoot_eq_hash (h : Hasher) (c : Credential) :
    c.computedRoot h = h.hash c.leaves := rfl

theorem leaves_inj {h : Hasher} {c c' : Credential} (hclean : h.CollisionFree [c.leaves, c'.leaves])
    (heq : c.computedRoot h = c'.computedRoot h) : c.leaves = c'.leaves := by
  rw [computedRoot_eq_hash, computedRoot_eq_hash] at heq
  exact hclean _ (by simp) _ (by simp) heq

theorem leaves_eq_of_ascending {c : Credential} (hascending : c.hashes.Pairwise (· ≤ ·)) :
    c.leaves = ((c.hashes ++ c.evidenceRoots).map (·.bytes)).flatten := by
  rw [leaves, Digest.sort_eq_self hascending]

/-- Equal leaves are the same hashes and roots, if the hashes are listed in ascending order. -/
theorem leaves_eq_iff {c c' : Credential} (hascending : c.hashes.Pairwise (· ≤ ·))
    (hascending' : c'.hashes.Pairwise (· ≤ ·)) :
    c.leaves = c'.leaves ↔ c.hashes ++ c.evidenceRoots = c'.hashes ++ c'.evidenceRoots := by
  rw [leaves_eq_of_ascending hascending, leaves_eq_of_ascending hascending']
  exact ⟨Digest.flatten_bytes_inj, fun heq => by rw [heq]⟩

end Credential

end SelectiveDisclosure
