import Mathlib.Data.List.Forall2
import SelectiveDisclosure.Proofs.Issuance

/-!
# A copy that shows less is as good as the credential

A holder may leave out what they like of a credential that verifies, and what is left verifies. It
makes no difference where the credential came from: it need not be freshly issued, its nonce map may
have entries for statements that are long gone, and digests of different statements may be the same.

Two things have to be seen. Leaving out properties leaves the frame of a credential in order, since
the only part of it that changes is the nonce map, which becomes smaller. And no statement that is
left loses its nonce, since entries are taken out by digest, and a digest stays as long as any
statement that has it.

A presentation is accepted for its credentials, their holder and their root hashes. So copies may
take the place of credentials in it without a new signature.

## Main definitions

* `OrderedMap.restrict` — the entries under some keys.
* `Credential.Shows` — one credential is what a selection leaves of another.
* `Credential.CopyOf` — one credential is another or a copy of it that shows less.
* `Presentation.withCredentials` — other credentials in the place of those presented.

## Main results

* `Content.prune_eq_ok_iff` — the nonces that stay.
* `Credential.remove_eq_ok_iff` — what removing properties gives.
* `Credential.shows_of_disclose` — what disclosing by a selection gives.
* `Credential.exists_verified_disclose` — it succeeds and verifies, if the credential does.
* `Presentation.verified_withCredentials` — copies may take the place of credentials.
* `Credential.disclosure_preserves_verification` — both together.
-/

namespace SelectiveDisclosure

/-! ### The properties that stay -/

namespace Selection

/-- A property is shown if it is listed, where there is a list, and it is not hidden. -/
theorem shows_iff {s : Selection} {name : String} :
    s.shows name = true ↔ (∀ names, s.only = some names → name ∈ names) ∧ name ∉ s.hidden := by
  rw [shows]
  cases s.only with
  | none => simp
  | some names => simp

/-- Of the properties of a content, those are left out that are not shown. -/
theorem mem_excluded_iff_of_mem {s : Selection} {c : Content} {name : String}
    (hname : name ∈ c.names) : name ∈ s.excluded c ↔ s.shows name = false := by
  rw [mem_excluded_iff, unlisted, shows]
  cases s.only with
  | none => simp
  | some names =>
    by_cases hlisted : name ∈ names
    · simp [hlisted]
    · simp [hname, hlisted]

end Selection

namespace Content

theorem get?_without_excluded (s : Selection) (c : Content) (name : String) :
    (c.without (s.excluded c)).get? name = if s.shows name then c.get? name else none := by
  rw [get?_without]
  cases hvalue : c.get? name with
  | none => simp
  | some value =>
    have hname : name ∈ c.names :=
      OrderedMap.mem_keys_iff.2 (Option.isSome_iff_exists.2 ⟨value, hvalue⟩)
    simp only [Selection.mem_excluded_iff_of_mem hname]
    cases s.shows name <;> simp

end Content

/-! ### The nonces that stay -/

namespace OrderedMap

variable {κ ν : Type} [LT κ] [DecidableEq κ]

/-- The entries under some keys. -/
def restrict (keys : List κ) (m : OrderedMap κ ν) : OrderedMap κ ν :=
  m.filter fun k _ => keys.contains k

theorem size_restrict_le (keys : List κ) (m : OrderedMap κ ν) :
    (m.restrict keys).size ≤ m.size :=
  List.length_filter_le _ _

theorem mem_values_of_mem_restrict {keys : List κ} {m : OrderedMap κ ν} {v : ν}
    (h : v ∈ (m.restrict keys).values) : v ∈ m.values :=
  List.map_subset _ List.filter_sublist.subset h

variable [LE κ] [Std.LawfulOrderLT κ]

theorem get?_restrict (keys : List κ) (m : OrderedMap κ ν) (k : κ) :
    (m.restrict keys).get? k = if k ∈ keys then m.get? k else none := by
  rw [restrict, get?_filter]
  by_cases hk : k ∈ keys <;> cases m.get? k <;> simp [hk, Option.filter]

theorem restrict_congr [Std.IsLinearOrder κ] {keys : List κ} {m m' : OrderedMap κ ν}
    (hagree : ∀ k ∈ keys, m.get? k = m'.get? k) : m.restrict keys = m'.restrict keys := by
  refine ext_get? fun k => ?_
  rw [get?_restrict, get?_restrict]
  by_cases hk : k ∈ keys
  · rw [if_pos hk, if_pos hk, hagree k hk]
  · rw [if_neg hk, if_neg hk]

end OrderedMap

/-- A statement stays covered as long as the entry under its digest stays. -/
theorem Statement.Covered.restrict {h : Hasher} {nonces : NonceMap} {hashes : List Digest}
    {s : Statement} (hs : s.Covered h nonces hashes) {digests : List Digest}
    (hdigest : s.digest h ∈ digests) : s.Covered h (nonces.restrict digests) hashes := by
  obtain ⟨nonce, hnonce, hmem⟩ := hs
  refine ⟨nonce, ?_, hmem⟩
  rw [OrderedMap.get?_restrict, if_pos hdigest, hnonce]

/-- Pruning keeps the entries under the digests of the statements that are there. -/
theorem Content.prune_eq_ok_iff {h : Hasher} {nonces pruned : NonceMap} {c : Content} :
    c.prune h nonces = .ok pruned ↔
      ∃ ss, c.statements = .ok ss ∧ pruned = nonces.restrict (ss.map (·.digest h)) := by
  simp only [prune, bind_eq_ok_iff, pure_eq_ok_iff, eq_comm (b := pruned)]
  rfl

/-! ### Copies -/

namespace Credential

variable {h : Hasher} {policy : Policy} {c copy : Credential}

/-- What removing properties gives. -/
theorem remove_eq_ok_iff {names : List String} :
    c.remove h names = .ok copy ↔
      ∃ ss, (c.content.without names).statements = .ok ss ∧
        copy = { c with
          content := c.content.without names
          nonces := c.nonces.restrict (ss.map (·.digest h)) } := by
  simp only [remove, bind_eq_ok_iff, pure_eq_ok_iff, Content.prune_eq_ok_iff]
  constructor
  · rintro ⟨_, ⟨ss, hss, rfl⟩, rfl⟩
    exact ⟨ss, hss, rfl⟩
  · rintro ⟨ss, hss, rfl⟩
    exact ⟨_, ⟨ss, hss, rfl⟩, rfl⟩

/-- The frame of a credential stays in order when nonces are taken out of it. -/
theorem SoundFrame.restrict (hc : SoundFrame h policy c) (digests : List Digest) :
    SoundFrame h policy { c with nonces := c.nonces.restrict digests } := by
  obtain ⟨hhashes, hsize, hnonces, hrest⟩ := hc
  refine ⟨hhashes, Nat.le_trans (OrderedMap.size_restrict_le _ _) hsize, ?_, hrest⟩
  intro nonce hmem
  exact hnonces nonce (OrderedMap.mem_values_of_mem_restrict hmem)

/-- Properties can be removed from a credential that verifies, and what is left verifies. -/
theorem exists_verified_remove (hc : (c.verify h policy).verified = true) (names : List String) :
    ∃ copy, c.remove h names = .ok copy ∧ (copy.verify h policy).verified = true := by
  obtain ⟨hframe, ss, hss, hcovered⟩ := verified_iff_soundFrame.1 hc
  obtain ⟨ss', hss', hsub⟩ := Content.exists_statements_without hss names
  refine ⟨_, remove_eq_ok_iff.2 ⟨ss', hss', rfl⟩, verified_iff_soundFrame.2 ⟨?_, ss', hss', ?_⟩⟩
  · exact soundFrame_withContent_iff.2 (hframe.restrict (ss'.map (·.digest h)))
  · intro s hs
    exact (hcovered s (hsub hs)).restrict (List.mem_map_of_mem hs)

/-- Whether a credential is what a selection leaves of another: the properties that are listed,
where there is a list, and not hidden, with the values that they had; the nonces of the statements
that are left; and everything else. -/
structure Shows (h : Hasher) (s : Selection) (c copy : Credential) : Prop where
  schema : copy.content.schema = c.content.schema
  issuer : copy.content.issuer = c.content.issuer
  holder : copy.holder = c.holder
  properties : ∀ name value, copy.content.get? name = some value ↔
    c.content.get? name = some value ∧
      (∀ names, s.only = some names → name ∈ names) ∧ name ∉ s.hidden
  nonces : ∃ ss, copy.content.statements = .ok ss ∧ ∀ digest nonce,
    copy.nonces.get? digest = some nonce ↔
      c.nonces.get? digest = some nonce ∧ ∃ statement ∈ ss, statement.digest h = digest
  hashes : copy.hashes = c.hashes
  evidence : copy.evidence = c.evidence
  root : copy.root = c.root
  identifier : copy.identifier = c.identifier

/-- What disclosing by a selection gives, wherever the credential came from. -/
theorem shows_of_disclose {s : Selection} (hcopy : c.disclose h s = .ok copy) :
    c.Shows h s copy := by
  obtain ⟨ss, hss, rfl⟩ := remove_eq_ok_iff.1 hcopy
  refine ⟨rfl, rfl, rfl, ?_, ⟨ss, hss, ?_⟩, rfl, rfl, rfl, rfl⟩
  · intro name value
    rw [Content.get?_without_excluded, ← Selection.shows_iff]
    cases s.shows name <;> simp
  · intro digest nonce
    rw [OrderedMap.get?_restrict, ← List.mem_map]
    by_cases hdigest : digest ∈ ss.map (·.digest h) <;> simp [hdigest]

/-- **What is disclosed of a credential that verifies, verifies**, whatever is selected. -/
theorem exists_verified_disclose (hc : (c.verify h policy).verified = true) (s : Selection) :
    ∃ copy, c.disclose h s = .ok copy ∧ (copy.verify h policy).verified = true :=
  exists_verified_remove hc (s.excluded c.content)

/-- Whether a credential is another or a copy of it that shows less. -/
def CopyOf (h : Hasher) (c copy : Credential) : Prop := copy = c ∨ ∃ s, c.disclose h s = .ok copy

theorem CopyOf.holder_eq (hcopy : CopyOf h c copy) : copy.holder = c.holder := by
  rcases hcopy with rfl | ⟨s, hs⟩
  · rfl
  · exact (shows_of_disclose hs).holder

theorem CopyOf.root_eq (hcopy : CopyOf h c copy) : copy.root = c.root := by
  rcases hcopy with rfl | ⟨s, hs⟩
  · rfl
  · exact (shows_of_disclose hs).root

theorem CopyOf.verified (hcopy : CopyOf h c copy) (hc : (c.verify h policy).verified = true) :
    (copy.verify h policy).verified = true := by
  rcases hcopy with rfl | ⟨s, hs⟩
  · exact hc
  · obtain ⟨copy', hs', hverified⟩ := exists_verified_disclose hc s
    exact Except.ok.inj (hs'.symm.trans hs) ▸ hverified

end Credential

/-! ### Copies in presentations -/

namespace Presentation

variable {h : Hasher} {check : SignatureCheck} {expected : Option String} {policy : Policy}
  {p : Presentation}

/-- The presentation with other credentials, and with its signature and challenge as they were. -/
def withCredentials (p : Presentation) (credentials : List Credential) : Presentation :=
  { p with credentials }

theorem oneHolder_congr {cs cs' : List Credential}
    (hholders : cs'.map (·.holder) = cs.map (·.holder)) : oneHolder cs' = oneHolder cs := by
  cases cs with
  | nil => rw [List.map_eq_nil_iff.1 hholders]
  | cons first rest =>
    obtain ⟨first', rest', rfl, hfirst, hrest⟩ := List.map_eq_cons_iff.1 hholders
    have hall : ∀ cs : List Credential, (cs.all fun c => c.holder = first.holder) =
        (cs.map (·.holder)).all fun holder => holder = first.holder := by
      simp [List.all_map, Function.comp_def]
    rw [oneHolder, oneHolder, hfirst, hall, hall, hrest]

theorem holder_withCredentials {cs : List Credential}
    (hholders : cs.map (·.holder) = p.credentials.map (·.holder)) :
    (p.withCredentials cs).holder = p.holder := by
  have hhead (cs : List Credential) :
      cs.head?.bind (·.holder) = (cs.map (·.holder)).head?.join := by
    cases cs <;> rfl
  rw [holder, holder, withCredentials, hhead, hhead, hholders]

/-- Nothing about a signature changes with credentials that have the same holders and roots. -/
theorem signatureFindings_withCredentials {cs : List Credential}
    (hholders : cs.map (·.holder) = p.credentials.map (·.holder))
    (hroots : cs.map (·.root) = p.credentials.map (·.root)) :
    (p.withCredentials cs).signatureFindings check expected =
      p.signatureFindings check expected := by
  have hmessage : (p.withCredentials cs).message = p.message := by
    rw [message, message, withCredentials, hroots]
  have hsignature : (p.withCredentials cs).signature = p.signature := rfl
  simp only [signatureFindings, signerFinding?, hsignature, hmessage,
    holder_withCredentials hholders]

/-- Copies have the holders and root hashes of the credentials that they are copies of. -/
theorem map_eq_of_copies {α : Type} {f : Credential → α} {cs copies : List Credential}
    (hf : ∀ c copy, Credential.CopyOf h c copy → f copy = f c)
    (hcopies : List.Forall₂ (Credential.CopyOf h) cs copies) : copies.map f = cs.map f := by
  induction hcopies with
  | nil => rfl
  | cons hcopy _ ih => rw [List.map_cons, List.map_cons, hf _ _ hcopy, ih]

theorem exists_of_mem_copies {cs copies : List Credential}
    (hcopies : List.Forall₂ (Credential.CopyOf h) cs copies) {copy : Credential}
    (hmem : copy ∈ copies) : ∃ c ∈ cs, Credential.CopyOf h c copy := by
  induction hcopies with
  | nil => simp at hmem
  | cons hcopy _ ih =>
    rcases List.mem_cons.1 hmem with rfl | hmem
    · exact ⟨_, .head _, hcopy⟩
    · obtain ⟨c, hc, hcopy'⟩ := ih hmem
      exact ⟨c, .tail _ hc, hcopy'⟩

/-- **Copies may take the place of the credentials of an accepted presentation.** -/
theorem verified_withCredentials {copies : List Credential}
    (hp : (p.verify h check expected policy).verified = true)
    (hcopies : List.Forall₂ (Credential.CopyOf h) p.credentials copies) :
    ((p.withCredentials copies).verify h check expected policy).verified = true := by
  have hholders := map_eq_of_copies (fun _ _ hcopy => hcopy.holder_eq) hcopies
  have hroots := map_eq_of_copies (fun _ _ hcopy => hcopy.root_eq) hcopies
  obtain ⟨hnonempty, hone, hverified, hchallenge, hsignature⟩ := verified_iff.1 hp
  refine verified_iff.2 ⟨?_, (oneHolder_congr hholders).trans hone, ?_, hchallenge, ?_⟩
  · intro hempty
    exact hnonempty (List.map_eq_nil_iff.1 (hroots.symm.trans (congrArg (List.map _) hempty)))
  · intro copy hmem
    obtain ⟨c, hc, hcopy⟩ := exists_of_mem_copies hcopies hmem
    exact hcopy.verified (hverified c hc)
  · rw [signatureFindings_withCredentials hholders hroots, hsignature]

end Presentation

namespace Credential

/-- **Selective disclosure preserves verification.** Of a credential that verifies, any selection
can be disclosed; the copy shows just what is selected, keeps just the nonces that it needs and
verifies under the same policy. A presentation that is accepted still is with such copies in the
place of any of its credentials. -/
theorem disclosure_preserves_verification (h : Hasher) (policy : Policy) :
    (∀ c : Credential, (c.verify h policy).verified = true → ∀ s : Selection,
        ∃ copy, c.disclose h s = .ok copy ∧ c.Shows h s copy ∧
          (copy.verify h policy).verified = true) ∧
      ∀ (check : SignatureCheck) (expected : Option String) (p : Presentation)
        (copies : List Credential), (p.verify h check expected policy).verified = true →
          List.Forall₂ (CopyOf h) p.credentials copies →
            ((p.withCredentials copies).verify h check expected policy).verified = true := by
  constructor
  · intro c hc s
    obtain ⟨copy, hcopy, hverified⟩ := exists_verified_disclose hc s
    exact ⟨copy, hcopy, shows_of_disclose hcopy, hverified⟩
  · intro check expected p copies hp hcopies
    exact Presentation.verified_withCredentials hp hcopies

end Credential

namespace Sample

/-- The person whose age is claimed, with a key. -/
def alice : Party := ⟨"alice", (party 0).pair⟩

/-- The certificate of the person, presented signed for a challenge. -/
def pass : Presentation :=
  ⟨[certificate], some ⟨alice.keyUri,
    alice.pair.sign (Presentation.messageOver [certificate.root] (some "today"))⟩, some "today"⟩

theorem verified_pass :
    (pass.verify .blake2b alice.keys.signatureCheck (some "today") .standard).verified = true := by
  have hascending : ((person.drawn .blake2b .uuids 0).map (·.salted)).Pairwise (· ≤ ·) := by
    decide +kernel
  refine Presentation.verified_iff.2 ⟨by simp [pass], rfl, ?_, .inr rfl,
    (Presentation.signatureFindings_eq_nil_iff rfl).2 ⟨?_, eq_ok_of_isOk ?_⟩⟩
  · exact List.forall_mem_singleton.2 verified_certificate
  · intro holder hholder
    rw [← Option.some.inj hholder]
    decide
  · rw [pass, Presentation.message, List.map_singleton, certificate,
      Credential.root_issued hascending]
    decide +kernel

end Sample

namespace Credential

/-- The person leaves out their age, and a verifier who accepted the pass accepts it without. -/
theorem disclosure_of_pass :
    (Sample.certificate.verify .blake2b .standard).verified = true ∧
      (Sample.pass.verify .blake2b Sample.alice.keys.signatureCheck (some "today")
        .standard).verified = true ∧
      ∃ copy, Sample.certificate.disclose .blake2b ⟨some ["age", "name"], ["age", "age"]⟩ =
          .ok copy ∧
        copy.content.get? "age" = none ∧ copy.holder = some "alice" ∧
          (copy.verify .blake2b .standard).verified = true ∧
            ((Sample.pass.withCredentials [copy]).verify .blake2b
              Sample.alice.keys.signatureCheck (some "today") .standard).verified = true := by
  obtain ⟨hcredential, hpresentation⟩ := disclosure_preserves_verification .blake2b .standard
  obtain ⟨copy, hcopy, hshows, hverified⟩ :=
    hcredential Sample.certificate Sample.verified_certificate
      ⟨some ["age", "name"], ["age", "age"]⟩
  refine ⟨Sample.verified_certificate, Sample.verified_pass, copy, hcopy, ?_, hshows.holder,
    hverified, ?_⟩
  · refine Option.eq_none_iff_forall_ne_some.2 fun value hvalue => ?_
    exact absurd ((hshows.properties "age" value).1 hvalue).2.2 (by decide)
  · exact hpresentation _ _ Sample.pass [copy] Sample.verified_pass
      (.cons (.inr ⟨_, hcopy⟩) .nil)

end Credential

end SelectiveDisclosure
