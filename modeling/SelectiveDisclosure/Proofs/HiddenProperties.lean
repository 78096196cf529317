import SelectiveDisclosure.Proofs.Presenting

/-!
# What is hidden leaves no trace

Two credentials may have different values of what a selection hides, or different names for it, and
different nonces for it. As long as all that is shown of them is the same, so is what is disclosed
of them, and so is every presentation that they are part of: nobody can tell from it which of the
two it was made from. If they cannot be disclosed, then for the same reason.

What has to be the same is what stands in the clear on the copy: the frame of the credential, the
properties that are shown, and the nonces under the digests of the statements that are left. That is
also all that can be the same, since each of these can be read off the copy.

So a nonce under any other digest is of no consequence. Whoever sees the presentation would need it
to try out values against the salted hash.

## Main definitions

* `Content.shown` — what a selection leaves of a content.
* `Credential.SameShown` — two credentials differ in nothing that a selection shows.

## Main results

* `Credential.SameShown.disclose_eq` — then the same is disclosed of both.
* `Credential.disclose_eq_ok_iff_sameShown` — and only then.
* `Credential.SameShown.of_nonces` — nonces of no statement that is left make no difference.
* `Agent.hidden_leaves_no_trace` — the same of presentations.
-/

namespace SelectiveDisclosure

/-! ### What a copy is made from -/

namespace Content

variable {h : Hasher} {s : Selection} {c c' : Content}

/-- What a selection leaves of a content. -/
def shown (s : Selection) (c : Content) : Content := c.without (s.excluded c)

theorem get?_shown (s : Selection) (c : Content) (name : String) :
    (c.shown s).get? name = if s.shows name then c.get? name else none :=
  get?_without_excluded s c name

/-- The names that are left out depend on the content, but what is left does not depend on them. -/
theorem shown_congr (hschema : c.schema = c'.schema) (hissuer : c.issuer = c'.issuer)
    (hholder : c.holder = c'.holder)
    (hproperties : ∀ name, s.shows name = true → c.get? name = c'.get? name) :
    c.shown s = c'.shown s := by
  have hshown : (c.shown s).properties = (c'.shown s).properties := by
    refine OrderedMap.ext_get? fun name => ?_
    change (c.shown s).get? name = (c'.shown s).get? name
    rw [get?_shown, get?_shown]
    split
    · next hname => exact hproperties name hname
    · rfl
  simp only [shown, without, Content.mk.injEq] at hshown ⊢
  exact ⟨hschema, hissuer, hholder, hshown⟩

/-- Pruning looks at no nonce but those of the statements that are there. -/
theorem prune_congr {nonces nonces' : NonceMap}
    (hagree : ∀ statement ∈ c.stated,
      nonces.get? (statement.digest h) = nonces'.get? (statement.digest h)) :
    c.prune h nonces = c.prune h nonces' := by
  cases hss : c.statements with
  | error fault => rw [prune, prune, hss]; rfl
  | ok ss =>
    rw [stated_eq hss] at hagree
    have hrestrict : nonces.restrict (ss.map (·.digest h)) =
        nonces'.restrict (ss.map (·.digest h)) :=
      OrderedMap.restrict_congr (List.forall_mem_map.2 hagree)
    rw [prune_eq_ok_iff.2 ⟨ss, hss, hrestrict.symm⟩, prune_eq_ok_iff.2 ⟨ss, hss, rfl⟩]

end Content

/-! ### Credentials that cannot be told apart -/

namespace Credential

variable {h : Hasher} {s : Selection} {c c' copy : Credential}

/-- Whether two credentials differ in nothing that a selection shows. They may differ in the names
and in the values of the properties that are hidden, and in the nonces under all digests but those
of the statements that are left. -/
structure SameShown (h : Hasher) (s : Selection) (c c' : Credential) : Prop where
  schema : c.content.schema = c'.content.schema
  issuer : c.content.issuer = c'.content.issuer
  holder : c.holder = c'.holder
  properties : ∀ name, s.shows name = true → c.content.get? name = c'.content.get? name
  nonces : ∀ statement ∈ (c.content.shown s).stated,
    c.nonces.get? (statement.digest h) = c'.nonces.get? (statement.digest h)
  hashes : c.hashes = c'.hashes
  evidence : c.evidence = c'.evidence
  root : c.root = c'.root
  identifier : c.identifier = c'.identifier

theorem SameShown.refl (h : Hasher) (s : Selection) (c : Credential) : SameShown h s c c :=
  ⟨rfl, rfl, rfl, fun _ _ => rfl, fun _ _ => rfl, rfl, rfl, rfl, rfl⟩

/-- Nonces make no difference but under the digests of the statements that are left. -/
theorem SameShown.of_nonces {nonces : NonceMap} (hagree : ∀ statement ∈ (c.content.shown s).stated,
      c.nonces.get? (statement.digest h) = nonces.get? (statement.digest h)) :
    SameShown h s c { c with nonces } :=
  ⟨rfl, rfl, rfl, fun _ _ => rfl, hagree, rfl, rfl, rfl, rfl⟩

theorem disclose_eq_map (h : Hasher) (s : Selection) (c : Credential) :
    c.disclose h s = ((c.content.shown s).prune h c.nonces).map fun nonces =>
      ⟨c.content.shown s, c.hashes, nonces, c.evidence, c.root, c.identifier⟩ := by
  rw [disclose, remove, Content.shown]
  cases (c.content.without (s.excluded c.content)).prune h c.nonces <;> rfl

theorem content_of_disclose (hcopy : c.disclose h s = .ok copy) :
    copy.content = c.content.shown s := by
  obtain ⟨ss, -, rfl⟩ := remove_eq_ok_iff.1 hcopy
  rfl

/-- **The same is disclosed of credentials that differ in nothing that is shown**, or neither is
disclosed, for the same reason. -/
theorem SameShown.disclose_eq (hsame : SameShown h s c c') : c.disclose h s = c'.disclose h s := by
  have hcontent : c.content.shown s = c'.content.shown s :=
    Content.shown_congr hsame.schema hsame.issuer hsame.holder hsame.properties
  have hpruned : (c.content.shown s).prune h c.nonces = (c'.content.shown s).prune h c'.nonces :=
    (Content.prune_congr hsame.nonces).trans (by rw [hcontent])
  rw [disclose_eq_map, disclose_eq_map, hpruned, hcontent, hsame.hashes, hsame.evidence,
    hsame.root, hsame.identifier]

/-- A copy that can be made of one credential can be made of just those that differ from it in
nothing that is shown. -/
theorem disclose_eq_ok_iff_sameShown (hcopy : c.disclose h s = .ok copy) :
    c'.disclose h s = .ok copy ↔ SameShown h s c c' := by
  refine ⟨fun hcopy' => ?_, fun hsame => hsame.disclose_eq ▸ hcopy⟩
  have hshows := shows_of_disclose hcopy
  have hshows' := shows_of_disclose hcopy'
  obtain ⟨ss, hss, hnonces⟩ := hshows.nonces
  obtain ⟨ss', hss', hnonces'⟩ := hshows'.nonces
  -- both have the statements of the copy, so each field is what the copy has there
  obtain rfl := Except.ok.inj (hss.symm.trans hss')
  refine ⟨hshows.schema.symm.trans hshows'.schema, hshows.issuer.symm.trans hshows'.issuer,
    hshows.holder.symm.trans hshows'.holder, fun name hname => ?_, fun statement hmem => ?_,
    hshows.hashes.symm.trans hshows'.hashes, hshows.evidence.symm.trans hshows'.evidence,
    hshows.root.symm.trans hshows'.root, hshows.identifier.symm.trans hshows'.identifier⟩
  · rw [Selection.shows_iff] at hname
    refine Option.ext fun value => ?_
    rw [← and_iff_left (a := c.content.get? name = some value) hname, ← hshows.properties,
      hshows'.properties, and_iff_left hname]
  · rw [← content_of_disclose hcopy, Content.stated_eq hss] at hmem
    have hleft : ∃ st ∈ ss, st.digest h = statement.digest h := ⟨statement, hmem, rfl⟩
    refine Option.ext fun nonce => ?_
    rw [← and_iff_left (a := c.nonces.get? _ = some nonce) hleft, ← hnonces, hnonces',
      and_iff_left hleft]

/-- A copy has no nonce under a digest that is of none of the statements that are left. -/
theorem get?_nonces_of_disclose (hcopy : c.disclose h s = .ok copy) {digest : Digest}
    (hdigest : ∀ statement ∈ (c.content.shown s).stated, statement.digest h ≠ digest) :
    copy.nonces.get? digest = none := by
  obtain ⟨ss, hss, hnonces⟩ := (shows_of_disclose hcopy).nonces
  rw [← content_of_disclose hcopy, Content.stated_eq hss] at hdigest
  refine Option.eq_none_iff_forall_ne_some.2 fun nonce hnonce => ?_
  obtain ⟨-, statement, hmem, heq⟩ := (hnonces digest nonce).1 hnonce
  exact hdigest statement hmem heq

end Credential

/-! ### Presentations that cannot be told apart -/

section Lists

variable {α β : Type} {i : Nat} {a : α}

/-- What stands at a place of a list is related to what stands there in the other. -/
theorem exists_getElem?_of_forall₂ {R : α → β → Prop} {as : List α} {bs : List β}
    (hR : List.Forall₂ R as bs) (ha : as[i]? = some a) : ∃ b, bs[i]? = some b ∧ R a b := by
  induction hR generalizing i with
  | nil => simp at ha
  | cons hfirst _ ih =>
    cases i with
    | zero => exact ⟨_, rfl, Option.some.inj ha ▸ hfirst⟩
    | succ i => exact ih ha

/-- An element of a list may be changed to one that it is related to. -/
theorem forall₂_set {R : α → α → Prop} (hrefl : ∀ a, R a a) {as : List α} {b : α}
    (ha : as[i]? = some a) (hab : R a b) : List.Forall₂ R as (as.set i b) := by
  induction as generalizing i with
  | nil => simp at ha
  | cons first rest ih =>
    cases i with
    | zero =>
      obtain rfl := Option.some.inj ha
      exact .cons hab (List.forall₂_same.2 fun a _ => hrefl a)
    | succ i => exact .cons (hrefl first) (ih ha)

end Lists

namespace Agent

variable {σ : Type} {a : Agent σ} {request : PresentationRequest} {cs cs' : List Credential}

/-- What is presented of credentials depends on nothing that is hidden. -/
theorem present_congr
    (hsame : List.Forall₂ (Credential.SameShown a.hasher request.selection) cs cs') :
    a.present cs request = a.present cs' request := by
  have hdisclosed : cs.mapM (·.disclose a.hasher request.selection) =
      cs'.mapM (·.disclose a.hasher request.selection) := by
    induction hsame with
    | nil => rfl
    | cons hfirst _ ih => rw [List.mapM_cons, List.mapM_cons, hfirst.disclose_eq, ih]
  rw [present, present, hdisclosed]

/-- **Hidden properties leave no trace but their salted hashes.** Of two credentials that differ in
nothing that is shown the same is disclosed, or neither for the same reason; a copy can be one of
both only then. The same is presented of lists of such credentials. In particular, if a digest is of
none of the statements that are left, then the copy has no nonce under it, and with any other nonce
under it, or none, the presentation would have been the same. -/
theorem hidden_leaves_no_trace (a : Agent σ) (request : PresentationRequest) :
    (∀ c c', Credential.SameShown a.hasher request.selection c c' →
        c.disclose a.hasher request.selection = c'.disclose a.hasher request.selection) ∧
      (∀ c c' copy, c.disclose a.hasher request.selection = .ok copy →
        (c'.disclose a.hasher request.selection = .ok copy ↔
          Credential.SameShown a.hasher request.selection c c')) ∧
      (∀ cs cs', List.Forall₂ (Credential.SameShown a.hasher request.selection) cs cs' →
        a.present cs request = a.present cs' request) ∧
      ∀ cs p, a.present cs request = .ok p → ∀ (i : Nat) c, cs[i]? = some c → ∀ digest,
        (∀ statement ∈ (c.content.shown request.selection).stated,
          statement.digest a.hasher ≠ digest) →
            (∃ copy, p.credentials[i]? = some copy ∧ copy.nonces.get? digest = none) ∧
              ∀ nonces : NonceMap, (∀ other, other ≠ digest →
                  c.nonces.get? other = nonces.get? other) →
                a.present (cs.set i { c with nonces }) request = .ok p := by
  refine ⟨fun _ _ hsame => hsame.disclose_eq,
    fun _ _ _ hcopy => Credential.disclose_eq_ok_iff_sameShown hcopy,
    fun _ _ hsame => present_congr hsame, ?_⟩
  intro cs p hp i c hc digest hdigest
  constructor
  · obtain ⟨copy, hplace, hcopy⟩ := exists_getElem?_of_forall₂ (present_eq_ok_iff.1 hp).1 hc
    exact ⟨copy, hplace, Credential.get?_nonces_of_disclose hcopy hdigest⟩
  · intro nonces hagree
    have hsame : Credential.SameShown a.hasher request.selection c { c with nonces } :=
      .of_nonces fun statement hmem => hagree _ (hdigest statement hmem)
    rw [← present_congr (forall₂_set (Credential.SameShown.refl _ _) hc hsame), hp]

end Agent

namespace Sample

/-- The name and the age of a person, issued by the agent. -/
def passport : Credential :=
  .issued hasher (.counting "n") (person.setProperty "name" (.ofJson (.string "Alice"))) [] 0

/-- The digest under which the nonce of the age is kept. -/
def ageDigest : Digest :=
  Statement.digest agent.hasher
    ⟨"age", Statement.textOf (predicate "person" "age") (.number (.whole 29))⟩

/-- The same person a year later, with the nonce of the age lost. -/
def agedPassport : Credential :=
  { passport with
    content := passport.content.setProperty "age" (.ofJson (.number (.whole 30)))
    nonces := passport.nonces.erase ageDigest }

/-- The age is not shown. -/
def ageless : PresentationRequest := ⟨⟨none, ["age"]⟩, none, none⟩

theorem verified_passport : (agent.verify passport).verified = true :=
  Credential.verified_issued rfl (by decide) (by decide) (by decide) (by simp) (by simp)

theorem exists_present_passport : ∃ p, agent.present [passport] ageless = .ok p := by
  obtain ⟨p, hp, -⟩ : ∃ p, agent.present [passport] ageless = .ok p ∧
      p.HeldBy hasher .standard (some "alice") ∧ p.challenge = none ∧ p.SignedWith none :=
    Agent.exists_present_eq_ok (List.forall_mem_singleton.2 verified_passport) nofun
      (List.cons_ne_nil _ _) (List.forall_mem_singleton.2 rfl)
  exact ⟨p, hp⟩

theorem ageDigest_hidden :
    ∀ statement ∈ (passport.content.shown ageless.selection).stated,
      statement.digest agent.hasher ≠ ageDigest := by
  decide

end Sample

namespace Agent

/-- Without their age, the passport of a person is presented as it would be a year later, and with
any other nonce for the age. -/
theorem hidden_leaves_no_trace_of_age :
    Sample.passport.content.get? "age" ≠ Sample.agedPassport.content.get? "age" ∧
      Sample.passport.nonces.get? Sample.ageDigest = some "n1" ∧
        ∃ p, Sample.agent.present [Sample.passport] Sample.ageless = .ok p ∧
          Sample.agent.present [Sample.agedPassport] Sample.ageless = .ok p ∧
            (∃ copy, p.credentials[0]? = some copy ∧ copy.nonces.get? Sample.ageDigest = none) ∧
              Sample.agent.present [{ Sample.passport with
                nonces := Sample.passport.nonces.insert Sample.ageDigest "n7" }]
                  Sample.ageless = .ok p := by
  obtain ⟨-, -, hpresented, hhidden⟩ := hidden_leaves_no_trace Sample.agent Sample.ageless
  obtain ⟨p, hp⟩ := Sample.exists_present_passport
  obtain ⟨hgone, hreplaced⟩ :=
    hhidden [Sample.passport] p hp 0 Sample.passport rfl _ Sample.ageDigest_hidden
  have hsame : Credential.SameShown Sample.agent.hasher Sample.ageless.selection Sample.passport
      Sample.agedPassport := by
    refine ⟨rfl, rfl, rfl, fun name hname => ?_, fun statement hmem => ?_, rfl, rfl, rfl, rfl⟩
    · have hname : name ≠ "age" := by
        rintro rfl
        exact absurd hname (by decide)
      rw [Sample.agedPassport, Content.get?_setProperty, if_neg hname]
    · rw [Sample.agedPassport, OrderedMap.get?_erase,
        if_neg (Sample.ageDigest_hidden statement hmem)]
  refine ⟨by decide, by decide, p, hp, ?_, hgone, hreplaced _ fun other hother => ?_⟩
  · rw [← hpresented _ _ (.cons hsame .nil), hp]
  · rw [OrderedMap.get?_insert, if_neg hother]

end Agent

end SelectiveDisclosure
