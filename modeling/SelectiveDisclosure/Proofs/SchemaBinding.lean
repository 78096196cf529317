import SelectiveDisclosure.Proofs.DisclosureSoundness
import SelectiveDisclosure.Proofs.Predicates

/-!
# What binds a property to its schema

A property is committed to under its predicate, and schema and name are not committed to apart. So
whoever holds a credential can show it with another content exactly if this says no more than what
was issued, and that leaves them free to choose where the schema ends. They can let the schema end
later or earlier than it did, as long as there is a separator at that place, and take what is
between out of the names of the properties or into them.

Every property has to be cut at the same place. Where a content has no separators of its own, there
is one place to cut.

## Main results

* `Credential.saysNoMore_of_verified` — what is shown with the hashes of what was issued says no
  more than this.
* `Credential.verified_withContent_issued_iff` — which contents what was issued can be shown with.
* `Credential.disclosed_up_to_cut` — properties are authentic up to where the schema ends.
-/

namespace SelectiveDisclosure

variable {σ : Type} {h : Hasher} {source : NonceSource σ} {state : σ} {content content' : Content}
  {evidence : List Credential} {ss ss' : List Statement} {policy : Policy}

/-- Only the text of a statement counts. -/
theorem Statement.Covered.of_text_eq {s s' : Statement} {nonces : NonceMap} {hashes : List Digest}
    (hcovered : s.Covered h nonces hashes) (htext : s.text = s'.text) :
    s'.Covered h nonces hashes := by
  obtain ⟨nonce, hnonce, hmem⟩ := hcovered
  refine ⟨nonce, ?_, ?_⟩
  · rw [← hnonce, digest_eq_of_text_eq h htext]
  · rwa [salted_eq, ← htext, ← salted_eq]

namespace Credential

/-- A credential can be shown with any content that says no more than its own. -/
theorem verified_withContent_of_saysNoMore {c : Credential}
    (hverified : (c.verify h policy).verified = true) (hss : content.statements = .ok ss)
    (hc : c.content.Integral) (hcontent : content.Integral)
    (hless : content.SaysNoMore c.content) :
    ((c.withContent content).verify h policy).verified = true := by
  obtain ⟨hframe, ss', hss', hcovered⟩ := verified_iff_soundFrame.1 hverified
  refine verified_iff_soundFrame.2 ⟨hframe, ss, hss, ?_⟩
  intro s hs
  obtain ⟨s', hs', htext⟩ := (Content.saysNoMore_iff_texts hss hss' hcontent hc).1 hless s hs
  exact (hcovered s' hs').of_text_eq htext

/-- What is shown with the hashes of what was issued says no more than this. -/
theorem saysNoMore_of_verified {c : Credential} (hss : content.statements = .ok ss)
    (hverified : (c.verify h policy).verified = true)
    (hhashes : c.hashes = (issued h source content evidence state).hashes)
    (hcontent : content.Integral) (hc : c.content.Integral)
    (hclean : h.CollisionFree
      (content.drawnMessages h source state ++ c.content.saltedMessages h c.nonces)) :
    c.content.SaysNoMore content := by
  obtain ⟨-, ss', hss', hcovered⟩ := verified_iff_soundFrame.1 hverified
  rw [Content.saysNoMore_iff_texts hss' hss hc hcontent]
  intro s hs
  have hs' := hcovered s hs
  rw [hhashes] at hs'
  obtain ⟨d, hd, htext, -⟩ := exists_drawn_of_covered hss hss' hclean hs hs'
  exact ⟨_, Content.statement_mem_of_mem_drawn hss hd, htext⟩

/-- **What was issued can be shown with just those contents that say no more.** -/
theorem verified_withContent_issued_iff (hss : content.statements = .ok ss)
    (hss' : content'.statements = .ok ss')
    (hverified : ((issued h source content evidence state).verify h policy).verified = true)
    (hcontent : content.Integral) (hcontent' : content'.Integral)
    (hclean : h.CollisionFree (content.drawnMessages h source state ++
      content'.saltedMessages h (issued h source content evidence state).nonces)) :
    (((issued h source content evidence state).withContent content').verify h policy).verified =
        true ↔
      content'.SaysNoMore content := by
  constructor
  · intro hshown
    have hhashes : ((issued h source content evidence state).withContent content').hashes =
        (issued h source content evidence state).hashes := rfl
    exact saysNoMore_of_verified hss hshown hhashes hcontent hcontent' hclean
  · exact verified_withContent_of_saysNoMore hverified hss' hcontent hcontent'

/-- **Properties are authentic up to where the schema ends**: what is shown with the hashes of what
was issued are some of its properties, cut elsewhere perhaps. They cannot be cut elsewhere if there
are no separators in the schema and the names. -/
theorem disclosed_up_to_cut {c c' : Credential} {shown : String} {value : Value}
    (hissued : (issue h source content evidence state).1 = .ok c)
    (hverified : (c'.verify h policy).verified = true) (hhashes : c'.hashes = c.hashes)
    (hshown : c'.content.get? shown = some value) (hc : c.content.Integral)
    (hc' : c'.content.Integral)
    (hclean : h.CollisionFree
      (content.drawnMessages h source state ++ c'.content.saltedMessages h c'.nonces)) :
    c'.content.CutFrom c.content ∧
      (c.content.Plain → c'.content.schema = c.content.schema ∧
        ∀ name value, c'.content.get? name = some value → c.content.get? name = some value) := by
  obtain ⟨⟨ss, hss⟩, rfl⟩ := issue_eq_ok_iff.1 hissued
  have hless := saysNoMore_of_verified hss hverified hhashes hc hc' hclean
  have hcut := ((Content.saysNoMore_iff_cutFrom hshown).1 hless).2
  exact ⟨hcut, fun hplain => hcut.of_plain hplain hshown⟩

/-- A claim about a person, shown without saying who the person is, gives the age under its own
schema. -/
theorem disclosed_age :
    ∃ c content, (issue Sample.hasher (.counting "n") Sample.person [] 0).1 = .ok c ∧
      ((c.withContent content).verify Sample.hasher .standard).verified = true ∧
      content.holder = none ∧ content.CutFrom c.content ∧ content.schema = c.content.schema := by
  have hissued : (issue Sample.hasher (.counting "n") Sample.person [] 0).1 = .ok Sample.personal :=
    issue_of_statements _ _ _ _ rfl
  have hverified : ((Sample.personal.withContent { Sample.person with holder := none }).verify
      Sample.hasher .standard).verified = true :=
    verified_withContent_of_subset Sample.verified_personal rfl rfl (by decide)
  have hshown : Content.get? { Sample.person with holder := none } "age" =
      some (.ofJson (.number (.whole 29))) := rfl
  obtain ⟨hcut, hplain⟩ := disclosed_up_to_cut hissued hverified rfl hshown (by decide)
    (by decide) (by decide)
  exact ⟨_, _, hissued, hverified, rfl, hcut, (hplain (by decide)).1⟩

end Credential

/-! ### A schema that ends later -/

namespace Sample

/-- That the person is at home in Bonn can be said under a schema that ends later. -/
theorem homeCutLater_saysNoMore : homeCutLater.SaysNoMore home := by
  have hshown : homeCutLater.get? "city" = some (.ofJson (.string "Bonn")) := rfl
  refine (Content.saysNoMore_iff_cutFrom hshown).2 ⟨fun _ hholder => hholder, .later "home" rfl ?_⟩
  intro name value hvalue
  obtain ⟨rfl, rfl⟩ : name = "city" ∧ value = .ofJson (.string "Bonn") := by
    simpa using List.mem_singleton.1 (Content.get?_eq_some_iff.1 hvalue)
  rfl

/-- Where the person is at home, issued with a hash function that is in use. -/
def homely : Credential := .issued .blake2b (.counting "n") home [] 0

theorem verified_homely : (homely.verify .blake2b .standard).verified = true :=
  Credential.verified_issued rfl (by decide +kernel) (by decide +kernel) (by decide +kernel)
    (by simp) (by simp)

end Sample

namespace Credential

/-- A credential says under one schema where a person is at home. It is shown under another schema,
with a property that it does not have. No messages collide. -/
theorem schema_can_be_moved :
    ∃ c, (issue .blake2b (.counting "n") Sample.home [] 0).1 = .ok c ∧
      c.content.Integral ∧ (c.withContent Sample.homeCutLater).content.Integral ∧
      Hasher.blake2b.CollisionFree (Sample.home.statementMessages ++
        (Sample.home.drawnMessages .blake2b (.counting "n") 0 ++ ([c.leaves] ++
          (Sample.homeCutLater.statementMessages ++
            (Sample.homeCutLater.saltedMessages .blake2b c.nonces ++
              [(c.withContent Sample.homeCutLater).leaves]))))) ∧
      ((c.withContent Sample.homeCutLater).verify .blake2b .standard).verified = true ∧
      (c.withContent Sample.homeCutLater).hashes = c.hashes ∧
      (c.withContent Sample.homeCutLater).content.schema ≠ c.content.schema ∧
      (c.withContent Sample.homeCutLater).content.get? "city" =
        some (.ofJson (.string "Bonn")) ∧
      c.content.get? "city" = none := by
  have hascending :
      ((Sample.home.drawn .blake2b (.counting "n") 0).map (·.salted)).Pairwise (· ≤ ·) := by
    decide +kernel
  have hissued : (issue .blake2b (.counting "n") Sample.home [] 0).1 = .ok Sample.homely :=
    issue_of_statements _ _ _ _ rfl
  have hverified := verified_withContent_of_saysNoMore Sample.verified_homely rfl
    (by decide) (by decide) Sample.homeCutLater_saysNoMore
  refine ⟨Sample.homely, hissued, by decide, by decide, ?_, hverified, rfl, by decide, rfl, rfl⟩
  have hleaves : (Sample.homely.withContent Sample.homeCutLater).leaves = Sample.homely.leaves :=
    rfl
  rw [hleaves, Sample.homely, leaves_issued hascending]
  decide +kernel

end Credential

end SelectiveDisclosure
