import SelectiveDisclosure.Proofs.HiddenProperties
import SelectiveDisclosure.Proofs.PrunedNonces

/-!
# Copies of copies

A copy can be copied again, by whoever holds it, and so on. What a selection leaves out is worked
out on the credential at hand: to show only some properties is to leave out all others that are
there. So on a copy it leaves out fewer names than on the credential that the copy was made from,
and the nonces are pruned once for each copy, each time for other statements.

Nothing of this can be seen in the end. As far as properties are still there, a selection leaves the
same of them out; and a statement that is left at the end was left all along, so none of the
prunings took its nonce. Any number of selections amount to removing, in one step, all names that
one of them leaves out of the original. So their order makes no difference, nor does it if one of
them is made twice.

## Main definitions

* `Credential.discloseAll` — the copy that is left by selections, one after the other.
* `Credential.PartOf` — a credential has no property and no nonce that another has not.

## Main results

* `Credential.remove_remove` — removing properties from a copy.
* `Credential.disclose_of_remove` — disclosing a copy.
* `Credential.discloseAll_eq_remove` — selections amount to one removal.
* `Credential.partOf_of_discloseAll` — what is gone stays gone.
* `Credential.disclosures_compose` — all of this together.
-/

namespace SelectiveDisclosure

/-! ### Filtering twice -/

namespace OrderedMap

variable {κ ν : Type} [LT κ] {m : OrderedMap κ ν} {p q : κ → ν → Bool}

theorem filter_filter (m : OrderedMap κ ν) (p q : κ → ν → Bool) :
    (m.filter p).filter q = m.filter fun k v => q k v && p k v := by
  simp only [filter, List.filter_filter]

theorem filter_congr (hsame : ∀ e ∈ m.entries, p e.1 e.2 = q e.1 e.2) :
    m.filter p = m.filter q := by
  simp only [filter, mk.injEq]
  exact List.filter_congr hsame

end OrderedMap

namespace Content

variable {c : Content} {names names' : List String} {name : String}

/-- Removing properties twice is removing all of them. -/
theorem without_without (c : Content) (names names' : List String) :
    (c.without names).without names' = c.without (names ++ names') := by
  simp only [without, OrderedMap.filter_filter, List.contains_append, Bool.not_or,
    Bool.and_comm]

/-- It makes no difference what is removed that is not there. -/
theorem without_congr (hsame : ∀ name ∈ c.names, name ∈ names ↔ name ∈ names') :
    c.without names = c.without names' := by
  have hproperties : (c.properties.filter fun name _ => !names.contains name) =
      c.properties.filter fun name _ => !names'.contains name := by
    refine OrderedMap.filter_congr fun e he => ?_
    have hname := hsame e.1 (List.mem_map_of_mem he)
    simpa using hname
  rw [without, without, hproperties]

theorem names_without_subset (c : Content) (names : List String) :
    (c.without names).names ⊆ c.names :=
  List.map_subset _ List.filter_sublist.subset

/-- Of the properties that are still there, a selection leaves out the same. -/
theorem mem_excluded_without_iff (s : Selection) (hname : name ∈ (c.without names).names) :
    name ∈ s.excluded (c.without names) ↔ name ∈ s.excluded c := by
  rw [Selection.mem_excluded_iff_of_mem hname,
    Selection.mem_excluded_iff_of_mem (names_without_subset c names hname)]

end Content

/-! ### Copies -/

namespace Credential

variable {h : Hasher} {c next copy : Credential} {names names' : List String} {s : Selection}
  {selections : List Selection} {ss : List Statement}

theorem content_of_remove (hcopy : c.remove h names = .ok copy) :
    copy.content = c.content.without names := by
  obtain ⟨ss, -, rfl⟩ := remove_eq_ok_iff.1 hcopy
  rfl

/-- From a content with statements anything can be removed. -/
theorem exists_remove_eq_ok (h : Hasher) (hss : c.content.statements = .ok ss)
    (names : List String) : ∃ copy, c.remove h names = .ok copy := by
  obtain ⟨ss', hss', -⟩ := Content.exists_statements_without hss names
  exact ⟨_, remove_eq_ok_iff.2 ⟨ss', hss', rfl⟩⟩

theorem exists_statements_of_remove (hcopy : c.remove h names = .ok copy) :
    ∃ ss, copy.content.statements = .ok ss := by
  obtain ⟨ss, hss, rfl⟩ := remove_eq_ok_iff.1 hcopy
  exact ⟨ss, hss⟩

theorem remove_congr (hsame : ∀ name ∈ c.content.names, name ∈ names ↔ name ∈ names') :
    c.remove h names = c.remove h names' := by
  rw [remove, remove, Content.without_congr hsame]

/-- **Removing properties from a copy** is removing them from the original too. -/
theorem remove_remove (hcopy : c.remove h names = .ok copy) (names' : List String) :
    copy.remove h names' = c.remove h (names ++ names') := by
  obtain ⟨ss, hss, rfl⟩ := remove_eq_ok_iff.1 hcopy
  obtain ⟨ss', hss', hsub⟩ := Content.exists_statements_without hss names'
  -- the nonces of the statements that are left have survived the first pruning
  have hpruned : (c.nonces.restrict (ss.map (·.digest h))).restrict (ss'.map (·.digest h)) =
      c.nonces.restrict (ss'.map (·.digest h)) :=
    OrderedMap.restrict_restrict_of_subset (List.map_subset _ hsub) c.nonces
  have htogether : (c.content.without (names ++ names')).statements = .ok ss' :=
    Content.without_without c.content names names' ▸ hss'
  rw [remove_eq_ok_iff.2 ⟨ss', htogether, rfl⟩, remove_eq_ok_iff]
  exact ⟨ss', hss', by rw [hpruned, Content.without_without]⟩

/-- **Disclosing a copy** is removing from the original what the selection leaves out of it. -/
theorem disclose_of_remove (hcopy : c.remove h names = .ok copy) (s : Selection) :
    copy.disclose h s = c.remove h (names ++ s.excluded c.content) := by
  have hsame : ∀ name ∈ copy.content.names,
      name ∈ s.excluded copy.content ↔ name ∈ s.excluded c.content := by
    rw [content_of_remove hcopy]
    exact fun name => Content.mem_excluded_without_iff s
  calc copy.disclose h s = copy.remove h (s.excluded copy.content) := rfl
    _ = copy.remove h (s.excluded c.content) := remove_congr hsame
    _ = c.remove h (names ++ s.excluded c.content) := remove_remove hcopy _

/-! ### One copy after the other -/

/-- The copy that is left by selections, one after the other. -/
def discloseAll (h : Hasher) (selections : List Selection) (c : Credential) :
    Except Fault Credential :=
  selections.foldlM (fun c s => c.disclose h s) c

theorem discloseAll_nil (h : Hasher) (c : Credential) : c.discloseAll h [] = .ok c := rfl

theorem discloseAll_cons (hnext : c.disclose h s = .ok next) (selections : List Selection) :
    c.discloseAll h (s :: selections) = next.discloseAll h selections := by
  rw [discloseAll, List.foldlM_cons, hnext]
  rfl

theorem discloseAll_cons_eq_ok_iff :
    c.discloseAll h (s :: selections) = .ok copy ↔
      ∃ next, c.disclose h s = .ok next ∧ next.discloseAll h selections = .ok copy := by
  rw [discloseAll, List.foldlM_cons, bind_eq_ok_iff]
  rfl

theorem discloseAll_append_eq_ok_iff {earlier later : List Selection} :
    c.discloseAll h (earlier ++ later) = .ok copy ↔
      ∃ between, c.discloseAll h earlier = .ok between ∧
        between.discloseAll h later = .ok copy := by
  rw [discloseAll, List.foldlM_append, bind_eq_ok_iff]
  rfl

/-- Selections that are made on a copy amount to removing more from the original. -/
theorem discloseAll_of_remove (hcopy : c.remove h names = .ok copy)
    (selections : List Selection) :
    copy.discloseAll h selections =
      c.remove h (names ++ selections.flatMap (·.excluded c.content)) := by
  induction selections generalizing names copy with
  | nil => rw [discloseAll_nil, List.flatMap_nil, List.append_nil, hcopy]
  | cons s rest ih =>
    obtain ⟨ss, hss⟩ := exists_statements_of_remove hcopy
    obtain ⟨next, hnext⟩ : ∃ next, copy.disclose h s = .ok next :=
      exists_remove_eq_ok h hss (s.excluded copy.content)
    have hstep : c.remove h (names ++ s.excluded c.content) = .ok next :=
      (disclose_of_remove hcopy s).symm.trans hnext
    rw [discloseAll_cons hnext, ih hstep, List.flatMap_cons, List.append_assoc]

/-- **Selections amount to one removal** of all that any of them leaves out of the original. -/
theorem discloseAll_eq_remove (hss : c.content.statements = .ok ss) (hsome : selections ≠ []) :
    c.discloseAll h selections = c.remove h (selections.flatMap (·.excluded c.content)) := by
  obtain ⟨s, rest, rfl⟩ := List.exists_cons_of_ne_nil hsome
  obtain ⟨next, hnext⟩ := exists_remove_eq_ok h hss (s.excluded c.content)
  have hfirst : c.disclose h s = .ok next := hnext
  rw [discloseAll_cons hfirst, discloseAll_of_remove hnext, List.flatMap_cons]

/-- The properties that are left are those that no selection leaves out of the original. -/
theorem exists_discloseAll (h : Hasher) (hss : c.content.statements = .ok ss)
    (selections : List Selection) :
    ∃ copy, c.discloseAll h selections = .ok copy ∧ ∀ name value,
      copy.content.get? name = some value ↔
        c.content.get? name = some value ∧ ∀ s ∈ selections, name ∉ s.excluded c.content := by
  cases selections with
  | nil => exact ⟨c, rfl, by simp⟩
  | cons s rest =>
    obtain ⟨copy, hcopy⟩ :=
      exists_remove_eq_ok h hss ((s :: rest).flatMap (·.excluded c.content))
    refine ⟨copy, (discloseAll_eq_remove hss (List.cons_ne_nil s rest)).trans hcopy, ?_⟩
    intro name value
    rw [content_of_remove hcopy, Content.get?_without]
    by_cases hname : name ∈ (s :: rest).flatMap (·.excluded c.content)
    · obtain ⟨s', hs', hexcluded⟩ := List.mem_flatMap.1 hname
      simp only [hname, if_true, reduceCtorEq, false_iff, not_and, not_forall, not_not]
      exact fun _ => ⟨s', hs', hexcluded⟩
    · have hshown : ∀ s' ∈ s :: rest, name ∉ s'.excluded c.content := fun s' hs' hexcluded =>
        hname (List.mem_flatMap.2 ⟨s', hs', hexcluded⟩)
      rw [if_neg hname, and_iff_left hshown]

/-! ### What is gone stays gone -/

/-- Whether all properties of a credential are properties of another, with the same values, and all
its nonces are nonces of the other, under the same digests. -/
structure PartOf (c copy : Credential) : Prop where
  properties : ∀ name value, copy.content.get? name = some value →
    c.content.get? name = some value
  nonces : ∀ digest nonce, copy.nonces.get? digest = some nonce →
    c.nonces.get? digest = some nonce

theorem PartOf.refl (c : Credential) : PartOf c c := ⟨fun _ _ => id, fun _ _ => id⟩

theorem PartOf.trans (hnext : PartOf c next) (hcopy : PartOf next copy) : PartOf c copy :=
  ⟨fun name value => hnext.properties name value ∘ hcopy.properties name value,
    fun digest nonce => hnext.nonces digest nonce ∘ hcopy.nonces digest nonce⟩

theorem partOf_of_disclose (hcopy : c.disclose h s = .ok copy) : PartOf c copy := by
  have hshows := shows_of_disclose hcopy
  obtain ⟨ss, -, hnonces⟩ := hshows.nonces
  exact ⟨fun name value hvalue => ((hshows.properties name value).1 hvalue).1,
    fun digest nonce hnonce => ((hnonces digest nonce).1 hnonce).1⟩

/-- **What is gone stays gone**, whatever is selected later. -/
theorem partOf_of_discloseAll (hcopy : c.discloseAll h selections = .ok copy) :
    PartOf c copy := by
  induction selections generalizing c with
  | nil => exact Except.ok.inj hcopy ▸ PartOf.refl c
  | cons s rest ih =>
    obtain ⟨next, hnext, hrest⟩ := discloseAll_cons_eq_ok_iff.1 hcopy
    exact (partOf_of_disclose hnext).trans (ih hrest)

/-- **Disclosures add up.** Two selections can be made in either order, and it comes to the same as
removing in one step what either leaves out of the original; one that is made twice is made once.
Of any number of them, one after the other, a property is left exactly if each of them leaves it in
the original, and they come to one removal too. What is gone after some of them is not there after
more of them. -/
theorem disclosures_compose (h : Hasher) (hss : c.content.statements = .ok ss) :
    (∀ s s', ∃ first second copy, c.disclose h s = .ok first ∧ c.disclose h s' = .ok second ∧
        first.disclose h s' = .ok copy ∧ second.disclose h s = .ok copy ∧
          c.remove h (s.excluded c.content ++ s'.excluded c.content) = .ok copy) ∧
      (∀ s, ∃ copy, c.disclose h s = .ok copy ∧ copy.disclose h s = .ok copy) ∧
      (∀ selections, ∃ copy, c.discloseAll h selections = .ok copy ∧
        (∀ name value, copy.content.get? name = some value ↔
          c.content.get? name = some value ∧ ∀ s ∈ selections, name ∉ s.excluded c.content) ∧
        (selections ≠ [] →
          c.remove h (selections.flatMap (·.excluded c.content)) = .ok copy)) ∧
      ∀ earlier later between copy, c.discloseAll h earlier = .ok between →
        c.discloseAll h (earlier ++ later) = .ok copy → PartOf between copy := by
  have hremoved (names : List String) : ∃ copy, c.remove h names = .ok copy :=
    exists_remove_eq_ok h hss names
  refine ⟨fun s s' => ?_, fun s => ?_, fun selections => ?_, ?_⟩
  · obtain ⟨first, hfirst⟩ := hremoved (s.excluded c.content)
    obtain ⟨second, hsecond⟩ := hremoved (s'.excluded c.content)
    obtain ⟨copy, hcopy⟩ := hremoved (s.excluded c.content ++ s'.excluded c.content)
    have hswapped : c.remove h (s'.excluded c.content ++ s.excluded c.content) = .ok copy := by
      rw [← hcopy]
      exact remove_congr fun name _ => by rw [List.mem_append, List.mem_append, or_comm]
    exact ⟨first, second, copy, hfirst, hsecond, (disclose_of_remove hfirst s').trans hcopy,
      (disclose_of_remove hsecond s).trans hswapped, hcopy⟩
  · obtain ⟨copy, hcopy⟩ := hremoved (s.excluded c.content)
    refine ⟨copy, hcopy, ?_⟩
    rw [disclose_of_remove hcopy s, ← hcopy]
    exact remove_congr fun name _ => by rw [List.mem_append, or_self]
  · obtain ⟨copy, hcopy, hproperties⟩ := exists_discloseAll h hss selections
    exact ⟨copy, hcopy, hproperties,
      fun hsome => (discloseAll_eq_remove hss hsome).symm.trans hcopy⟩
  · intro earlier later between copy hbetween hcopy
    obtain ⟨between', hbetween', hlater⟩ := discloseAll_append_eq_ok_iff.1 hcopy
    obtain rfl := Except.ok.inj (hbetween.symm.trans hbetween')
    exact partOf_of_discloseAll hlater

end Credential

namespace Sample

/-- Nothing but the age is shown. -/
def ageOnly : Selection := ⟨some ["age"], []⟩

end Sample

namespace Credential

/-- A passport of which only the age is shown, and then all but the age, shows neither age nor name,
whichever is done first, and showing the age once more does not bring it back. -/
theorem disclosures_compose_of_passport :
    Sample.passport.content.statements = .ok Sample.passport.content.stated ∧
      (∃ first second copy, Sample.passport.disclose Sample.hasher Sample.ageOnly = .ok first ∧
        Sample.passport.disclose Sample.hasher Sample.ageless.selection = .ok second ∧
          first.disclose Sample.hasher Sample.ageless.selection = .ok copy ∧
            second.disclose Sample.hasher Sample.ageOnly = .ok copy) ∧
        ∃ copy, Sample.passport.discloseAll Sample.hasher
            [Sample.ageOnly, Sample.ageless.selection, Sample.ageOnly] = .ok copy ∧
          copy.content.get? "age" = none ∧ copy.content.get? "name" = none := by
  have hss : Sample.passport.content.statements = .ok Sample.passport.content.stated := rfl
  obtain ⟨htwo, -, hmany, -⟩ := disclosures_compose Sample.hasher hss
  obtain ⟨first, second, copy, hfirst, hsecond, hcopy, hcopy', -⟩ :=
    htwo Sample.ageOnly Sample.ageless.selection
  obtain ⟨last, hlast, hproperties, -⟩ :=
    hmany [Sample.ageOnly, Sample.ageless.selection, Sample.ageOnly]
  refine ⟨hss, ⟨first, second, copy, hfirst, hsecond, hcopy, hcopy'⟩, last, hlast, ?_, ?_⟩
  · refine Option.eq_none_iff_forall_ne_some.2 fun value hvalue => ?_
    exact ((hproperties "age" value).1 hvalue).2 Sample.ageless.selection (by decide) (by decide)
  · refine Option.eq_none_iff_forall_ne_some.2 fun value hvalue => ?_
    exact ((hproperties "name" value).1 hvalue).2 Sample.ageOnly (by decide) (by decide)

end Credential

end SelectiveDisclosure
