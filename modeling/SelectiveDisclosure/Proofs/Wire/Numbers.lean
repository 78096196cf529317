import SelectiveDisclosure.Proofs.Json.Ranges
import SelectiveDisclosure.Wire.Reader

/-!
# The numbers of contents that are read

Whatever test the numbers of a tree pass, the numbers of what is read from it pass too: readers put
values together from the parts of the tree and make up no number of their own. In particular the
whole numbers of a content that was read from a text fit into 64 bits.

Readers visit a tree member by member and stop at the first problem. So what is said of them is said
as of a loop: what every member keeps, or every field, the whole reading keeps.

## Main definitions

* `Shape.Keeps` — reading a field keeps something.
* `Content.Fits` — the numbers in all values fit into 64 bits if they are whole.

## Main results

* `Origin.keeps_of_map`, `Shape.keeps_of_read` — maps and records.
* `Content.fits_of_ofText` — the numbers of a content that was read from a text fit.
-/

namespace SelectiveDisclosure

/-! ### What every part keeps -/

section Keeps

variable {p : Number → Bool} {o : Origin} {tree : Tree}

/-- What each member of an object keeps, reading a map keeps. -/
theorem Origin.keeps_of_map {α β : Type} {empty result : β} {add : α → β → β}
    {member : Origin → String → Tree → Except Misread α} {I : β → Prop} (hempty : I empty)
    (hadd : ∀ inside name t a map, t.everyNumber p = true → member inside name t = .ok a →
      I map → I (add a map))
    (htree : tree.everyNumber p = true) (h : Origin.map empty add member o tree = .ok result) :
    I result := by
  have members : ∀ inside (ms : List (Option String × Tree)) map,
      Tree.everyNumberMembers p ms = true → I map → entries add member inside map ms = .ok result →
        I result := by
    intro inside ms
    induction ms with
    | nil =>
      rintro map - hmap ⟨⟩
      exact hmap
    | cons m ms ih =>
      obtain ⟨_ | name, t⟩ := m
      · rintro map - - ⟨⟩
      · intro map hms hmap hentries
        rw [Tree.everyNumberMembers, Bool.and_eq_true] at hms
        obtain ⟨a, ha, hrest⟩ := bind_eq_ok_iff.1 hentries
        exact ih _ hms.2 (hadd inside name t a map hms.1 ha hmap) hrest
  cases tree with
  | object ms closed =>
    rw [Tree.everyNumber] at htree
    obtain ⟨inside, -, hresult⟩ := bind_eq_ok_iff.1 h
    obtain ⟨found, hfound, hclosed⟩ := bind_eq_ok_iff.1 hresult
    cases closed <;> cases hclosed
    exact members inside ms empty htree hempty hfound
  | null | bool | number | string | array | broken => cases h

namespace Shape

variable {σ : Type} {shape : Shape σ} {inside : Origin} {I : σ → Prop} {draft result : σ}

/-- Whether reading a field keeps something, from trees all of whose numbers pass. -/
def Keeps (p : Number → Bool) (I : σ → Prop) (field : Field σ) : Prop :=
  ∀ inside t draft next, t.everyNumber p = true → field.read inside t draft = .ok next →
    I draft → I next

theorem keeps_of_readMembers (hfields : ∀ field ∈ shape.fields, Keeps p I field)
    {members : List (Option String × Tree)} (hmembers : Tree.everyNumberMembers p members = true)
    (hdraft : I draft) (h : shape.readMembers inside draft members = .ok result) : I result := by
  induction members generalizing draft with
  | nil =>
    cases h
    exact hdraft
  | cons m members ih =>
    obtain ⟨_ | name, t⟩ := m
    · cases h
    · rw [Tree.everyNumberMembers, Bool.and_eq_true] at hmembers
      rw [readMembers] at h
      split at h
      · split at h
        · exact ih hmembers.2 hdraft h
        · cases h
      · next field hfield =>
        split at h
        · cases h
        · obtain ⟨next, hnext, hrest⟩ := bind_eq_ok_iff.1 h
          have hkeeps := hfields field (List.mem_of_find?_eq_some hfield)
          exact ih hmembers.2 (hkeeps inside t draft next hmembers.1 hnext hdraft) hrest

theorem keeps_of_readItems {length index : Nat} {closed : Bool} {fields : List (Field σ)}
    (hfields : ∀ field ∈ fields, Keeps p I field) {items : List Tree}
    (hitems : Tree.everyNumberItems p items = true) (hdraft : I draft)
    (h : shape.readItems inside length closed index fields draft items = .ok result) :
    I result := by
  induction fields generalizing index draft items with
  | nil =>
    cases items with
    | nil =>
      rw [readItems] at h
      split at h <;> cases h
      exact hdraft
    | cons => cases h
  | cons field fields ih =>
    rw [List.forall_mem_cons] at hfields
    cases items with
    | nil =>
      rw [readItems] at h
      split at h
      · cases h
      · split at h
        · exact ih hfields.2 hitems hdraft h
        · cases h
    | cons t items =>
      rw [Tree.everyNumberItems, Bool.and_eq_true] at hitems
      rw [readItems] at h
      obtain ⟨next, hnext, hrest⟩ := bind_eq_ok_iff.1 h
      exact ih hfields.2 hitems.2 (hfields.1 inside t draft next hitems.1 hnext hdraft) hrest

/-- What each field keeps, reading a record keeps. -/
theorem keeps_of_read (hfields : ∀ field ∈ shape.fields, Keeps p I field) (hdraft : I draft)
    (htree : tree.everyNumber p = true) (h : shape.read draft o tree = .ok result) : I result := by
  cases tree with
  | object members closed =>
    rw [Tree.everyNumber] at htree
    obtain ⟨inside, -, hresult⟩ := bind_eq_ok_iff.1 h
    obtain ⟨found, hfound, hclosed⟩ := bind_eq_ok_iff.1 hresult
    split at hclosed
    · cases hclosed
    · split at hclosed
      · cases hclosed
      · cases hclosed
        exact keeps_of_readMembers hfields htree hdraft hfound
  | array items closed =>
    rw [Tree.everyNumber] at htree
    obtain ⟨inside, -, hresult⟩ := bind_eq_ok_iff.1 h
    exact keeps_of_readItems hfields htree hdraft hresult
  | null | bool | number | string | broken => cases h

end Shape

end Keeps

/-! ### Contents -/

namespace Value

variable {p : Number → Bool}

/-- The numbers of the values of properties are those of the tree they are read from. -/
theorem everyNumber_of_readMap {o : Origin} {tree : Tree} {properties : OrderedMap String Value}
    (htree : tree.everyNumber p = true) (h : readMap o tree = .ok properties) :
    ∀ e ∈ properties.entries, e.2.json.everyNumber p = true := by
  refine Origin.keeps_of_map (I := fun properties =>
    ∀ e ∈ properties.entries, e.2.json.everyNumber p = true) nofun ?_ htree h
  intro inside name t entry properties ht hentry hproperties e he
  obtain ⟨j, hj, hpure⟩ := bind_eq_ok_iff.1 hentry
  cases hpure
  rcases OrderedMap.mem_insertEntry he with rfl | he
  · rw [Origin.json] at hj
    split at hj <;> cases hj
    next hvalue => exact Json.everyNumber_sorted j (Tree.everyNumber_of_toJson? t hvalue ht)
  · exact hproperties e he

end Value

namespace Content

theorem properties_of_complete {draft : ContentDraft} {c : Content}
    (h : Misread.complete draft.content? = .ok c) :
    c.properties = draft.properties.getD .empty := by
  obtain ⟨_ | schema, _ | issuer, holder, properties⟩ := draft <;> cases h
  rfl

/-- Whether the numbers in all values fit into 64 bits if they are whole. -/
def Fits (c : Content) : Prop :=
  ∀ e ∈ c.properties.entries, e.2.json.everyNumber Number.fits = true

/-- **The numbers of a content that was read from a text fit into 64 bits if they are whole.** -/
theorem fits_of_ofText {s : String} {c : Content} (h : Misread.ofText read s = .ok c) :
    c.Fits := by
  obtain ⟨found, hfound, hdocument⟩ := bind_eq_ok_iff.1 h
  obtain ⟨-, hc⟩ := ite_error_eq_ok_iff.1 hdocument
  obtain ⟨draft, hdraft, hcomplete⟩ := bind_eq_ok_iff.1 hfound
  have hfits : ∀ properties, draft.properties = some properties →
      ∀ e ∈ properties.entries, e.2.json.everyNumber Number.fits = true := by
    refine Shape.keeps_of_read (I := fun draft : ContentDraft =>
      ∀ properties, draft.properties = some properties →
        ∀ e ∈ properties.entries, e.2.json.everyNumber Number.fits = true)
      ?_ (by rintro _ ⟨⟩) (Document.fits_read s) hdraft
    intro field hfield inside t draft next ht hnext hkept
    simp only [shape, List.mem_cons, List.not_mem_nil, or_false] at hfield
    rcases hfield with rfl | rfl | rfl | rfl
    all_goals
      obtain ⟨value, hvalue, hset⟩ := bind_eq_ok_iff.1 hnext
      cases hset
    -- only the last field is the one with the values
    · exact hkept
    · exact hkept
    · exact hkept
    · rintro properties ⟨⟩
      exact Value.everyNumber_of_readMap ht hvalue
  obtain rfl := Except.ok.inj hc
  rw [Fits, properties_of_complete hcomplete]
  cases hproperties : draft.properties with
  | none => exact nofun
  | some properties => exact hfits properties hproperties

end Content

end SelectiveDisclosure
