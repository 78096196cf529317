/-!
# Maps with ascending keys

A map is the list of its entries with strictly ascending keys. The order is part of the type, so two
maps with the same entries are equal, and listing a map never needs a sort.

## Main definitions

* `OrderedMap κ ν` — a map from `κ` to `ν`.
* `OrderedMap.insert`, `erase`, `filter`, `ofList` — the last of several entries with one key stays.
* `OrderedMap.get?` — the value under a key, the view that the lemmas speak of.

## Main results

* `OrderedMap.get?_insert`, `get?_erase`, `get?_filter` — what each operation does to the view.
* `OrderedMap.mem_entries_iff` — an entry is listed exactly if the view shows it.
* `OrderedMap.get?_ofList` — of several entries with one key the last is in the view.
* `OrderedMap.entries_ofList_perm` — a map of entries with distinct keys lists just these.
* `OrderedMap.ext_get?` — a map is determined by its view.
* `OrderedMap.ofList_eq_of_perm` — entries with distinct keys make one map in any order.
* `OrderedMap.ofList_entries` — a map is the map of its entries.
-/

namespace SelectiveDisclosure

/-- A map from `κ` to `ν`: its entries, in strictly ascending order of their keys. -/
structure OrderedMap (κ ν : Type) [LT κ] where
  entries : List (κ × ν)
  ascending : entries.Pairwise (fun a b => a.1 < b.1)
  deriving DecidableEq

namespace OrderedMap

variable {κ ν : Type}

/-! ### Entry lists -/

section Entries

variable [LT κ] [DecidableLT κ] [DecidableEq κ]

/-- Puts an entry in its place, instead of one with the same key. -/
def insertEntry (k : κ) (v : ν) : List (κ × ν) → List (κ × ν)
  | [] => [(k, v)]
  | (k', v') :: rest =>
    if k < k' then (k, v) :: (k', v') :: rest
    else if k = k' then (k, v) :: rest
    else (k', v') :: insertEntry k v rest

/-- The value of the first entry with a key. -/
def lookup (k : κ) : List (κ × ν) → Option ν
  | [] => none
  | (k', v') :: rest => if k = k' then some v' else lookup k rest

theorem mem_insertEntry {k : κ} {v : ν} {e : κ × ν} {l : List (κ × ν)}
    (h : e ∈ insertEntry k v l) : e = (k, v) ∨ e ∈ l := by
  induction l with
  | nil => simpa [insertEntry] using h
  | cons hd tl ih =>
    obtain ⟨k', v'⟩ := hd
    simp only [insertEntry] at h
    split at h
    · simpa using h
    · split at h
      · rcases List.mem_cons.1 h with h | h <;> simp [h]
      · rcases List.mem_cons.1 h with h | h
        · simp [h]
        · rcases ih h with h | h <;> simp [h]

theorem lookup_insertEntry (k k' : κ) (v : ν) (l : List (κ × ν)) :
    lookup k' (insertEntry k v l) = if k' = k then some v else lookup k' l := by
  induction l with
  | nil => simp [insertEntry, lookup]
  | cons hd tl ih =>
    obtain ⟨j, w⟩ := hd
    simp only [insertEntry]
    split
    · simp [lookup]
    · split
      · next h => subst h; by_cases h : k' = k <;> simp [lookup, h]
      · next hj =>
        by_cases h : k' = j
        · subst h; simp [lookup, Ne.symm hj]
        · simp [lookup, h, ih]

theorem ascending_insertEntry [LE κ] [Std.IsLinearOrder κ] [Std.LawfulOrderLT κ] (k : κ) (v : ν)
    {l : List (κ × ν)} (h : l.Pairwise fun a b => a.1 < b.1) :
    (insertEntry k v l).Pairwise fun a b => a.1 < b.1 := by
  induction l with
  | nil => simp [insertEntry]
  | cons hd tl ih =>
    obtain ⟨k', v'⟩ := hd
    have hr := fun {e} (he : e ∈ tl) => List.rel_of_pairwise_cons h he
    simp only [insertEntry]
    split
    · next hlt =>
      refine h.cons fun e he => ?_
      rcases List.mem_cons.1 he with rfl | he
      · exact hlt
      · exact Std.lt_trans hlt (hr he)
    · next hlt =>
      split
      · next heq => subst heq; exact h.of_cons.cons fun e he => hr he
      · next hne =>
        refine (ih h.of_cons).cons fun e he => ?_
        rcases mem_insertEntry he with rfl | he
        · exact (Std.lt_trichotomy k' k).resolve_right fun h => h.elim (fun h => hne h.symm) hlt
        · exact hr he

theorem insertEntry_perm {k : κ} {v : ν} {l : List (κ × ν)} (h : k ∉ l.map (·.1)) :
    (insertEntry k v l).Perm ((k, v) :: l) := by
  induction l with
  | nil => exact .refl _
  | cons hd tl ih =>
    obtain ⟨k', v'⟩ := hd
    simp only [List.map_cons, List.mem_cons, not_or] at h
    simp only [insertEntry, if_neg h.1]
    split
    · exact .refl _
    · exact ((ih h.2).cons (k', v')).trans (.swap (k, v) (k', v') tl)

end Entries

/-! ### The operations -/

section Operations

variable [LT κ]

/-- The map without entries. -/
def empty : OrderedMap κ ν := ⟨[], .nil⟩

instance : EmptyCollection (OrderedMap κ ν) := ⟨empty⟩
instance : Inhabited (OrderedMap κ ν) := ⟨empty⟩

/-- The number of entries. -/
def size (m : OrderedMap κ ν) : Nat := m.entries.length

/-- The keys, ascending. -/
def keys (m : OrderedMap κ ν) : List κ := m.entries.map (·.1)

/-- The values, in the order of their keys. -/
def values (m : OrderedMap κ ν) : List ν := m.entries.map (·.2)

/-- The entries that pass a test. -/
def filter (p : κ → ν → Bool) (m : OrderedMap κ ν) : OrderedMap κ ν :=
  ⟨m.entries.filter fun e => p e.1 e.2, m.ascending.filter _⟩

variable [DecidableEq κ]

/-- The value under a key. -/
def get? (m : OrderedMap κ ν) (k : κ) : Option ν := lookup k m.entries

/-- Whether a key has an entry. -/
def contains (m : OrderedMap κ ν) (k : κ) : Bool := (m.get? k).isSome

/-- The map without the entry under a key, if there is one. -/
def erase (m : OrderedMap κ ν) (k : κ) : OrderedMap κ ν := m.filter fun k' _ => k' ≠ k

variable [LE κ] [Std.IsLinearOrder κ] [Std.LawfulOrderLT κ] [DecidableLT κ]

/-- Adds an entry, instead of one with the same key. -/
def insert (m : OrderedMap κ ν) (k : κ) (v : ν) : OrderedMap κ ν :=
  ⟨insertEntry k v m.entries, ascending_insertEntry k v m.ascending⟩

/-- Adds entries from the left; of several with one key the last stays. -/
def insertAll (m : OrderedMap κ ν) (es : List (κ × ν)) : OrderedMap κ ν :=
  es.foldl (fun m e => m.insert e.1 e.2) m

/-- The map of a list of entries; of several with one key the last stays. -/
def ofList (es : List (κ × ν)) : OrderedMap κ ν := empty.insertAll es

end Operations

/-! ### The view -/

section View

variable [LT κ] [DecidableEq κ]

@[simp] theorem get?_empty (k : κ) : (empty : OrderedMap κ ν).get? k = none := rfl

omit [LT κ] in
theorem lookup_eq_none {k : κ} {l : List (κ × ν)} (h : ∀ e ∈ l, e.1 ≠ k) : lookup k l = none := by
  induction l with
  | nil => rfl
  | cons hd tl ih =>
    have := h hd (by simp)
    simp [lookup, Ne.symm this, ih fun e he => h e (by simp [he])]

omit [LT κ] in
theorem lookup_append (k : κ) (l l' : List (κ × ν)) :
    lookup k (l ++ l') = (lookup k l).or (lookup k l') := by
  induction l with
  | nil => rfl
  | cons e rest ih => by_cases hk : k = e.1 <;> simp [lookup, hk, ih]

omit [LT κ] in
theorem lookup_map {ν' : Type} (f : ν → ν') (k : κ) (l : List (κ × ν)) :
    lookup k (l.map fun e => (e.1, f e.2)) = (lookup k l).map f := by
  induction l with
  | nil => rfl
  | cons e rest ih => by_cases hk : k = e.1 <;> simp [lookup, hk, ih]

omit [LT κ] in
theorem lookup_filter (p : κ → ν → Bool) (k : κ) {l : List (κ × ν)}
    (h : l.Pairwise fun a b => a.1 ≠ b.1) :
    lookup k (l.filter fun e => p e.1 e.2) = (lookup k l).filter (p k) := by
  induction l with
  | nil => rfl
  | cons hd tl ih =>
    obtain ⟨j, w⟩ := hd
    have ih := ih h.of_cons
    by_cases hk : k = j
    · subst hk
      by_cases hp : p k w = true
      · simp [lookup, hp, Option.filter]
      · simp [lookup, hp, ih, Option.filter, lookup_eq_none fun e he =>
          (List.rel_of_pairwise_cons h he).symm]
    · by_cases hp : p j w = true <;> simp [lookup, hp, hk, ih]

variable [LE κ] [Std.LawfulOrderLT κ]

omit [DecidableEq κ] in
theorem keys_distinct (m : OrderedMap κ ν) : m.entries.Pairwise fun a b => a.1 ≠ b.1 :=
  m.ascending.imp fun h => Std.ne_of_lt h

omit [DecidableEq κ] in
theorem nodup_keys (m : OrderedMap κ ν) : m.keys.Nodup := List.pairwise_map.2 m.keys_distinct

@[simp] theorem get?_filter (p : κ → ν → Bool) (m : OrderedMap κ ν) (k : κ) :
    (m.filter p).get? k = (m.get? k).filter (p k) :=
  lookup_filter p k m.keys_distinct

theorem get?_erase (m : OrderedMap κ ν) (k k' : κ) :
    (m.erase k).get? k' = if k' = k then none else m.get? k' := by
  by_cases h : k' = k
  · subst h; cases hm : m.get? k' <;> simp [erase, hm, Option.filter]
  · cases hm : m.get? k' <;> simp [erase, h, hm, Option.filter]

theorem mem_entries_iff {m : OrderedMap κ ν} {k : κ} {v : ν} :
    (k, v) ∈ m.entries ↔ m.get? k = some v := by
  obtain ⟨l, hl⟩ := m
  simp only [get?]
  induction l with
  | nil => simp [lookup]
  | cons hd tl ih =>
    obtain ⟨j, w⟩ := hd
    have ih := ih hl.of_cons
    have hr := fun {e} (he : e ∈ tl) => List.rel_of_pairwise_cons hl he
    by_cases hk : k = j
    · subst hk
      have : (k, v) ∉ tl := fun h => Std.lt_irrefl (show k < k from hr h)
      simp [lookup, this, eq_comm]
    · simp [lookup, ih, hk]

theorem mem_keys_iff {m : OrderedMap κ ν} {k : κ} : k ∈ m.keys ↔ m.contains k = true := by
  simp [keys, contains, Option.isSome_iff_exists, ← mem_entries_iff]

variable [Std.IsLinearOrder κ] [DecidableLT κ]

@[simp] theorem get?_insert (m : OrderedMap κ ν) (k k' : κ) (v : ν) :
    (m.insert k v).get? k' = if k' = k then some v else m.get? k' :=
  lookup_insertEntry k k' v m.entries

/-- Of several entries with one key the last stays, and it hides what was there before. -/
theorem get?_insertAll (m : OrderedMap κ ν) (es : List (κ × ν)) (k : κ) :
    (m.insertAll es).get? k = (lookup k es.reverse).or (m.get? k) := by
  induction es generalizing m with
  | nil => rfl
  | cons e rest ih =>
    have hstep : m.insertAll (e :: rest) = (m.insert e.1 e.2).insertAll rest := rfl
    rw [hstep, ih, get?_insert, List.reverse_cons, lookup_append, Option.or_assoc]
    by_cases hk : k = e.1 <;> simp [lookup, hk]

theorem get?_ofList (es : List (κ × ν)) (k : κ) : (ofList es).get? k = lookup k es.reverse := by
  rw [ofList, get?_insertAll, get?_empty, Option.or_none]

theorem contains_insertAll (m : OrderedMap κ ν) (es : List (κ × ν)) (k : κ) :
    (m.insertAll es).contains k = true ↔ m.contains k = true ∨ k ∈ es.map (·.1) := by
  induction es generalizing m with
  | nil => simp [insertAll]
  | cons e rest ih =>
    have : m.insertAll (e :: rest) = (m.insert e.1 e.2).insertAll rest := rfl
    rw [this, ih]
    by_cases h : k = e.1 <;> simp [contains, h]

theorem contains_ofList (es : List (κ × ν)) (k : κ) :
    (ofList es).contains k = true ↔ k ∈ es.map (·.1) := by
  rw [ofList, contains_insertAll]
  simp [contains]

theorem entries_insertAll_perm {m : OrderedMap κ ν} {es : List (κ × ν)}
    (h : (m.keys ++ es.map (·.1)).Nodup) : (m.insertAll es).entries.Perm (m.entries ++ es) := by
  induction es generalizing m with
  | nil => simp [insertAll]
  | cons e rest ih =>
    have fresh : e.1 ∉ m.entries.map (·.1) := fun hmem =>
      (List.nodup_append.1 h).2.2 _ hmem _ (by simp) rfl
    have placed : (m.insert e.1 e.2).entries.Perm (e :: m.entries) := insertEntry_perm fresh
    have moved : ((m.insert e.1 e.2).entries ++ rest).Perm (m.entries ++ e :: rest) :=
      (placed.append_right rest).trans List.perm_middle.symm
    refine (ih ?_).trans moved
    have hkeys := (moved.map (·.1)).nodup_iff.2 (by simpa [keys] using h)
    simpa [keys] using hkeys

/-- A map of entries with distinct keys lists just these entries. -/
theorem entries_ofList_perm {es : List (κ × ν)} (h : (es.map (·.1)).Nodup) :
    (ofList es).entries.Perm es :=
  entries_insertAll_perm (m := empty) (by simpa [keys, empty] using h)

end View

/-- A map is determined by the values under its keys. -/
theorem ext_get? [LT κ] [DecidableEq κ] [LE κ] [Std.IsLinearOrder κ] [Std.LawfulOrderLT κ]
    {m n : OrderedMap κ ν} (h : ∀ k, m.get? k = n.get? k) : m = n := by
  obtain ⟨l, hl⟩ := m
  obtain ⟨l', hl'⟩ := n
  have mem : ∀ e, e ∈ l ↔ e ∈ l' := fun e => by
    have := mem_entries_iff (m := ⟨l, hl⟩) (k := e.1) (v := e.2)
    have := mem_entries_iff (m := ⟨l', hl'⟩) (k := e.1) (v := e.2)
    simp_all
  suffices l = l' by subst this; rfl
  clear h
  induction l generalizing l' with
  | nil => cases l' with
    | nil => rfl
    | cons e tl => exact absurd ((mem e).2 (by simp)) (by simp)
  | cons e tl ih =>
    cases l' with
    | nil => exact absurd ((mem e).1 (by simp)) (by simp)
    | cons e' tl' =>
      have hr := fun {x} (hx : x ∈ tl) => List.rel_of_pairwise_cons hl hx
      have hr' := fun {x} (hx : x ∈ tl') => List.rel_of_pairwise_cons hl' hx
      have he : e = e' := by
        rcases List.mem_cons.1 ((mem e).1 (by simp)) with h | h
        · exact h
        · rcases List.mem_cons.1 ((mem e').2 (by simp)) with h' | h'
          · exact h'.symm
          · exact absurd (Std.lt_trans (hr h') (hr' h)) Std.lt_irrefl
      subst he
      refine congrArg (e :: ·) (ih hl.of_cons tl' hl'.of_cons fun x => ?_)
      have hx := mem x
      simp only [List.mem_cons] at hx
      constructor <;> intro h
      · refine (hx.1 (.inr h)).resolve_left fun hxe => ?_
        subst hxe; exact Std.lt_irrefl (hr h)
      · refine (hx.2 (.inr h)).resolve_left fun hxe => ?_
        subst hxe; exact Std.lt_irrefl (hr' h)

/-- Entries with distinct keys make one map, in whatever order they come. -/
theorem ofList_eq_of_perm [LT κ] [DecidableEq κ] [LE κ] [Std.IsLinearOrder κ]
    [Std.LawfulOrderLT κ] [DecidableLT κ] {es es' : List (κ × ν)} (h : (es.map (·.1)).Nodup)
    (p : es.Perm es') : ofList es = ofList es' := by
  have listed := entries_ofList_perm h
  have listed' := entries_ofList_perm ((p.map (·.1)).nodup_iff.1 h)
  refine ext_get? fun k => Option.ext fun v => ?_
  rw [← mem_entries_iff, ← mem_entries_iff, listed.mem_iff, listed'.mem_iff, p.mem_iff]

/-- A map is the map of its entries. -/
theorem ofList_entries [LT κ] [DecidableEq κ] [LE κ] [Std.IsLinearOrder κ] [Std.LawfulOrderLT κ]
    [DecidableLT κ] (m : OrderedMap κ ν) : ofList m.entries = m := by
  have listed : (ofList m.entries).entries.Perm m.entries :=
    entries_ofList_perm m.nodup_keys
  refine ext_get? fun k => Option.ext fun v => ?_
  rw [← mem_entries_iff, ← mem_entries_iff, listed.mem_iff]

end OrderedMap

end SelectiveDisclosure
