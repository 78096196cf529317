import SelectiveDisclosure.Proofs.Json.ReadBack

/-!
# The range of numbers that are read

Only what fits into 64 bits is read as a whole number: a numeral with more digits, with a point or
with an exponent becomes a binary64 number. So a value that was read from a text, and whose numbers
are whole, can be written and read again without loss, however its text was spelled.

That a number is in the range is known where a numeral ends. From there it is carried along by an
invariant of reading: every number in the finished parts of the open arrays and objects passes a
test that every numeral passes.

## Main definitions

* `Number.fits` — a whole number fits into 64 bits.
* `Tree.everyNumber` — all numbers of a tree pass a test.
* `Reading.Passed` — all numbers that have been read pass a test.

## Main results

* `Numeral.fits_of_value?` — the number of a numeral fits.
* `Reading.Passed.push`, `Reading.Passed.run` — the invariant, for one character and for many.
* `Json.exact_iff` — values whose whole numbers fit are read as they were written.
* `Document.fits_read` — all numbers in the tree of a text fit.
* `Tree.everyNumber_of_toJson?` — the numbers of a value are those of its tree.
-/

namespace SelectiveDisclosure

/-! ### Numerals -/

/-- Whether a number, if it is whole, fits into 64 bits: below zero as a signed number, from zero on
as an unsigned one. -/
def Number.fits : Number → Bool
  | .whole n => decide (-(Nat.pow 2 63 : Nat) ≤ n) && decide (n < (Nat.pow 2 64 : Nat))
  | .real _ => true

theorem Number.isExact_eq (n : Number) : n.isExact = (n.isWhole && n.fits) := by
  cases n with
  | whole n => rfl
  | real x => rfl

namespace Numeral

theorem fill_lt {s : Nat} (hs : s < Nat.pow 2 64) (ds : List Nat) :
    (fill s ds).1 < Nat.pow 2 64 := by
  induction ds generalizing s with
  | nil => exact hs
  | cons d rest ih =>
    rw [fill]
    split
    · next hlt => exact ih hlt
    · exact hs

theorem fits_signed (negative : Bool) (x : Binary64) : (signed negative x).fits = true := rfl

theorem fits_of_map_signed {negative : Bool} {x : Option Binary64} {n : Number}
    (h : x.map (signed negative) = some n) : n.fits = true := by
  obtain ⟨x, -, rfl⟩ := Option.map_eq_some_iff.1 h
  exact fits_signed negative x

/-- **The number of a numeral fits into 64 bits if it is whole.** -/
theorem fits_of_value? {m : Numeral} {n : Number} (h : m.value? = some n) : n.fits = true := by
  have hlt : (fill 0 m.whole.reverse).1 < Nat.pow 2 64 := fill_lt (by decide) _
  simp only [value?] at h
  split at h
  · split at h
    · cases h
      simp only [Number.fits, Bool.and_eq_true, decide_eq_true_eq]
      omega
    · split at h
      · next hnegative =>
        cases h
        simp only [Number.fits, Bool.and_eq_true, decide_eq_true_eq]
        omega
      · exact fits_of_map_signed h
  · exact fits_of_map_signed h

end Numeral

/-! ### Trees -/

namespace Json

variable {p : Number → Bool}

theorem everyNumberItems_iff {items : List Json} :
    everyNumberItems p items = true ↔ ∀ j ∈ items, j.everyNumber p = true := by
  induction items with
  | nil => simp [everyNumberItems]
  | cons j rest ih => rw [everyNumberItems, Bool.and_eq_true, ih, List.forall_mem_cons]

theorem everyNumberMembers_iff {members : List (String × Json)} :
    everyNumberMembers p members = true ↔ ∀ e ∈ members, e.2.everyNumber p = true := by
  induction members with
  | nil => simp [everyNumberMembers]
  | cons e rest ih => rw [everyNumberMembers, Bool.and_eq_true, ih, List.forall_mem_cons]

theorem everyNumberMembers_insertEntry {name : String} {value : Json}
    {placed : List (String × Json)} (hvalue : value.everyNumber p = true)
    (hplaced : everyNumberMembers p placed = true) :
    everyNumberMembers p (OrderedMap.insertEntry name value placed) = true := by
  rw [everyNumberMembers_iff] at hplaced ⊢
  intro e he
  rcases OrderedMap.mem_insertEntry he with rfl | he
  · exact hvalue
  · exact hplaced e he

mutual

/-- The numbers of a value pass two tests if they pass both of them. -/
theorem everyNumber_and (p q : Number → Bool) : (j : Json) →
    j.everyNumber (fun n => p n && q n) = (j.everyNumber p && j.everyNumber q)
  | .null | .bool _ | .string _ => by simp only [everyNumber, Bool.and_self]
  | .number _ => by simp only [everyNumber]
  | .array items => by simp only [everyNumber, everyNumberItems_and p q items]
  | .object members => by simp only [everyNumber, everyNumberMembers_and p q members]

theorem everyNumberItems_and (p q : Number → Bool) : (items : List Json) →
    everyNumberItems (fun n => p n && q n) items =
      (everyNumberItems p items && everyNumberItems q items)
  | [] => rfl
  | item :: rest => by
    simp only [everyNumberItems, everyNumber_and p q item, everyNumberItems_and p q rest,
      Bool.and_assoc, Bool.and_left_comm]

theorem everyNumberMembers_and (p q : Number → Bool) : (members : List (String × Json)) →
    everyNumberMembers (fun n => p n && q n) members =
      (everyNumberMembers p members && everyNumberMembers q members)
  | [] => rfl
  | (_, value) :: rest => by
    simp only [everyNumberMembers, everyNumber_and p q value, everyNumberMembers_and p q rest,
      Bool.and_assoc, Bool.and_left_comm]

end

/-- **The numbers of a value are read as they were written if they are whole and fit.** -/
theorem exact_iff {j : Json} : j.Exact ↔ j.Integral ∧ j.everyNumber Number.fits = true := by
  have split : Number.isExact = fun n => n.isWhole && n.fits := funext Number.isExact_eq
  rw [Exact, Integral, split, everyNumber_and, Bool.and_eq_true]

mutual

/-- Sorting leaves the numbers alone. -/
theorem everyNumber_sorted : (j : Json) → j.everyNumber p = true → j.sorted.everyNumber p = true
  | .null, _ | .bool _, _ | .string _, _ => by rw [sorted, everyNumber]
  | .number _, h => by
    rw [sorted]
    exact h
  | .array items, h => by
    rw [everyNumber] at h
    rw [sorted, everyNumber]
    exact everyNumberItems_sorted items h
  | .object members, h => by
    rw [everyNumber] at h
    rw [sorted, everyNumber]
    exact everyNumberMembers_sorted members h rfl

theorem everyNumberItems_sorted : (items : List Json) → everyNumberItems p items = true →
    everyNumberItems p (sortedItems items) = true
  | [], _ => rfl
  | item :: rest, h => by
    rw [everyNumberItems, Bool.and_eq_true] at h
    rw [sortedItems, everyNumberItems, Bool.and_eq_true]
    exact ⟨everyNumber_sorted item h.1, everyNumberItems_sorted rest h.2⟩

theorem everyNumberMembers_sorted : (members : List (String × Json)) →
    {placed : List (String × Json)} → everyNumberMembers p members = true →
    everyNumberMembers p placed = true → everyNumberMembers p (sortedMembers placed members) = true
  | [], _, _, hplaced => hplaced
  | (name, value) :: rest, placed, h, hplaced => by
    rw [everyNumberMembers, Bool.and_eq_true] at h
    rw [sortedMembers]
    exact everyNumberMembers_sorted rest h.2
      (everyNumberMembers_insertEntry (everyNumber_sorted value h.1) hplaced)

end

end Json

namespace Tree

mutual

/-- Whether all numbers of a tree pass a test. -/
def everyNumber (p : Number → Bool) : Tree → Bool
  | .number (some n) => p n
  | .array items _ => everyNumberItems p items
  | .object members _ => everyNumberMembers p members
  | .null | .bool _ | .number none | .string _ | .broken => true

/-- Whether all numbers of the items pass a test. -/
def everyNumberItems (p : Number → Bool) : List Tree → Bool
  | [] => true
  | item :: rest => item.everyNumber p && everyNumberItems p rest

/-- Whether all numbers in the values of members pass a test. -/
def everyNumberMembers (p : Number → Bool) : List (Option String × Tree) → Bool
  | [] => true
  | (_, value) :: rest => value.everyNumber p && everyNumberMembers p rest

end

variable {p : Number → Bool}

theorem everyNumberItems_iff {items : List Tree} :
    everyNumberItems p items = true ↔ ∀ t ∈ items, t.everyNumber p = true := by
  induction items with
  | nil => simp [everyNumberItems]
  | cons t rest ih => rw [everyNumberItems, Bool.and_eq_true, ih, List.forall_mem_cons]

theorem everyNumberMembers_iff {members : List (Option String × Tree)} :
    everyNumberMembers p members = true ↔ ∀ e ∈ members, e.2.everyNumber p = true := by
  induction members with
  | nil => simp [everyNumberMembers]
  | cons e rest ih => rw [everyNumberMembers, Bool.and_eq_true, ih, List.forall_mem_cons]

theorem everyNumberItems_reverse (items : List Tree) :
    everyNumberItems p items.reverse = everyNumberItems p items := by
  rw [Bool.eq_iff_iff, everyNumberItems_iff, everyNumberItems_iff]
  simp only [List.mem_reverse]

theorem everyNumberMembers_reverse (members : List (Option String × Tree)) :
    everyNumberMembers p members.reverse = everyNumberMembers p members := by
  rw [Bool.eq_iff_iff, everyNumberMembers_iff, everyNumberMembers_iff]
  simp only [List.mem_reverse]

mutual

/-- **The numbers of a value are those of its tree.** -/
theorem everyNumber_of_toJson? : {room : Nat} → (t : Tree) → {j : Json} →
    toJson? room t = some j → t.everyNumber p = true → j.everyNumber p = true
  | _, .null, j, h, _ => by
    rw [toJson?] at h
    cases h
    rfl
  | _, .bool _, j, h, _ => by
    rw [toJson?] at h
    cases h
    rfl
  | _, .number n, j, h, ht => by
    rw [toJson?, Option.map_eq_some_iff] at h
    obtain ⟨n, rfl, rfl⟩ := h
    exact ht
  | _, .string s, j, h, _ => by
    rw [toJson?, Option.map_eq_some_iff] at h
    obtain ⟨s, -, rfl⟩ := h
    rfl
  | 0, .array _ true, j, h, _ | 0, .array _ false, j, h, _ | _ + 1, .array _ false, j, h, _
  | 0, .object _ true, j, h, _ | 0, .object _ false, j, h, _ | _ + 1, .object _ false, j, h, _
  | _, .broken, j, h, _ =>
    nomatch (show none = some j from h)
  | room + 1, .array items true, _, h, ht => by
    rw [toJson?, Option.map_eq_some_iff] at h
    obtain ⟨values, hitems, rfl⟩ := h
    rw [everyNumber] at ht
    rw [Json.everyNumber]
    exact everyNumberItems_of_toItems? items hitems ht
  | room + 1, .object members true, _, h, ht => by
    rw [toJson?, Option.map_eq_some_iff] at h
    obtain ⟨placed, hmembers, rfl⟩ := h
    rw [everyNumber] at ht
    rw [Json.everyNumber]
    exact everyNumberMembers_of_toMembers? members hmembers ht rfl

theorem everyNumberItems_of_toItems? : {room : Nat} → (items : List Tree) → {values : List Json} →
    toItems? room items = some values → everyNumberItems p items = true →
    Json.everyNumberItems p values = true
  | _, [], _, h, _ => by
    rw [toItems?] at h
    cases h
    rfl
  | room, item :: rest, _, h, ht => by
    simp only [toItems?, Option.bind_eq_bind, Option.bind_eq_some_iff] at h
    obtain ⟨value, hitem, others, hrest, hvalues⟩ := h
    cases hvalues
    rw [everyNumberItems, Bool.and_eq_true] at ht
    rw [Json.everyNumberItems, Bool.and_eq_true]
    exact ⟨everyNumber_of_toJson? item hitem ht.1, everyNumberItems_of_toItems? rest hrest ht.2⟩

theorem everyNumberMembers_of_toMembers? : {room : Nat} → {placed : List (String × Json)} →
    (members : List (Option String × Tree)) → {values : List (String × Json)} →
    toMembers? room placed members = some values → everyNumberMembers p members = true →
    Json.everyNumberMembers p placed = true → Json.everyNumberMembers p values = true
  | _, _, [], _, h, _, hplaced => by
    rw [toMembers?] at h
    cases h
    exact hplaced
  | room, placed, (name, tree) :: rest, _, h, ht, hplaced => by
    simp only [toMembers?, Option.bind_eq_bind, Option.bind_eq_some_iff] at h
    obtain ⟨found, -, value, htree, hrest⟩ := h
    rw [everyNumberMembers, Bool.and_eq_true] at ht
    exact everyNumberMembers_of_toMembers? rest hrest ht.2
      (Json.everyNumberMembers_insertEntry (everyNumber_of_toJson? tree htree ht.1) hplaced)

end

end Tree

/-! ### Reading -/

/-- Whether all numbers in the finished parts of an array or object pass a test. -/
def Frame.everyNumber (p : Number → Bool) : Frame → Bool
  | .array items => Tree.everyNumberItems p items
  | .object members | .member members _ => Tree.everyNumberMembers p members

/-- Whether all numbers of a value that is finished or is spelled by a word pass a test. -/
def Mode.everyNumber (p : Number → Bool) : Mode → Bool
  | .word _ tree | .ended tree => tree.everyNumber p
  | .value | .itemOrEnd | .nameOrEnd | .name | .colon | .next | .numeral _ | .literal _ _ => true

namespace Reading

variable {p : Number → Bool} {r : Reading} {frames : List Frame} {value : Tree}

/-- All numbers that have been read pass a test. -/
structure Passed (p : Number → Bool) (r : Reading) : Prop where
  mode : r.mode.everyNumber p = true
  frames : ∀ f ∈ r.frames, f.everyNumber p = true

theorem passed_start : Passed p start := ⟨rfl, nofun⟩

theorem Passed.halt (h : Passed p r) : Passed p r.halt := ⟨h.mode, h.frames⟩

theorem passed_finished (hvalue : value.everyNumber p = true)
    (hframes : ∀ f ∈ frames, f.everyNumber p = true) : Passed p (finished value frames) := by
  match frames with
  | [] => exact ⟨hvalue, nofun⟩
  | .array items :: outer | .member members name :: outer =>
    obtain ⟨hinner, houter⟩ := List.forall_mem_cons.1 hframes
    refine ⟨rfl, List.forall_mem_cons.2 ⟨?_, houter⟩⟩
    exact Bool.and_eq_true_iff.2 ⟨hvalue, hinner⟩
  | .object members :: outer => exact ⟨rfl, hframes⟩

theorem Passed.startValue (h : Passed p r) (c : Char) : Passed p (r.startValue c) := by
  have opened : ∀ f : Frame, f.everyNumber p = true →
      ∀ f' ∈ f :: r.frames, f'.everyNumber p = true :=
    fun f hf => List.forall_mem_cons.2 ⟨hf, h.frames⟩
  simp only [Reading.startValue]
  split
  · exact ⟨rfl, h.frames⟩
  · split
    · exact ⟨rfl, opened (.array []) rfl⟩
    · split
      · exact ⟨rfl, opened (.object []) rfl⟩
      · repeat' split
        · exact ⟨rfl, h.frames⟩
        · exact ⟨rfl, h.frames⟩
        · exact ⟨rfl, h.frames⟩
        · exact ⟨rfl, h.frames⟩
        · exact h.halt

theorem Passed.pushNext (h : Passed p r) (c : Char) : Passed p (r.pushNext c) := by
  have hframes := h.frames
  unfold Reading.pushNext
  split
  · exact h
  · split
    · exact ⟨rfl, hframes⟩
    · next items outer hopen _ =>
      rw [hopen, List.forall_mem_cons] at hframes
      refine passed_finished ?_ hframes.2
      rw [Tree.everyNumber, Tree.everyNumberItems_reverse]
      exact hframes.1
    · exact ⟨rfl, hframes⟩
    · next members outer hopen _ =>
      rw [hopen, List.forall_mem_cons] at hframes
      refine passed_finished ?_ hframes.2
      rw [Tree.everyNumber, Tree.everyNumberMembers_reverse]
      exact hframes.1
    · exact h.halt

theorem Passed.named (h : Passed p r) (name : Option String) : Passed p (r.named name) := by
  have hframes := h.frames
  unfold Reading.named
  split
  · next hopen =>
    rw [hopen, List.forall_mem_cons] at hframes
    exact ⟨rfl, List.forall_mem_cons.2 hframes⟩
  · exact h.halt

/-- Whatever numeral ends, its number passes. -/
theorem everyNumber_value? (hp : ∀ (m : Numeral) n, m.value? = some n → p n = true) (m : Numeral) :
    (Tree.number m.value?).everyNumber p = true := by
  cases hvalue : m.value? with
  | none => rw [Tree.everyNumber]
  | some n => exact hp m n hvalue

/-- **One more character adds no number that does not pass.** -/
theorem Passed.push (hp : ∀ (m : Numeral) n, m.value? = some n → p n = true) (h : Passed p r)
    (c : Char) : Passed p (r.push c) := by
  obtain ⟨mode, frames, stuck⟩ := r
  have hmode : mode.everyNumber p = true := h.mode
  have hframes : ∀ f ∈ frames, f.everyNumber p = true := h.frames
  have same : ∀ mode : Mode, mode.everyNumber p = true → Passed p ⟨mode, frames, stuck⟩ :=
    fun mode hmode => ⟨hmode, hframes⟩
  have ended : ∀ tree : Tree, tree.everyNumber p = true → Passed p (finished tree frames) :=
    fun tree htree => passed_finished htree hframes
  unfold Reading.push
  split
  · exact h
  · cases mode with
    | value =>
      dsimp only
      split
      · exact h
      · exact h.startValue c
    | itemOrEnd =>
      dsimp only
      split
      · exact h
      · split
        · exact (same .next rfl).pushNext c
        · exact h.startValue c
    | nameOrEnd =>
      dsimp only
      split
      · exact h
      · split
        · exact (same .next rfl).pushNext c
        · split
          · exact same (.literal .start true) rfl
          · exact h.halt
    | name =>
      dsimp only
      split
      · exact h
      · split
        · exact same (.literal .start true) rfl
        · exact h.halt
    | colon =>
      dsimp only
      split
      · exact h
      · split
        · exact same .value rfl
        · exact h.halt
    | next | ended root => exact h.pushNext c
    | word rest tree =>
      match rest with
      | [] => exact (ended tree hmode).pushNext c
      | [last] =>
        dsimp only
        split
        · exact ended tree hmode
        · exact h.halt
      | first :: second :: rest =>
        dsimp only
        split
        · exact same (.word (second :: rest) tree) hmode
        · exact h.halt
    | numeral n =>
      dsimp only
      rcases n.push c with m | _ | _
      · exact same (.numeral m) rfl
      · exact (ended _ (everyNumber_value? hp n)).pushNext c
      · exact h.halt
    | literal l isName =>
      dsimp only
      rcases l.push c with m | string | _
      · exact same (.literal m isName) rfl
      · cases isName with
        | true => exact h.named string
        | false => exact ended (.string string) rfl
      · exact h.halt

theorem Passed.run (hp : ∀ (m : Numeral) n, m.value? = some n → p n = true) (h : Passed p r)
    (cs : List Char) : Passed p (r.run cs) := by
  induction cs generalizing r with
  | nil => exact h
  | cons c cs ih => exact ih (h.push hp c)

/-! ### The tree -/

theorem everyNumber_enclose {inner : Option Tree} (frames : List Frame)
    (hinner : ∀ t, inner = some t → t.everyNumber p = true)
    (hframes : ∀ f ∈ frames, f.everyNumber p = true) :
    (enclose inner frames).everyNumber p = true := by
  have hvalue : (inner.getD .broken).everyNumber p = true := by
    cases inner with
    | none => rw [Option.getD_none, Tree.everyNumber]
    | some t => exact hinner t rfl
  match frames with
  | [] => exact hvalue
  | .array items :: outer =>
    obtain ⟨hitems, houter⟩ := List.forall_mem_cons.1 hframes
    refine everyNumber_enclose outer ?_ houter
    rintro t ⟨⟩
    rw [Tree.everyNumber, Tree.everyNumberItems_reverse, Tree.everyNumberItems_iff]
    intro t ht
    rcases List.mem_append.1 ht with ht | ht
    · exact hinner t (Option.mem_toList.1 ht)
    · exact Tree.everyNumberItems_iff.1 hitems t ht
  | .object members :: outer =>
    obtain ⟨hmembers, houter⟩ := List.forall_mem_cons.1 hframes
    refine everyNumber_enclose outer ?_ houter
    rintro t ⟨⟩
    rw [Tree.everyNumber, Tree.everyNumberMembers_reverse]
    exact hmembers
  | .member members name :: outer =>
    obtain ⟨hmembers, houter⟩ := List.forall_mem_cons.1 hframes
    refine everyNumber_enclose outer ?_ houter
    rintro t ⟨⟩
    rw [Tree.everyNumber, Tree.everyNumberMembers_reverse, Tree.everyNumberMembers,
      Bool.and_eq_true]
    exact ⟨hvalue, hmembers⟩

theorem Passed.everyNumber_tree (hp : ∀ (m : Numeral) n, m.value? = some n → p n = true)
    (h : Passed p r) : r.tree.everyNumber p = true := by
  have hmode := h.mode
  refine everyNumber_enclose r.frames ?_ h.frames
  intro t ht
  rw [Reading.inner] at ht
  cases hreading : r.mode with
  | value | colon | word =>
    rw [hreading] at ht
    cases ht
    rw [Tree.everyNumber]
  | itemOrEnd | nameOrEnd | name | next =>
    rw [hreading] at ht
    cases ht
  | numeral n =>
    rw [hreading] at ht
    cases ht
    split
    · exact everyNumber_value? hp n
    · rw [Tree.everyNumber]
  | literal l isName =>
    rw [hreading] at ht
    cases isName <;> cases ht
    rw [Tree.everyNumber]
  | ended root =>
    rw [hreading] at ht hmode
    cases ht
    exact hmode

end Reading

/-- **All numbers that are read from a text fit into 64 bits if they are whole.** -/
theorem Document.fits_read (s : String) :
    (Document.read s).root.everyNumber Number.fits = true := by
  have passed := Reading.passed_start.run (fun m n => Numeral.fits_of_value?) s.toList
  exact passed.everyNumber_tree fun m n => Numeral.fits_of_value?

end SelectiveDisclosure
