import SelectiveDisclosure.Json.Shape
import SelectiveDisclosure.Proofs.Json.ReadBack
import SelectiveDisclosure.Proofs.Json.Trees

/-!
# Readers that give back what was written

Whatever is exchanged is read back from its own text as it was written. One thing can keep it from
that: that the text nests more arrays and objects than a reader opens. So reading what was written
gives it if there is room for it, and otherwise reports that the text cannot be read, and nothing
else.

## One law for all readers

`Origin.Reads` says this of a reader and a value: given the tree of the value, with whatever room,
it gives the record or that report, according to the height of the value. Strings, lists, maps and
records carry the law from their parts to the whole, so for a kind of record no more is to be done
than to name its fields in the order in which they are written.

## Main definitions

* `Origin.give` — what reading gives that needs room.
* `Origin.Reads` — a reader gives back what was written, if there is room for it.
* `Shape.Fills` — reading members fills a draft.

## Main results

* `Origin.reads_list`, `Origin.reads_map` — lists and maps.
* `Shape.Fills.reads` — records, from their fields.
* `Misread.ofText_text` — what was written as a text is read back from it, if there is room.
-/

namespace SelectiveDisclosure

namespace Origin

variable {α β γ : Type} {o : Origin}

/-! ### Reading that needs room -/

/-- What reading gives that opens this many arrays and objects inside one another. -/
def give (o : Origin) (height : Nat) (a : α) : Except Misread α :=
  if height ≤ o.room then .ok a else .error .malformed

theorem give_zero (a : α) : o.give 0 a = .ok a := if_pos (Nat.zero_le _)

/-- Two things read one behind the other need the greater of their heights. -/
theorem give_bind {m n : Nat} {a : α} {f : α → Except Misread β} {b : β}
    (hf : f a = o.give n b) : (o.give m a >>= f) = o.give (max m n) b := by
  by_cases hm : m ≤ o.room
  · have ok : o.give m a = .ok a := if_pos hm
    rw [ok]
    change f a = _
    rw [hf, give, give]
    simp only [Nat.max_le, hm, true_and]
  · have error : o.give m a = .error .malformed := if_neg hm
    rw [error, give, if_neg fun h => hm (Nat.max_le.1 h).1]
    rfl

theorem give_bind_ok {m : Nat} {a : α} {f : α → Except Misread β} {b : β} (hf : f a = .ok b) :
    (o.give m a >>= f) = o.give m b := by
  rw [give_bind (n := 0) (hf.trans (give_zero b).symm), Nat.max_zero]

/-- Whether this is the inside of an array or object that can be opened. -/
def Inside (o inside : Origin) : Prop := o.enter = .ok inside

/-- What is read inside an array or object needs room for one more. -/
theorem enter_bind {n : Nat} {f : Origin → Except Misread β} {b : β}
    (hf : ∀ inside, o.Inside inside → f inside = inside.give n b) :
    (o.enter >>= f) = o.give (n + 1) b := by
  obtain ⟨room, text⟩ := o
  cases room with
  | zero => rfl
  | succ room =>
    have opened := hf ⟨room, text⟩ rfl
    change f ⟨room, text⟩ = _
    rw [opened, give, give]
    simp only [Nat.add_le_add_iff_right]

/-! ### Readers that give back what was written -/

/-- Whether a reader gives `a` from the tree of a value if there is room for the value, and reports
a text that cannot be read otherwise. -/
def Reads (o : Origin) (reader : Origin → Tree → Except Misread α) (j : Json) (a : α) : Prop :=
  reader o (Tree.ofJson j) = o.give j.height a

theorem reads_string (s : String) : o.Reads Origin.string (.string s) s := by
  rw [Reads, Tree.ofJson, Json.height, give_zero]
  rfl

theorem reads_json {j : Json} (h : j.Sorted) : o.Reads Origin.json j j := by
  rw [Reads, Origin.json, Tree.toJson?_ofJson_eq, h.sorted_eq, give]
  by_cases hroom : j.height ≤ o.room <;> simp [hroom]

theorem Reads.bind_ok {reader : Origin → Tree → Except Misread α} {j : Json} {a : α}
    {f : α → Except Misread β} {b : β} (h : o.Reads reader j a) (hf : f a = .ok b) :
    (reader o (Tree.ofJson j) >>= f) = o.give j.height b := by
  rw [h]
  exact give_bind_ok hf

/-- A value that is not null is read where null may stand instead. -/
theorem reads_optional {reader : Origin → Tree → Except Misread α} {j : Json} {a : α}
    (hj : j ≠ .null) (h : o.Reads reader j a) : o.Reads (Origin.optional reader) j (some a) := by
  have present : Origin.optional reader o (Tree.ofJson j) =
      (reader o (Tree.ofJson j)).map some := by
    cases j <;> first | exact absurd rfl hj | rfl
  rw [Reads, present, h, give, give]
  split <;> rfl

theorem reads_list {reader : Origin → Tree → Except Misread α} {xs : List α} {json : α → Json}
    (h : ∀ inside, o.Inside inside → ∀ x ∈ xs, inside.Reads reader (json x) x) :
    o.Reads (Origin.list reader) (.array (xs.map json)) xs := by
  rw [Reads, Tree.ofJson, Json.height, Origin.list]
  refine enter_bind fun inside hinside => ?_
  have items : ∀ xs : List α, (∀ x ∈ xs, inside.Reads reader (json x) x) →
      (Tree.ofItems (xs.map json)).mapM (reader inside) =
        inside.give (Json.heightItems (xs.map json)) xs := by
    intro xs
    induction xs with
    | nil => intro _; rw [List.map_nil, Json.heightItems, give_zero]; rfl
    | cons x xs ih =>
      intro hxs
      rw [List.forall_mem_cons] at hxs
      rw [List.map_cons, Tree.ofItems, List.mapM_cons, hxs.1, Json.heightItems]
      exact give_bind (by rw [ih hxs.2]; exact give_bind_ok rfl)
  rw [items xs (h inside hinside)]
  exact give_bind_ok rfl

/-- Members are added to a map in the order in which they are written. -/
theorem reads_map {empty : β} {add : α → β → β} {member : Origin → String → Tree → Except Misread α}
    {xs : List γ} {name : γ → String} {json : γ → Json} {value : γ → α}
    (h : ∀ inside, o.Inside inside → ∀ x ∈ xs,
      member inside (name x) (Tree.ofJson (json x)) = inside.give (json x).height (value x)) :
    o.Reads (Origin.map empty add member) (.object (xs.map fun x => (name x, json x)))
      (xs.foldl (fun map x => add (value x) map) empty) := by
  rw [Reads, Tree.ofJson, Json.height, Origin.map]
  refine enter_bind fun inside hinside => ?_
  have members : ∀ (xs : List γ) (map : β), (∀ x ∈ xs,
      member inside (name x) (Tree.ofJson (json x)) = inside.give (json x).height (value x)) →
      entries add member inside map (Tree.ofMembers (xs.map fun x => (name x, json x))) =
        inside.give (Json.heightMembers (xs.map fun x => (name x, json x)))
          (xs.foldl (fun map x => add (value x) map) map) := by
    intro xs
    induction xs with
    | nil => intro map _; rw [List.map_nil, Json.heightMembers, give_zero]; rfl
    | cons x xs ih =>
      intro map hxs
      rw [List.forall_mem_cons] at hxs
      rw [List.map_cons, Tree.ofMembers, entries, hxs.1, Json.heightMembers, List.foldl_cons]
      exact give_bind (ih _ hxs.2)
  rw [members xs empty (h inside hinside)]
  exact give_bind_ok rfl

end Origin

/-! ### Records -/

namespace Shape

variable {σ : Type} {shape : Shape σ} {inside : Origin}

/-- Whether reading members of an object fills a draft, if there is room for the values. -/
def Fills (shape : Shape σ) (inside : Origin) (draft : σ) (members : List (String × Json))
    (filled : σ) : Prop :=
  shape.readMembers inside draft (Tree.ofMembers members) =
    inside.give (Json.heightMembers members) filled

theorem Fills.nil (draft : σ) : shape.Fills inside draft [] draft := by
  rw [Fills, Json.heightMembers, Origin.give_zero]
  rfl

/-- One more member in front fills in the field of its name, if the draft lacks that. -/
theorem Fills.cons {draft next filled : σ} {name : String} {value : Json}
    {rest : List (String × Json)} (field : Field σ)
    (hfield : shape.fields.find? (·.name = name) = some field) (hnew : field.given draft = false)
    (hread : field.read inside (Tree.ofJson value) draft = inside.give value.height next)
    (hrest : shape.Fills inside next rest filled) :
    shape.Fills inside draft ((name, value) :: rest) filled := by
  rw [Fills, Tree.ofMembers, readMembers, hfield, Json.heightMembers]
  simp only [hnew, Bool.false_eq_true, if_false, hread]
  exact Origin.give_bind hrest

/-- A record is read from an object whose members fill its draft. -/
theorem Fills.reads {o : Origin} {empty filled : σ} {members : List (String × Json)}
    (hmissing : shape.missing? filled = none)
    (h : ∀ inside, o.Inside inside → shape.Fills inside empty members filled) :
    o.Reads (shape.read empty) (.object members) filled := by
  rw [Origin.Reads, Tree.ofJson, Json.height, Shape.read]
  refine Origin.enter_bind fun inside hinside => ?_
  rw [h inside hinside]
  refine Origin.give_bind_ok ?_
  simp [hmissing]

end Shape

namespace Misread

variable {α : Type} {reader : Origin → Tree → Except Misread α} {j : Json} {a : α}

/-- **What was written as a text is read back from it exactly if it nests no deeper than a text
may**; otherwise the text cannot be read. -/
theorem ofText_text (hj : j.Exact) (h : Origin.Reads ⟨Document.room, true⟩ reader j a) :
    ofText reader j.text = if j.height ≤ Document.room then .ok a else .error .malformed := by
  rw [ofText, Document.read_text hj]
  exact (h.bind_ok rfl).trans rfl

end Misread

end SelectiveDisclosure
