import Mathlib.Data.List.Forall2
import SelectiveDisclosure.Fault

/-!
# Going through lists

An operation that may fail goes through a list from the left. Either it succeeds at every place, or
it ends with the fault of the first place at which it does not. A search that does not stop at its
first find tells of each of them, in order.

## Main results

* `mapM_eq_ok_iff` — an operation on a list succeeds if it does at every place.
* `mapM_eq_error_iff` — it fails like the first element at which it does.
* `forall₂_filterMap` — what is found is found of the elements that there is something to find of.
-/

namespace SelectiveDisclosure

variable {ε α β : Type}

/-- An operation on a list succeeds exactly if it does at every place. -/
theorem mapM_eq_ok_iff {f : α → Except ε β} {as : List α} {bs : List β} :
    as.mapM f = .ok bs ↔ List.Forall₂ (fun a b => f a = .ok b) as bs := by
  induction as generalizing bs with
  | nil => rw [List.mapM_nil, pure_eq_ok_iff, List.forall₂_nil_left_iff, eq_comm]
  | cons a rest ih =>
    simp only [List.mapM_cons, bind_eq_ok_iff, pure_eq_ok_iff, ih]
    constructor
    · rintro ⟨b, hb, others, hothers, rfl⟩
      exact .cons hb hothers
    · rintro (_ | ⟨hb, hothers⟩)
      exact ⟨_, hb, _, hothers, rfl⟩

theorem mapM_cons_eq_error_iff {f : α → Except ε β} {a : α} {rest : List α} {e : ε} :
    (a :: rest).mapM f = .error e ↔
      f a = .error e ∨ (∃ b, f a = .ok b) ∧ rest.mapM f = .error e := by
  rw [List.mapM_cons]
  simp [bind_eq_error_iff, pure, Except.pure]

/-- **An operation on a list fails exactly like the first element at which it does.** -/
theorem mapM_eq_error_iff {f : α → Except ε β} {as : List α} {e : ε} :
    as.mapM f = .error e ↔
      ∃ front a rest, as = front ++ a :: rest ∧ (∀ b ∈ front, ∃ c, f b = .ok c) ∧
        f a = .error e := by
  induction as with
  | nil => simp [pure, Except.pure]
  | cons first rest ih =>
    rw [mapM_cons_eq_error_iff, ih]
    constructor
    · rintro (hfirst | ⟨hfirst, front, a, rest', rfl, hfront, ha⟩)
      · exact ⟨[], first, rest, rfl, nofun, hfirst⟩
      · exact ⟨first :: front, a, rest', rfl, List.forall_mem_cons.2 ⟨hfirst, hfront⟩, ha⟩
    · rintro ⟨_ | ⟨_, front⟩, a, rest', hsplit, hfront, ha⟩
      · obtain ⟨rfl, rfl⟩ := List.cons.inj hsplit
        exact .inl ha
      · obtain ⟨rfl, rfl⟩ := List.cons.inj hsplit
        obtain ⟨hfirst, hfront⟩ := List.forall_mem_cons.1 hfront
        exact .inr ⟨hfirst, front, a, rest', rfl, hfront, ha⟩

/-- What is found is found of the elements that there is something to find of, one by one. -/
theorem forall₂_filterMap (f : α → Option β) (as : List α) :
    List.Forall₂ (fun a b => f a = some b) (as.filter fun a => (f a).isSome) (as.filterMap f) := by
  induction as with
  | nil => exact .nil
  | cons a rest ih =>
    cases ha : f a with
    | none => simpa [ha] using ih
    | some b => simpa [ha] using ih

end SelectiveDisclosure
