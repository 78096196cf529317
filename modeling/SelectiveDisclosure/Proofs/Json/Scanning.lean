import SelectiveDisclosure.Proofs.Json.Quoting

/-!
# No text of an object ends with the text of another

A commitment hashes a nonce and a statement laid end to end, with nothing between them and no
lengths. Whoever opens it may cut the bytes elsewhere. That this gains nothing rests on one
property of compact JSON text: the text of an object is no proper suffix of the text of another.

## The distinction that decides it

Scan a text from its first character and keep only two things: whether the scan stands inside a
string, and how many brackets are open. Suppose the text of an object begins somewhere behind the
start of another and ends with it.

* If the longer text stands *outside* its strings there, its outermost bracket is open, and it
  still is when the shorter text has been read: brackets pair up in the shorter text.
* If it stands *inside* a string there, then the quote behind the first bracket of the shorter text
  ends that string, and from then on exactly one of the two scans is inside a string. For that it
  has to be known that no backslash stands outside a string, or the two could get in step. At the
  end of the texts both scans are outside.

Numbers matter only in that their texts have no quotes, brackets or backslashes.

## Main definitions

* `Scan` — whether a scan stands in a string, and how many brackets are open.
* `Scan.step`, `Scan.run` — reading a character, and reading several.

## Main results

* `Scan.run_chars` — reading the text of a value leads back to where it began.
* `Json.eq_nil_of_append_member` — no text of an object with a member ends with that of another.
* `Json.append_member_inj` — where a prefix ends and the text of an object begins is determined.
-/

namespace SelectiveDisclosure

/-! ### The characters of numbers -/

namespace Number

/-- The characters that a number is written with. -/
def Spells (c : Char) : Prop := c.isDigit = true ∨ c ∈ ['-', '+', '.', 'e']

instance : DecidablePred Spells := fun c =>
  inferInstanceAs (Decidable (c.isDigit = true ∨ c ∈ ['-', '+', '.', 'e']))

theorem not_spells : ∀ c ∈ ['"', '\\', '\x7b', '[', '\x7d', ']'], ¬ Spells c := by
  simp only [List.forall_mem_cons, List.not_mem_nil, false_implies, implies_true, and_true]
  decide

theorem spells_zero : Spells '0' := .inl (by decide)

theorem spells_of_mem_toDigits {n : Nat} {c : Char} (h : c ∈ Nat.toDigits 10 n) : Spells c :=
  .inl (Nat.isDigit_of_mem_toDigits (by decide) (by decide) h)

theorem spells_of_mem_trimmed {ds : List Char} (hds : ∀ c ∈ ds, Spells c) :
    ∀ c ∈ trimmed ds, Spells c := by
  intro c hc
  rw [trimmed] at hc
  split at hc
  · rw [List.mem_singleton.1 hc]
    exact spells_zero
  · have : c ∈ ds.reverse.dropWhile (· = '0') := by simpa using hc
    exact hds c (by simpa using (List.dropWhile_sublist _).subset this)

theorem spells_of_mem_pointed {ds : List Char} (hds : ∀ c ∈ ds, Spells c) (n : Nat) :
    ∀ c ∈ pointed ds n, Spells c := by
  intro c hc
  rcases List.mem_append.1 hc with hc | hc
  · rcases List.mem_append.1 (List.mem_of_mem_take hc) with hc | hc
    · exact hds c hc
    · rw [List.eq_of_mem_replicate hc]
      exact spells_zero
  · rcases List.mem_cons.1 hc with rfl | hc
    · exact .inr (by decide)
    · split at hc
      · rw [List.mem_singleton.1 hc]
        exact spells_zero
      · exact hds c (List.mem_of_mem_drop hc)

theorem spells_of_mem_layOut {ds : List Char} (hds : ∀ c ∈ ds, Spells c) (e : Int) :
    ∀ c ∈ layOut ds e, Spells c := by
  have point : Spells '.' := .inr (by decide)
  have mark : Spells 'e' := .inr (by decide)
  have sign : Spells (if 0 ≤ e then '+' else '-') := by
    split <;> exact .inr (by decide)
  intro c hc
  unfold layOut at hc
  split at hc
  · split at hc
    · exact spells_of_mem_pointed hds _ c hc
    · simp only [List.cons_append, List.mem_cons, List.mem_append] at hc
      rcases hc with rfl | rfl | hc | hc
      · exact spells_zero
      · exact point
      · rw [List.eq_of_mem_replicate hc]
        exact spells_zero
      · exact hds c hc
  · rcases List.mem_append.1 hc with hc | hc
    · match ds, hc with
      | [], hc => exact absurd hc List.not_mem_nil
      | [d], hc => exact hds c hc
      | first :: d :: rest, hc =>
        simp only [List.mem_cons] at hc hds
        rcases hc with rfl | rfl | hc
        · exact hds c (.inl rfl)
        · exact point
        · exact hds c (.inr hc)
    · simp only [List.mem_cons] at hc
      rcases hc with rfl | rfl | hc
      · exact mark
      · exact sign
      · exact spells_of_mem_toDigits hc

theorem spells_of_mem_realChars {x : Binary64} : ∀ c ∈ realChars x, Spells c := by
  intro c hc
  have text : ∀ c ∈ (if x.magnitude = 0 then ['0', '.', '0']
      else layOut (trimmed (Nat.toDigits 10 x.shortest.digits))
        (x.shortest.exponent + (Nat.toDigits 10 x.shortest.digits).length - 1)), Spells c := by
    intro c hc
    split at hc
    · simp only [List.mem_cons, List.not_mem_nil, or_false] at hc
      rcases hc with rfl | rfl | rfl
      · exact spells_zero
      · exact .inr (by decide)
      · exact spells_zero
    · refine spells_of_mem_layOut (spells_of_mem_trimmed ?_) _ c hc
      exact fun c hc => spells_of_mem_toDigits hc
  simp only [realChars] at hc
  split at hc
  · rcases List.mem_cons.1 hc with rfl | hc
    · exact .inr (by decide)
    · exact text c hc
  · exact text c hc

/-- A number is written with digits, signs, a point and an exponent mark only. -/
theorem spells_of_mem_chars {n : Number} : ∀ c ∈ n.chars, Spells c := by
  cases n with
  | whole n =>
    intro c hc
    simp only [chars, wholeChars] at hc
    split at hc
    · rcases List.mem_cons.1 hc with rfl | hc
      · exact .inr (by decide)
      · exact spells_of_mem_toDigits hc
    · exact spells_of_mem_toDigits hc
  | real x => exact spells_of_mem_realChars

end Number

/-! ### The scan -/

/-- Where a scan stands: outside the strings, in a string, or in a string behind a backslash. -/
inductive Scan.Place where
  | outside
  | quoted
  | escaped
  deriving DecidableEq, Repr

/-- Where a scan stands, and how many brackets are open. -/
structure Scan where
  place : Scan.Place
  depth : Nat
  deriving DecidableEq, Repr

namespace Scan

/-- Reads a character. Outside the strings a backslash cannot stand, and neither can a bracket that
closes nothing. -/
def step (s : Scan) (c : Char) : Option Scan :=
  match s.place with
  | .outside =>
    if c = '"' then some ⟨.quoted, s.depth⟩
    else if c = '\\' then none
    else if c = '\x7b' ∨ c = '[' then some ⟨.outside, s.depth + 1⟩
    else if c = '\x7d' ∨ c = ']' then
      match s.depth with
      | 0 => none
      | depth + 1 => some ⟨.outside, depth⟩
    else some ⟨.outside, s.depth⟩
  | .quoted =>
    if c = '"' then some ⟨.outside, s.depth⟩
    else if c = '\\' then some ⟨.escaped, s.depth⟩
    else some ⟨.quoted, s.depth⟩
  | .escaped => some ⟨.quoted, s.depth⟩

/-- Reads several characters. -/
def run : Scan → List Char → Option Scan
  | s, [] => some s
  | s, c :: rest => (s.step c).bind (run · rest)

theorem run_append (s : Scan) (xs ys : List Char) :
    s.run (xs ++ ys) = (s.run xs).bind (·.run ys) := by
  induction xs generalizing s with
  | nil => rfl
  | cons c xs ih => cases h : s.step c <;> simp [run, h, ih]

theorem run_append_of_eq_some {s t : Scan} {xs : List Char} (h : s.run xs = some t)
    (ys : List Char) : s.run (xs ++ ys) = t.run ys := by
  rw [run_append, h, Option.bind_some]

theorem run_cons_of_eq_some {s t : Scan} {c : Char} (h : s.step c = some t) (rest : List Char) :
    s.run (c :: rest) = t.run rest := by
  rw [run, h, Option.bind_some]

/-! ### The text of a value leads back -/

theorem step_outside {c : Char} (hq : c ≠ '"') (hb : c ≠ '\\') (ho : c ≠ '\x7b' ∧ c ≠ '[')
    (hc : c ≠ '\x7d' ∧ c ≠ ']') (depth : Nat) :
    step ⟨.outside, depth⟩ c = some ⟨.outside, depth⟩ := by
  simp [step, hq, hb, ho, hc]

theorem run_of_spells {cs : List Char} (h : ∀ c ∈ cs, Number.Spells c) (depth : Nat) :
    run ⟨.outside, depth⟩ cs = some ⟨.outside, depth⟩ := by
  induction cs with
  | nil => rfl
  | cons c cs ih =>
    have hc : step ⟨.outside, depth⟩ c = some ⟨.outside, depth⟩ := by
      have hne : ∀ d ∈ ['"', '\\', '\x7b', '[', '\x7d', ']'], c ≠ d := by
        rintro d hd rfl
        exact Number.not_spells c hd (h c List.mem_cons_self)
      simp only [List.forall_mem_cons] at hne
      obtain ⟨hq, hb, ho, ho', hc, hc', -⟩ := hne
      exact step_outside hq hb ⟨ho, ho'⟩ ⟨hc, hc'⟩ depth
    rw [run_cons_of_eq_some hc]
    exact ih fun c hc => h c (List.mem_cons_of_mem _ hc)

theorem digit_ne_of_lt : ∀ n < 16, Hex.digit n ≠ '"' ∧ Hex.digit n ≠ '\\' := by decide

theorem run_escape (c : Char) (depth : Nat) :
    run ⟨.quoted, depth⟩ (Json.escape c) = some ⟨.quoted, depth⟩ := by
  rcases Json.escape_forms c with ⟨-, hq, hb, he⟩ | ⟨letter, -, -, he⟩ | ⟨h, he⟩ <;> rw [he]
  · simp [run, step, hq, hb]
  · simp [run, step]
  · have high := digit_ne_of_lt (c.toNat / 16) (by omega)
    have low := digit_ne_of_lt (c.toNat % 16) (by omega)
    simp [run, step, high, low]

theorem run_quote (s : String) (depth : Nat) :
    run ⟨.outside, depth⟩ (Json.quote s) = some ⟨.outside, depth⟩ := by
  have inner : ∀ cs : List Char,
      run ⟨.quoted, depth⟩ (cs.flatMap Json.escape) = some ⟨.quoted, depth⟩ := by
    intro cs
    induction cs with
    | nil => rfl
    | cons c cs ih => rw [List.flatMap_cons, run_append_of_eq_some (run_escape c depth), ih]
  have opened : step ⟨.outside, depth⟩ '"' = some ⟨.quoted, depth⟩ := rfl
  rw [Json.quote, List.cons_append, run_cons_of_eq_some opened, run_append_of_eq_some (inner _)]
  rfl

theorem step_opening {c : Char} (h : c = '\x7b' ∨ c = '[') (depth : Nat) :
    step ⟨.outside, depth⟩ c = some ⟨.outside, depth + 1⟩ := by
  rcases h with rfl | rfl <;> rfl

theorem step_closing {c : Char} (h : c = '\x7d' ∨ c = ']') (depth : Nat) :
    step ⟨.outside, depth + 1⟩ c = some ⟨.outside, depth⟩ := by
  rcases h with rfl | rfl <;> rfl

theorem step_separator {c : Char} (h : c = ',' ∨ c = ':') (depth : Nat) :
    step ⟨.outside, depth⟩ c = some ⟨.outside, depth⟩ := by
  rcases h with rfl | rfl <;> rfl

mutual

/-- **Reading the text of a value leads back to where it began**: the strings in it are closed and
the brackets pair up. -/
theorem run_chars : (j : Json) → (depth : Nat) →
    run ⟨.outside, depth⟩ j.chars = some ⟨.outside, depth⟩
  | .null, depth | .bool true, depth | .bool false, depth => by
    rw [Json.chars]
    rfl
  | .number n, depth => by
    rw [Json.chars]
    exact run_of_spells Number.spells_of_mem_chars depth
  | .string s, depth => by
    rw [Json.chars]
    exact run_quote s depth
  | .array [], depth | .object [], depth => by
    rw [Json.chars]
    rfl
  | .array (item :: rest), depth => by
    rw [Json.chars, run_cons_of_eq_some (step_opening (.inr rfl) depth),
      run_append_of_eq_some (run_chars item _), run_append_of_eq_some (run_moreItems rest _),
      run_cons_of_eq_some (step_closing (.inr rfl) depth), run]
  | .object ((name, value) :: rest), depth => by
    rw [Json.chars, run_cons_of_eq_some (step_opening (.inl rfl) depth),
      run_append_of_eq_some (run_quote name _), run_cons_of_eq_some (step_separator (.inr rfl) _),
      run_append_of_eq_some (run_chars value _), run_append_of_eq_some (run_moreMembers rest _),
      run_cons_of_eq_some (step_closing (.inl rfl) depth), run]

theorem run_moreItems : (items : List Json) → (depth : Nat) →
    run ⟨.outside, depth⟩ (Json.moreItems items) = some ⟨.outside, depth⟩
  | [], depth => by rw [Json.moreItems, run]
  | item :: rest, depth => by
    rw [Json.moreItems, run_cons_of_eq_some (step_separator (.inl rfl) depth),
      run_append_of_eq_some (run_chars item depth), run_moreItems rest depth]

theorem run_moreMembers : (members : List (String × Json)) → (depth : Nat) →
    run ⟨.outside, depth⟩ (Json.moreMembers members) = some ⟨.outside, depth⟩
  | [], depth => by rw [Json.moreMembers, run]
  | (name, value) :: rest, depth => by
    rw [Json.moreMembers, run_cons_of_eq_some (step_separator (.inl rfl) depth),
      run_append_of_eq_some (run_quote name depth),
      run_cons_of_eq_some (step_separator (.inr rfl) depth),
      run_append_of_eq_some (run_chars value depth), run_moreMembers rest depth]

end

/-! ### Two scans of one text -/

/-- Reading below one more open bracket is reading, below one more open bracket. -/
theorem step_deeper {p q : Place} {d e : Nat} {c : Char} (h : step ⟨p, d⟩ c = some ⟨q, e⟩) :
    step ⟨p, d + 1⟩ c = some ⟨q, e + 1⟩ := by
  cases p with
  | quoted | escaped => grind [step]
  | outside => cases d <;> grind [step]

theorem run_deeper {p q : Place} {d e : Nat} {cs : List Char}
    (h : run ⟨p, d⟩ cs = some ⟨q, e⟩) : run ⟨p, d + 1⟩ cs = some ⟨q, e + 1⟩ := by
  induction cs generalizing p d with
  | nil =>
    cases h
    rfl
  | cons c cs ih =>
    obtain ⟨⟨p', d'⟩, hstep, hrest⟩ := Option.bind_eq_some_iff.1 h
    rw [run_cons_of_eq_some (step_deeper hstep)]
    exact ih hrest

/-- Two scans of which exactly one is in a string, and not behind a backslash. -/
def Opposed (s t : Scan) : Prop :=
  (s.place = .outside ∧ t.place = .quoted) ∨ (s.place = .quoted ∧ t.place = .outside)

theorem Opposed.symm {s t : Scan} (h : Opposed s t) : Opposed t s :=
  (Or.symm h).imp And.symm And.symm

/-- Outside the strings only a quote leads into one, and a backslash stops the scan. -/
theorem place_of_step_outside {d : Nat} {c : Char} {t : Scan}
    (h : step ⟨.outside, d⟩ c = some t) :
    c ≠ '\\' ∧ t.place = if c = '"' then .quoted else .outside := by
  cases d <;> grind [step]

theorem step_quoted {c : Char} (hb : c ≠ '\\') (d : Nat) :
    step ⟨.quoted, d⟩ c = some ⟨if c = '"' then .outside else .quoted, d⟩ := by
  by_cases hq : c = '"' <;> simp [step, hq, hb]

/-- A quote moves both scans to the other side, a backslash stops the one outside, and nothing else
matters. -/
theorem opposed_of_step {d e : Nat} {c : Char} {s t : Scan} (hs : step ⟨.outside, d⟩ c = some s)
    (ht : step ⟨.quoted, e⟩ c = some t) : Opposed s t := by
  obtain ⟨hb, hplace⟩ := place_of_step_outside hs
  rw [step_quoted hb, Option.some.injEq] at ht
  subst ht
  by_cases hq : c = '"'
  · exact .inr ⟨by rw [hplace, if_pos hq], if_pos hq⟩
  · exact .inl ⟨by rw [hplace, if_neg hq], if_neg hq⟩

theorem Opposed.step {s t s' t' : Scan} (h : Opposed s t) {c : Char} (hs : s.step c = some s')
    (ht : t.step c = some t') : Opposed s' t' := by
  obtain ⟨p, d⟩ := s
  obtain ⟨q, e⟩ := t
  rcases h with ⟨rfl, rfl⟩ | ⟨rfl, rfl⟩
  · exact opposed_of_step hs ht
  · exact (opposed_of_step ht hs).symm

theorem Opposed.run {s t s' t' : Scan} (h : Opposed s t) {cs : List Char}
    (hs : s.run cs = some s') (ht : t.run cs = some t') : Opposed s' t' := by
  induction cs generalizing s t with
  | nil =>
    cases hs
    cases ht
    exact h
  | cons c cs ih =>
    obtain ⟨s₁, hs₁, hs⟩ := Option.bind_eq_some_iff.1 hs
    obtain ⟨t₁, ht₁, ht⟩ := Option.bind_eq_some_iff.1 ht
    exact ih (h.step hs₁ ht₁) hs ht

end Scan

/-! ### Objects with one member -/

namespace Json

/-- The text of an object with one member, between its brackets. -/
def memberChars (name : String) (value : Json) : List Char := quote name ++ ':' :: value.chars

theorem chars_object_singleton (name : String) (value : Json) :
    (object [(name, value)]).chars = '\x7b' :: (memberChars name value ++ ['\x7d']) := by
  rw [chars, moreMembers, memberChars]
  simp

theorem run_memberChars (name : String) (value : Json) (depth : Nat) :
    Scan.run ⟨.outside, depth⟩ (memberChars name value) = some ⟨.outside, depth⟩ := by
  rw [memberChars, Scan.run_append_of_eq_some (Scan.run_quote name depth),
    Scan.run_cons_of_eq_some (Scan.step_separator (.inr rfl) depth), Scan.run_chars]

variable {name name' : String} {value value' : Json}

/-- **No text of an object with one member ends with that of another.** -/
theorem eq_nil_of_append_member {xs : List Char}
    (h : xs ++ (object [(name, value)]).chars = (object [(name', value')]).chars) : xs = [] := by
  have whole := Scan.run_chars (object [(name', value')]) 0
  rw [← h, Scan.run_append] at whole
  obtain ⟨⟨place, depth⟩, hxs, hrest⟩ := Option.bind_eq_some_iff.1 whole
  cases xs with
  | nil => rfl
  | cons c xs =>
    rw [chars_object_singleton name', List.cons_append, List.cons.injEq] at h
    obtain ⟨rfl, h⟩ := h
    exfalso
    cases place with
    | outside =>
      -- The brackets of the shorter text pair up, so none is open in front of it. But the first
      -- bracket of the longer text is.
      rw [Scan.run_chars, Option.some.injEq] at hrest
      obtain rfl : depth = 0 := congrArg Scan.depth hrest
      have front : xs ++ '\x7b' :: memberChars name value = memberChars name' value' := by
        rw [chars_object_singleton name, ← List.cons_append, ← List.append_assoc] at h
        exact List.append_cancel_right h
      have inner := run_memberChars name' value' 0
      rw [← front, Scan.run_append] at inner
      obtain ⟨⟨p, d⟩, hinner, -⟩ := Option.bind_eq_some_iff.1 inner
      rw [Scan.run_cons_of_eq_some (Scan.step_opening (.inl rfl) 0),
        Scan.run_deeper hinner] at hxs
      cases hxs
    | quoted | escaped =>
      -- The quote behind the first bracket of the shorter text ends the string that the longer one
      -- stands in, and from then on the two scans are opposed. But both end outside.
      have own := Scan.run_chars (object [(name, value)]) 0
      rw [chars_object_singleton name, memberChars, quote] at own hrest
      simp only [List.cons_append, List.append_assoc] at own hrest
      have opposed := Scan.Opposed.run (s := ⟨.quoted, 1⟩) (t := ⟨.outside, depth⟩)
        (.inr ⟨rfl, rfl⟩) own hrest
      rcases opposed with ⟨-, h⟩ | ⟨h, -⟩ <;> cases h

/-- **Where a prefix ends and the text of an object with one member begins is determined.** -/
theorem append_member_inj {xs ys : List Char}
    (h : xs ++ (object [(name, value)]).chars = ys ++ (object [(name', value')]).chars) :
    xs = ys ∧ (object [(name, value)]).chars = (object [(name', value')]).chars := by
  rcases List.append_eq_append_iff.1 h with ⟨mid, rfl, hmid⟩ | ⟨mid, rfl, hmid⟩
  · obtain rfl := eq_nil_of_append_member hmid.symm
    simpa using hmid
  · obtain rfl := eq_nil_of_append_member hmid.symm
    simpa using hmid.symm

end Json

end SelectiveDisclosure
