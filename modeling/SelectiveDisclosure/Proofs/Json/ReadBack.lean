import SelectiveDisclosure.Json.Document
import SelectiveDisclosure.Proofs.Json.Unambiguous

/-!
# What is written is read back

The text of a value is read as the tree of the value, whatever its strings hold and however deeply
it nests, as long as its numbers are whole and in the range in which whole numbers stay whole.

## Where a value ends

A number has no closing mark. When its last digit has been read nothing is finished yet: the state
of reading is that of a numeral which may end there. So what is proved of every value is that
reading it *settles* it. A settled value is finished, or is such a numeral, and a comma or a closing
bracket behind it does the same to both.

## Main definitions

* `Number.isExact`, `Json.Exact` — whole numbers that are read as they were written.
* `Reading.run` — reading several characters.
* `Reading.Settled` — a value has been read.

## Main results

* `Numeral.reads_wholeChars` — a whole number in the range is read as itself.
* `Reading.settled_chars` — reading the text of a value settles the tree of the value.
* `Document.read_text` — the text of a value is read as the tree of the value.
-/

namespace SelectiveDisclosure

/-! ### Numbers that are read as they were written -/

/-- Whether a number is whole and in the range in which whole numbers stay whole. -/
def Number.isExact : Number → Bool
  | .whole n => decide (-(Nat.pow 2 63 : Nat) ≤ n) && decide (n < (Nat.pow 2 64 : Nat))
  | .real _ => false

/-- Whether all numbers of a value are whole and in the range in which whole numbers stay whole. -/
def Json.Exact (j : Json) : Prop := j.everyNumber Number.isExact = true

instance (j : Json) : Decidable j.Exact :=
  inferInstanceAs (Decidable (j.everyNumber Number.isExact = true))

namespace Numeral

/-- Reads characters that all belong to the numeral. -/
def read? : Numeral → List Char → Option Numeral
  | n, [] => some n
  | n, c :: rest =>
    match n.push c with
    | .more n => n.read? rest
    | .over | .wrong => none

theorem read?_append_of_eq_some {n m : Numeral} {xs : List Char} (h : n.read? xs = some m)
    (ys : List Char) : n.read? (xs ++ ys) = m.read? ys := by
  induction xs generalizing n with
  | nil =>
    cases h
    rfl
  | cons c xs ih =>
    rw [read?] at h
    rw [List.cons_append, read?]
    cases hpush : n.push c with
    | more n' =>
      rw [hpush] at h
      exact ih h
    | _ =>
      rw [hpush] at h
      cases h

/-- The numeral of digits without point and exponent, given last first. -/
def ofWhole (negative : Bool) (ds : List Nat) : Numeral := ⟨.whole, negative, ds, [], false, []⟩

theorem digit?_digitChar : ∀ d < 10, digit? (Nat.digitChar d) = some d := by decide

theorem digitChar_ne_minus : ∀ d < 10, Nat.digitChar d ≠ '-' := by decide

theorem push_ofWhole (negative : Bool) (ds : List Nat) {d : Nat} (hd : d < 10) :
    (ofWhole negative ds).push (Nat.digitChar d) = .more (ofWhole negative (d :: ds)) := by
  simp [push, ofWhole, digit?_digitChar d hd]

/-- The digits of a positive number begin with one that is not zero, and from there on they are read
into a numeral that spells the number. -/
theorem exists_toDigits_eq_cons {n : Nat} (hn : 0 < n) :
    ∃ d rest ds, (0 < d ∧ d < 10) ∧ Nat.toDigits 10 n = Nat.digitChar d :: rest ∧ spelled ds = n ∧
      ∀ negative, (ofWhole negative [d]).read? rest = some (ofWhole negative ds) := by
  induction n using Nat.strongRecOn with
  | ind n ih =>
    rcases Nat.lt_or_ge n 10 with hlt | hge
    · exact ⟨n, [], [n], ⟨hn, hlt⟩, Nat.toDigits_of_lt_base hlt, by simp [spelled], fun _ => rfl⟩
    · obtain ⟨d, rest, ds, hd, hdigits, hspelled, hread⟩ := ih (n / 10) (by omega) (by omega)
      have hlast : n % 10 < 10 := by omega
      refine ⟨d, rest ++ [Nat.digitChar (n % 10)], n % 10 :: ds, hd, ?_, ?_, fun negative => ?_⟩
      · rw [Nat.toDigits_of_base_le (by omega) hge, hdigits, List.cons_append]
      · have hstep : spelled (n % 10 :: ds) = n % 10 + 10 * spelled ds := rfl
        rw [hstep, hspelled]
        omega
      · rw [read?_append_of_eq_some (hread negative), read?, push_ofWhole negative ds hlast]
        rfl

theorem fill_append_of_eq {s t : Nat} {xs : List Nat} (h : fill s xs = (t, 0)) (ys : List Nat) :
    fill s (xs ++ ys) = fill t ys := by
  induction xs generalizing s with
  | nil =>
    cases h
    rfl
  | cons d xs ih =>
    rw [fill] at h
    rw [List.cons_append, fill]
    split at h
    · next hlt => rw [if_pos hlt, ih h]
    · exact absurd (congrArg Prod.snd h) (Nat.succ_ne_zero _)

/-- Below `2 ^ 64` no digit is left over. -/
theorem fill_reverse {ds : List Nat} (h : spelled ds < Nat.pow 2 64) :
    fill 0 ds.reverse = (spelled ds, 0) := by
  induction ds with
  | nil => rfl
  | cons d ds ih =>
    have hstep : spelled (d :: ds) = 10 * spelled ds + d := Nat.add_comm _ _
    rw [hstep] at h
    rw [List.reverse_cons, fill_append_of_eq (ih (by omega)), fill, if_pos h, fill, hstep]

theorem value?_ofWhole_false {ds : List Nat} (h : spelled ds < Nat.pow 2 64) :
    (ofWhole false ds).value? = some (.whole (spelled ds)) := by
  simp [value?, ofWhole, fill_reverse h]

theorem value?_ofWhole_true {ds : List Nat} (hpos : 0 < spelled ds)
    (h : spelled ds ≤ Nat.pow 2 63) :
    (ofWhole true ds).value? = some (.whole (-(spelled ds : Int))) := by
  have hlt : spelled ds < Nat.pow 2 64 := Nat.lt_of_le_of_lt h (by decide)
  simp only [value?, ofWhole, fill_reverse hlt]
  simp [hpos, h]

/-- What it takes to read a number from its first character to its last. -/
def Reads (cs : List Char) (n : Number) : Prop :=
  ∃ c rest first last, cs = c :: rest ∧ start? c = some first ∧ first.read? rest = some last ∧
    last.ends = true ∧ last.value? = some n

/-- **A whole number in the range is read as itself.** -/
theorem reads_wholeChars {n : Int} (h : (Number.whole n).isExact = true) :
    Reads (Number.wholeChars n) (.whole n) := by
  simp only [Number.isExact, Bool.and_eq_true, decide_eq_true_eq] at h
  obtain ⟨hleast, hgreatest⟩ := h
  rw [Number.wholeChars]
  rcases Int.lt_trichotomy n 0 with hneg | rfl | hpos
  · obtain ⟨d, rest, ds, ⟨hd, hten⟩, hdigits, hspelled, hread⟩ :=
      exists_toDigits_eq_cons (n := n.natAbs) (by omega)
    refine ⟨'-', Nat.digitChar d :: rest, ⟨.sign, true, [], [], false, []⟩, ofWhole true ds, ?_,
      rfl, ?_, rfl, ?_⟩
    · rw [if_pos hneg, hdigits]
    · have hpush : push ⟨.sign, true, [], [], false, []⟩ (Nat.digitChar d) =
          .more (ofWhole true [d]) := by
        cases d with
        | zero => exact absurd hd (Nat.lt_irrefl 0)
        | succ d => simp [push, ofWhole, digit?_digitChar (d + 1) hten]
      rw [read?, hpush]
      exact hread true
    · rw [value?_ofWhole_true (by omega) (by omega), hspelled]
      congr 2
      omega
  · exact ⟨'0', [], ⟨.zero, false, [0], [], false, []⟩, _, rfl, rfl, rfl, rfl, rfl⟩
  · obtain ⟨d, rest, ds, ⟨hd, hten⟩, hdigits, hspelled, hread⟩ :=
      exists_toDigits_eq_cons (n := n.natAbs) (by omega)
    refine ⟨Nat.digitChar d, rest, ofWhole false [d], ofWhole false ds, ?_, ?_, hread false, rfl,
      ?_⟩
    · rw [if_neg (by omega), hdigits]
    · cases d with
      | zero => exact absurd hd (Nat.lt_irrefl 0)
      | succ d =>
        simp [start?, ofWhole, digitChar_ne_minus (d + 1) hten, digit?_digitChar (d + 1) hten]
    · rw [value?_ofWhole_false (by omega), hspelled]
      congr 2
      omega

/-- In front of a comma or a closing bracket a numeral that may end is over. -/
theorem push_eq_over {n : Numeral} (hends : n.ends = true) :
    ∀ c ∈ [',', ']', '\x7d'], n.push c = .over := by
  obtain ⟨place, negative, whole, fraction, exponentNegative, exponent⟩ := n
  have comma : digit? ',' = none := by decide
  have bracket : digit? ']' = none := by decide
  have brace : digit? '\x7d' = none := by decide
  cases place <;> simp_all [ends, push]

end Numeral

/-! ### Strings -/

/-- Whether a value may start. -/
def Mode.Awaits (mode : Mode) : Prop := mode = .value ∨ mode = .itemOrEnd

namespace Reading

/-- Reads several characters. -/
def run (r : Reading) (cs : List Char) : Reading := cs.foldl push r

@[simp] theorem run_nil (r : Reading) : r.run [] = r := rfl

theorem run_cons (r : Reading) (c : Char) (cs : List Char) : r.run (c :: cs) = (r.push c).run cs :=
  rfl

theorem run_append (r : Reading) (xs ys : List Char) : r.run (xs ++ ys) = (r.run xs).run ys :=
  List.foldl_append

variable {mode : Mode} {frames outer : List Frame}

/-- Reads a literal from behind its opening quote on, where `after` is what becomes of its value. -/
theorem run_literal {isName : Bool} {after : Option String → Reading}
    (hafter : ∀ (l : Literal) value, (if isName then named ⟨.literal l isName, frames, false⟩ value
      else finished (.string value) frames) = after value)
    {l : Literal} {cs rest : List Char} {value : Option String}
    (h : l.read cs = some (value, rest)) :
    run ⟨.literal l isName, frames, false⟩ cs = run (after value) rest := by
  induction cs generalizing l with
  | nil => cases h
  | cons c cs ih =>
    rw [Literal.read] at h
    rw [run_cons]
    rcases hpush : l.push c with m | found | _
    · rw [hpush] at h
      have step : push ⟨.literal l isName, frames, false⟩ c =
          ⟨.literal m isName, frames, false⟩ := by
        simp [push, hpush]
      rw [step, ih h]
    · rw [hpush] at h
      obtain ⟨rfl, rfl⟩ := Prod.mk.inj (Option.some.inj h)
      have step : push ⟨.literal l isName, frames, false⟩ c = after found := by
        simp [push, hpush, ← hafter l found]
      rw [step]
    · rw [hpush] at h
      cases h

theorem run_quote (h : mode.Awaits) (s : String) :
    run ⟨mode, frames, false⟩ (Json.quote s) = finished (.string (some s)) frames := by
  have opened : push ⟨mode, frames, false⟩ '"' = ⟨.literal .start false, frames, false⟩ := by
    rcases h with rfl | rfl <;> rfl
  have closed := Literal.read_quote s []
  rw [Json.quote, List.cons_append, run_cons, opened, run_literal (fun _ _ => rfl) closed]
  rfl

/-- A name and the colon behind it open a member. -/
theorem run_name (h : mode = .name ∨ mode = .nameOrEnd) (done : List (Option String × Tree))
    (name : String) (rest : List Char) :
    run ⟨mode, .object done :: outer, false⟩ (Json.quote name ++ ':' :: rest) =
      run ⟨.value, .member done (some name) :: outer, false⟩ rest := by
  have opened : push ⟨mode, .object done :: outer, false⟩ '"' =
      ⟨.literal .start true, .object done :: outer, false⟩ := by
    rcases h with rfl | rfl <;> rfl
  have closed := Literal.read_quote name (':' :: rest)
  have text : Json.quote name ++ ':' :: rest =
      '"' :: (name.toList.flatMap Json.escape ++ '"' :: ':' :: rest) := by
    simp [Json.quote]
  rw [text, run_cons, opened, run_literal (fun _ _ => rfl) closed]
  rfl

/-! ### Settled values -/

/-- The states in which a value has been read inside these frames: it is finished, or it is a number
that may end where it stands. -/
inductive Settled (value : Tree) (frames : List Frame) : Reading → Prop
  | finished : Settled value frames (finished value frames)
  | numeral (n : Numeral) (hends : n.ends = true) (hvalue : value = .number n.value?) :
    Settled value frames ⟨.numeral n, frames, false⟩

/-- A comma or a closing bracket does the same behind all of them. -/
theorem Settled.push_eq {value : Tree} {r : Reading} (h : Settled value frames r) :
    ∀ c ∈ [',', ']', '\x7d'], r.push c = (Reading.finished value frames).push c := by
  intro c hc
  cases h with
  | finished => rfl
  | numeral n hends hvalue =>
    have hover := Numeral.push_eq_over hends c hc
    subst hvalue
    have pushed : push ⟨.numeral n, frames, false⟩ c =
        (Reading.finished (.number n.value?) frames).pushNext c := by
      simp [push, hover]
    rw [pushed]
    cases frames with
    | nil => rfl
    | cons frame outer => cases frame <;> rfl

section Settled

variable {value : Tree} {name : Option String} {r : Reading} {items : List Tree}
  {members : List (Option String × Tree)}

theorem Settled.push_comma_array (h : Settled value (.array items :: outer) r) :
    r.push ',' = ⟨.value, .array (value :: items) :: outer, false⟩ :=
  h.push_eq ',' (by decide)

theorem Settled.push_close_array (h : Settled value (.array items :: outer) r) :
    r.push ']' = Reading.finished (.array (value :: items).reverse true) outer :=
  h.push_eq ']' (by decide)

theorem Settled.push_comma_member (h : Settled value (.member members name :: outer) r) :
    r.push ',' = ⟨.name, .object ((name, value) :: members) :: outer, false⟩ :=
  h.push_eq ',' (by decide)

theorem Settled.push_close_member (h : Settled value (.member members name :: outer) r) :
    r.push '\x7d' = Reading.finished (.object ((name, value) :: members).reverse true) outer :=
  h.push_eq '\x7d' (by decide)

end Settled

theorem run_numeral {n m : Numeral} {cs : List Char} (h : n.read? cs = some m) :
    run ⟨.numeral n, frames, false⟩ cs = ⟨.numeral m, frames, false⟩ := by
  induction cs generalizing n with
  | nil =>
    cases h
    rfl
  | cons c cs ih =>
    rw [Numeral.read?] at h
    cases hpush : n.push c with
    | more n' =>
      rw [hpush] at h
      have step : push ⟨.numeral n, frames, false⟩ c = ⟨.numeral n', frames, false⟩ := by
        simp [push, hpush]
      rw [run_cons, step, ih h]
    | _ =>
      rw [hpush] at h
      cases h

/-- A character that starts a numeral starts nothing else. -/
theorem push_start {c : Char} {n : Numeral} (h : mode.Awaits) (hstart : Numeral.start? c = some n) :
    push ⟨mode, frames, false⟩ c = ⟨.numeral n, frames, false⟩ := by
  have other : ∀ d ∈ [' ', '\t', '\n', '\r', ']', '"', '[', '\x7b', 'n', 't', 'f'], c ≠ d := by
    rintro d hd rfl
    have none : ([' ', '\t', '\n', '\r', ']', '"', '[', '\x7b', 'n', 't', 'f'].all
        fun d => (Numeral.start? d).isNone) = true := by decide
    have started := List.all_eq_true.1 none c hd
    rw [hstart] at started
    cases started
  simp only [List.forall_mem_cons] at other
  rcases h with rfl | rfl <;> simp [push, isSpace, startValue, other, hstart]

theorem settled_number {n : Number} {cs : List Char} (h : mode.Awaits)
    (hreads : Numeral.Reads cs n) :
    Settled (.number (some n)) frames (run ⟨mode, frames, false⟩ cs) := by
  obtain ⟨c, rest, first, last, rfl, hstart, hrest, hends, hvalue⟩ := hreads
  rw [run_cons, push_start h hstart, run_numeral hrest]
  exact .numeral last hends (by rw [hvalue])

/-! ### The induction -/

mutual

/-- **Reading the text of a value settles the tree of the value.** -/
theorem settled_chars : (j : Json) → j.Exact → {mode : Mode} → mode.Awaits →
    {frames : List Frame} → Settled (Tree.ofJson j) frames (run ⟨mode, frames, false⟩ j.chars)
  | .null, _, _, h, _ | .bool true, _, _, h, _ | .bool false, _, _, h, _ => by
    rw [Json.chars, Tree.ofJson]
    rcases h with rfl | rfl <;> exact .finished
  | .number (.whole n), hj, _, h, _ => by
    rw [Json.chars, Tree.ofJson]
    exact settled_number h (Numeral.reads_wholeChars hj)
  | .string s, _, _, h, _ => by
    rw [Json.chars, Tree.ofJson, run_quote h]
    exact .finished
  | .array [], _, _, h, _ => by
    rw [Json.chars, Tree.ofJson, Tree.ofItems]
    rcases h with rfl | rfl <;> exact .finished
  | .object [], _, _, h, _ => by
    rw [Json.chars, Tree.ofJson, Tree.ofMembers]
    rcases h with rfl | rfl <;> exact .finished
  | .array (item :: rest), hj, mode, h, frames => by
    rw [Json.Exact, Json.everyNumber, Json.everyNumberItems, Bool.and_eq_true] at hj
    have opened : push ⟨mode, frames, false⟩ '[' = ⟨.itemOrEnd, .array [] :: frames, false⟩ := by
      rcases h with rfl | rfl <;> rfl
    have first : Settled (Tree.ofJson item) (.array [] :: frames)
        (run ⟨.itemOrEnd, .array [] :: frames, false⟩ item.chars) :=
      settled_chars item hj.1 (.inr rfl)
    rw [Json.chars, run_cons, opened, run_append, run_moreItems rest hj.2 first]
    exact .finished
  | .object ((name, value) :: rest), hj, mode, h, frames => by
    rw [Json.Exact, Json.everyNumber, Json.everyNumberMembers, Bool.and_eq_true] at hj
    have opened : push ⟨mode, frames, false⟩ '\x7b' =
        ⟨.nameOrEnd, .object [] :: frames, false⟩ := by
      rcases h with rfl | rfl <;> rfl
    have first : Settled (Tree.ofJson value) (.member [] (some name) :: frames)
        (run ⟨.value, .member [] (some name) :: frames, false⟩ value.chars) :=
      settled_chars value hj.1 (.inl rfl)
    rw [Json.chars, run_cons, opened, run_name (.inr rfl), run_append,
      run_moreMembers rest hj.2 first]
    exact .finished

/-- The items behind one that is settled are read up to the end of the array. -/
theorem run_moreItems : (items : List Json) →
    Json.everyNumberItems Number.isExact items = true → {value : Tree} → {done : List Tree} →
    {outer : List Frame} → {r : Reading} → Settled value (.array done :: outer) r →
    r.run (Json.moreItems items ++ [']']) =
      finished (.array (done.reverse ++ value :: Tree.ofItems items) true) outer
  | [], _, value, done, outer, r, h => by
    rw [Json.moreItems, List.nil_append, run_cons, h.push_close_array, run_nil, Tree.ofItems,
      List.reverse_cons]
  | item :: rest, hitems, value, done, outer, r, h => by
    rw [Json.everyNumberItems, Bool.and_eq_true] at hitems
    have next : Settled (Tree.ofJson item) (.array (value :: done) :: outer)
        (run ⟨.value, .array (value :: done) :: outer, false⟩ item.chars) :=
      settled_chars item hitems.1 (.inl rfl)
    rw [Json.moreItems, List.cons_append, run_cons, h.push_comma_array, List.append_assoc,
      run_append, run_moreItems rest hitems.2 next, Tree.ofItems, List.reverse_cons,
      List.append_assoc, List.singleton_append]

/-- The members behind one that is settled are read up to the end of the object. -/
theorem run_moreMembers : (members : List (String × Json)) →
    Json.everyNumberMembers Number.isExact members = true → {value : Tree} →
    {name : Option String} → {done : List (Option String × Tree)} → {outer : List Frame} →
    {r : Reading} → Settled value (.member done name :: outer) r →
    r.run (Json.moreMembers members ++ ['\x7d']) =
      finished (.object (done.reverse ++ (name, value) :: Tree.ofMembers members) true) outer
  | [], _, value, name, done, outer, r, h => by
    rw [Json.moreMembers, List.nil_append, run_cons, h.push_close_member, run_nil, Tree.ofMembers,
      List.reverse_cons]
  | (other, item) :: rest, hmembers, value, name, done, outer, r, h => by
    rw [Json.everyNumberMembers, Bool.and_eq_true] at hmembers
    have next : Settled (Tree.ofJson item) (.member ((name, value) :: done) (some other) :: outer)
        (run ⟨.value, .member ((name, value) :: done) (some other) :: outer, false⟩ item.chars) :=
      settled_chars item hmembers.1 (.inl rfl)
    rw [Json.moreMembers, List.cons_append, run_cons, h.push_comma_member, List.append_assoc,
      List.cons_append, run_name (.inl rfl), List.append_assoc, run_append,
      run_moreMembers rest hmembers.2 next, Tree.ofMembers, List.reverse_cons, List.append_assoc,
      List.singleton_append]

end

/-- The document of what has been read. -/
def document (r : Reading) : Document :=
  ⟨r.tree, match r.mode with
    | .ended _ => r.stuck
    | _ => false⟩

/-- A value that is settled with nothing open around it is the whole document. -/
theorem Settled.document_eq {value : Tree} {r : Reading} (h : Settled value [] r) :
    r.document = ⟨value, false⟩ := by
  cases h with
  | finished => rfl
  | numeral n hends hvalue => simp [document, tree, inner, enclose, hends, hvalue]

end Reading

/-- **The text of a value is read as the tree of the value**, with nothing behind it. -/
theorem Document.read_text {j : Json} (h : j.Exact) :
    Document.read j.text = ⟨Tree.ofJson j, false⟩ := by
  have settled : Reading.Settled (Tree.ofJson j) [] (Reading.start.run j.chars) :=
    Reading.settled_chars j h (.inl rfl)
  have document : Document.read j.text = (Reading.start.run j.chars).document := by
    rw [Document.read, Json.text, String.toList_ofList]
    rfl
  rw [document]
  exact settled.document_eq

end SelectiveDisclosure
