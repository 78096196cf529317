import SelectiveDisclosure.Proofs.Messages

/-!
# What is salted

The salted hash of a statement is the hash of the nonce with the text of the statement behind it.
Nothing stands between them, and neither says how long it is. A nonce is any string, it may end like
a statement begins, and the value in a statement may look like another statement. Yet what is hashed
says which nonce and which text it was made of.

The reason is how the text ends. A statement is an object with one member, and an object is closed
by the brace that belongs to the one that opens it, with strings passed over and everything nested
in it balanced. So no text of a statement stands at the end of another, longer one; an end that
looks like a statement lacks a brace or has one too many.

## Main results

* `Statement.text_eq_of_isSuffix` — no text stands at the end of a longer one.
* `Statement.salted_preimage_determines` — what a salted hash is the hash of determines the nonce
  and the text.
-/

namespace SelectiveDisclosure

namespace Statement

variable {s s' : Statement}

/-- **No text of a statement stands at the end of a longer one.** -/
theorem text_eq_of_isSuffix (hs : s.Made) (hs' : s'.Made)
    (h : s.text.toList <:+ s'.text.toList) : s.text = s'.text := by
  obtain ⟨front, hfront⟩ := h
  have joined : String.ofList front ++ s.text = "" ++ s'.text := by
    rw [← String.toList_inj, String.toList_append, String.toList_append, String.toList_ofList,
      hfront]
    rfl
  exact (hs.append_inj hs' joined).2

/-- **The preimage of a salted hash determines what it was made of.** The salted hash is the hash of
the nonce and the text laid end to end. From that the nonce and the text can be told, whatever they
are, and no text stands at the end of another. -/
theorem salted_preimage_determines (hs : s.Made) (hs' : s'.Made) :
    (∀ h nonce, s.salted h nonce = h.hash (utf8 nonce ++ utf8 s.text)) ∧
      (∀ nonce nonce', utf8 nonce ++ utf8 s.text = utf8 nonce' ++ utf8 s'.text →
        nonce = nonce' ∧ s.text = s'.text) ∧
      (s.text.toList <:+ s'.text.toList → s.text = s'.text) :=
  ⟨fun h nonce => salted_eq_hash h s nonce, fun _ _ => (saltedMessage_eq_iff hs hs').1,
    text_eq_of_isSuffix hs hs'⟩

/-- A statement that has another one for its value: with all that stands in front of the inner one
for a nonce, what is hashed is different, by one brace. -/
theorem salted_preimage_of_nested :
    ∃ outer, ofProperty "s" "p" (.object [("@id", .string "x")]) = .ok outer ∧
      outer.text = "\x7b\"s#p\":\x7b\"@id\":\"x\"\x7d\x7d" ∧
      (ofHolder "x").text = "\x7b\"@id\":\"x\"\x7d" ∧
      utf8 "\x7b\"s#p\":" ++ utf8 (ofHolder "x").text ≠ utf8 "" ++ utf8 outer.text ∧
      ¬ (ofHolder "x").text.toList <:+ outer.text.toList := by
  have houter : ofProperty "s" "p" (.object [("@id", .string "x")]) =
      .ok ⟨"p", textOf (predicate "s" "p") (.object [("@id", .string "x")])⟩ :=
    ofProperty_eq_ok_iff.2 ⟨by decide, nofun, rfl⟩
  obtain ⟨-, hjoined, hsuffix⟩ := salted_preimage_determines (.holder "x") (.property houter)
  have hne : (ofHolder "x").text ≠
      textOf (predicate "s" "p") (.object [("@id", .string "x")]) := by decide
  exact ⟨_, houter, by decide, by decide, fun heq => hne (hjoined _ _ heq).2,
    fun hend => hne (hsuffix hend)⟩

end Statement

end SelectiveDisclosure
