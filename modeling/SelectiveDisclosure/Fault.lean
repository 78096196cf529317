import SelectiveDisclosure.Text.Quoted

/-!
# Faults

What stops an operation: malformed content, an identifier or key that cannot be read, a nonce that
was not supplied. A fault ends the operation it arises in, unlike a finding of a verification, which
is collected with the others.

## Main definitions

* `Fault` — the causes.
* `Fault.message` — the text of each.

## Main results

* `bind_eq_ok_iff`, `map_eq_ok_iff` — operations in sequence succeed exactly if each of them does.
* `bind_eq_error_iff`, `map_eq_error_iff` — they fail like the first that does.
* `ite_error_eq_ok_iff` — behind a check, exactly if the check does not apply.
-/

namespace SelectiveDisclosure

/-- Why an operation could not be carried out. -/
inductive Fault where
  /-- The content names no schema, so its statements have no vocabulary. -/
  | missingVocabulary
  /-- The property cannot be made a statement. -/
  | malformedProperty (name reason : String)
  /-- The text is no digest. -/
  | malformedDigest (detail : String)
  /-- The text is no identifier, or the identifier cannot be written. -/
  | invalidIdentifier (detail : String)
  /-- No nonce was supplied for the statement. -/
  | missingNonce (statement : String)
  /-- The signature does not verify. -/
  | invalidSignature
  /-- The public key is no point of the curve, or no key at all. -/
  | invalidPublicKey
  /-- No key is registered under the URI. -/
  | unknownKey (uri : String)
  /-- The credentials of a presentation have different holders. -/
  | holderMismatch
  /-- A presentation of no credentials was asked for. -/
  | emptyPresentation
  /-- The text is no signature. -/
  | encoding (detail : String)
  deriving DecidableEq, Repr

/-- The text of a fault. -/
def Fault.message : Fault → String
  | .missingVocabulary => "content has no schema uri to use as hashing vocabulary"
  | .malformedProperty name reason =>
    "property " ++ Text.quoted name ++ " has an unsupported statement value: " ++ reason
  | .malformedDigest detail => "malformed digest: " ++ detail
  | .invalidIdentifier detail => "invalid identifier: " ++ detail
  | .missingNonce statement => "no nonce supplied for statement " ++ statement
  | .invalidSignature => "invalid signature"
  | .invalidPublicKey => "invalid public key"
  | .unknownKey uri => "unknown verification key: " ++ uri
  | .holderMismatch => "credentials in a presentation have different holders"
  | .emptyPresentation => "a presentation needs at least one credential"
  | .encoding detail => "encoding error: " ++ detail

/-! ### Operations that may end in a fault -/

variable {ε α β : Type}

theorem bind_eq_ok_iff {x : Except ε α} {f : α → Except ε β} {b : β} :
    x >>= f = .ok b ↔ ∃ a, x = .ok a ∧ f a = .ok b := by
  cases x with
  | error fault => simp [bind, Except.bind]
  | ok a => simp [bind, Except.bind]

theorem bind_eq_error_iff {x : Except ε α} {f : α → Except ε β} {fault : ε} :
    x >>= f = .error fault ↔ x = .error fault ∨ ∃ a, x = .ok a ∧ f a = .error fault := by
  cases x with
  | error fault => simp [bind, Except.bind]
  | ok a => simp [bind, Except.bind]

theorem map_eq_ok_iff {x : Except ε α} {f : α → β} {b : β} :
    x.map f = .ok b ↔ ∃ a, x = .ok a ∧ f a = b := by
  cases x with
  | error fault => simp [Except.map]
  | ok a => simp [Except.map]

theorem map_eq_error_iff {x : Except ε α} {f : α → β} {fault : ε} :
    x.map f = .error fault ↔ x = .error fault := by
  cases x with
  | error fault => simp [Except.map]
  | ok a => simp [Except.map]

theorem mapError_eq_ok_iff {ε' : Type} {x : Except ε α} {f : ε → ε'} {a : α} :
    x.mapError f = .ok a ↔ x = .ok a := by
  cases x with
  | error fault => exact iff_of_false nofun nofun
  | ok found =>
    change (.ok found : Except ε' α) = .ok a ↔ _
    rw [Except.ok.injEq, Except.ok.injEq]

/-- An operation behind a check succeeds exactly if the check does not apply. -/
theorem ite_error_eq_ok_iff {p : Prop} [Decidable p] {e : ε} {x : Except ε α} {a : α} :
    (if p then .error e else x) = .ok a ↔ ¬ p ∧ x = .ok a := by
  by_cases h : p <;> simp [h]

theorem eq_ok_of_isOk {x : Except ε Unit} (h : x.isOk = true) : x = .ok () := by
  cases x with
  | error fault => exact absurd h (by simp [Except.isOk, Except.toBool])
  | ok _ => rfl

theorem pure_eq_ok_iff {a b : α} : (pure a : Except ε α) = .ok b ↔ a = b := by
  simp [pure, Except.pure]

end SelectiveDisclosure
