import TextVault.Message.Classifier

/-
  Which rule applies.

  Problem: the conversation and the list of threads each find the rule for a message by a chain of tests of their
  own, one over the flags and one over the decoded word. The chains have a key exchange and a decryption under
  way in opposite orders, and only one of them looks at the body.

  Program: `Decoded.bodyRule` is what a conversation shows where there is no key exchange. `Display.inList` takes
  a rule of the conversation to the list's rule for the same case: the four rules for a key exchange become one,
  and a blank body has no subject.

  Spec: whether there is a key exchange tells where either chain ends. With one, the conversation has one of four
  rules and the list has one (`display_of_present`, `summaryDisplay_of_present`); without, both go by `bodyRule`
  (`display_of_absent`, `summaryDisplay_of_absent`).
-/
namespace TextVault.Message

open Text

/-- The rules of a conversation for a key exchange. -/
def keyExchangeRules : List Display :=
  [.processedKeyExchange, .staleKeyExchange, .outgoingKeyExchange, .incomingKeyExchange]

namespace Display

/-- The rule of the list for what a conversation shows by the given rule. -/
def inList (blank : Bool) : Display → Display
  | processedKeyExchange | staleKeyExchange | outgoingKeyExchange | incomingKeyExchange => keyExchange
  | body => if blank then noSubject else body
  | rule => rule

variable {rule : Display} (blank : Bool)

/-- The list does not tell key exchanges apart. -/
theorem inList_not_mem (rule : Display) : rule.inList blank ∉ keyExchangeRules := by
  cases blank <;> cases rule <;> decide

/-- The list calls a message a key exchange exactly if the conversation has one of the four rules for it. -/
theorem inList_eq_keyExchange_iff (h : rule ≠ keyExchange) :
    rule.inList blank = keyExchange ↔ rule ∈ keyExchangeRules := by
  revert h
  cases blank <;> cases rule <;> decide

/-- Neither the rule for the body nor one for a key exchange: the list has the same. -/
theorem inList_eq_self (h : rule ∉ keyExchangeRules) (hbody : rule ≠ body) :
    rule.inList blank = rule := by
  revert h hbody
  cases blank <;> cases rule <;> decide

/-- A body still being decrypted is shown so by both. -/
theorem inList_eq_decrypting_iff : rule.inList blank = decrypting ↔ rule = decrypting := by
  cases blank <;> cases rule <;> decide

/-- The list shows the body where the conversation does, unless it is blank. -/
theorem inList_eq_body_iff : rule.inList blank = body ↔ rule = body ∧ blank = false := by
  cases blank <;> cases rule <;> decide

/-- A blank body is the only thing that has no subject. -/
theorem inList_eq_noSubject_iff (h : rule ≠ noSubject) :
    rule.inList blank = noSubject ↔ rule = body ∧ blank = true := by
  revert h
  cases blank <;> cases rule <;> decide

end Display

/-- What a conversation shows where there is no key exchange. -/
def Decoded.bodyRule (d : Decoded) (plaintext : Bool) : Display :=
  match d.decryption with
  | .failed => .failedDecrypt
  | .inProgress => .decrypting
  | .noSession => .noSession
  | .ready => if plaintext then .body else .encrypted

/-! ## Where the chains end -/

theorem KeyExchange.isPresent_eq_false_iff (k : KeyExchange) : k.isPresent = false ↔ k = .absent := by
  cases k <;> simp [isPresent]

section

variable (d : Decoded) (delivery : Delivery) (plaintext : Bool) (body : String)

/-- Without a key exchange no rule for one applies. -/
theorem bodyRule_not_mem : d.bodyRule plaintext ∉ keyExchangeRules := by
  unfold Decoded.bodyRule
  cases d.decryption <;> cases plaintext <;> decide

/-- **A body is shown exactly if it is plain and ready.** -/
theorem bodyRule_eq_body_iff :
    d.bodyRule plaintext = .body ↔ plaintext = true ∧ d.decryption = .ready := by
  unfold Decoded.bodyRule
  cases d.decryption <;> cases plaintext <;> decide

theorem bodyRule_eq_decrypting_iff : d.bodyRule plaintext = .decrypting ↔ d.decryption = .inProgress := by
  unfold Decoded.bodyRule
  cases d.decryption <;> cases plaintext <;> decide

/-- A conversation has no rule for key exchanges of any kind, nor one for blank bodies. -/
theorem display_ne (f : Flags) :
    f.display plaintext ≠ .keyExchange ∧ f.display plaintext ≠ .noSubject := by
  unfold Flags.display
  repeat' split
  all_goals decide

/-- A conversation shows a key exchange whenever there is one. -/
theorem display_of_present (h : d.keyExchange ≠ .absent) :
    (Flags.of d delivery).display plaintext ∈ keyExchangeRules := by
  unfold Flags.display Flags.of
  dsimp only
  cases hk : d.keyExchange with
  | absent => exact absurd hk h
  | _ => cases d.direction <;> simp [KeyExchange.isPresent, keyExchangeRules]

/-- So no other rule applies then. -/
theorem display_ne_of_present {rule : Display} (hrule : rule ∉ keyExchangeRules)
    (h : d.keyExchange ≠ .absent) : (Flags.of d delivery).display plaintext ≠ rule := by
  rintro rfl
  exact hrule (display_of_present d delivery plaintext h)

/-- Without a key exchange the chain of a conversation begins at the decryption. -/
theorem display_of_absent (h : d.keyExchange = .absent) :
    (Flags.of d delivery).display plaintext = d.bodyRule plaintext := by
  unfold Flags.display Flags.of Decoded.bodyRule
  dsimp only
  rw [h]
  cases d.decryption <;> cases plaintext <;> rfl

/-- The list shows one, too, unless a decryption is under way. -/
theorem summaryDisplay_of_present (h : d.keyExchange ≠ .absent) :
    d.summaryDisplay plaintext body =
      if d.decryption = .inProgress then .decrypting else .keyExchange := by
  have hpresent : d.keyExchange.isPresent = true := by
    rw [← Bool.not_eq_false, d.keyExchange.isPresent_eq_false_iff]
    exact h
  rw [Decoded.summaryDisplay, if_pos hpresent]

/-- The chain of the list tests the decryption in another order, but comes to what the conversation shows, with its
own words. -/
theorem summaryDisplay_of_absent (h : d.keyExchange = .absent) :
    d.summaryDisplay plaintext body = (d.bodyRule plaintext).inList (allBlank body.toList) := by
  unfold Decoded.summaryDisplay Decoded.bodyRule
  rw [h]
  cases d.decryption <;> cases plaintext <;> rfl

end

end TextVault.Message
