import TextVault.Proofs.Message.Mask
import TextVault.Proofs.Message.Rules
import TextVault.Proofs.Message.Tag

/-
  When a stored body is shown.

  Problem: what is stored as the body of a message may be ciphertext, the text of a key exchange, or what a
  decryption left behind, and none of these is for the eye. The conversation and the list of threads decide
  by orders of their own what they show instead.

  Program: `withheldBits` are the bits of the type word that keep a body from view; a decoded word is
  `Readable` if it tells of no key exchange and of a body that is ready.

  Spec: both orders come to a rule for the body exactly if the word is readable and the body plain text
  (`display_eq_body_iff`, `summaryDisplay_of_not_readable`), and to a rule for a fixed text otherwise,
  whatever the body says. So any two withheld bodies look the same, and any other body is shown, without its
  tag where it is outgoing (`body_shown_unless_withheld`).
-/
namespace TextVault.Message

open Text

/-- The bits of a key exchange, and of a body that could not be decrypted or not yet. -/
def withheldBits : UInt64 := 0x58008000

/-- A body that is there to be read. -/
def Decoded.Readable (d : Decoded) (plaintext : Bool) : Prop :=
  plaintext = true ∧ d.keyExchange = .absent ∧ d.decryption = .ready

/-- **A body is there to be read exactly if it is plain text and none of the bits is set.** -/
theorem readable_iff (mask : TypeMask) (plaintext : Bool) :
    mask.decode.Readable plaintext ↔ ¬ (plaintext = false ∨ mask.bits &&& withheldBits ≠ 0) := by
  have hbits : withheldBits = TypeMask.undecryptedBits ||| 0x8000 := by decide
  have habsent : mask.decode.keyExchange = .absent ↔ mask.has 0x8000 = false := by
    rw [← mask.isPresent_keyExchange]
    exact (KeyExchange.isPresent_eq_false_iff _).symm
  have hready : mask.decode.decryption = .ready ↔ mask.has TypeMask.undecryptedBits = false :=
    mask.decryption_eq_ready_iff
  unfold Decoded.Readable
  rw [habsent, hready, ← mask.has_eq_true_iff, hbits, mask.has_or, not_or, Bool.not_eq_false,
    Bool.not_eq_true, Bool.or_eq_false_iff]
  exact and_congr_right fun _ => and_comm

/-! ## The rules that apply -/

section

variable (d : Decoded) (plaintext : Bool)

/-- **In a conversation the rule `body` applies exactly to what is there to be read.** -/
theorem display_eq_body_iff (delivery : Delivery) :
    (Flags.of d delivery).display plaintext = .body ↔ d.Readable plaintext := by
  unfold Decoded.Readable
  by_cases h : d.keyExchange = .absent
  · rw [display_of_absent d delivery plaintext h, bodyRule_eq_body_iff, and_iff_right h]
  · exact iff_of_false (display_ne_of_present d delivery plaintext (by decide) h) fun hboth => h hboth.2.1

/-- In the list of threads a readable body is shown unless it is blank. -/
theorem summaryDisplay_of_readable (h : d.Readable plaintext) (body : String) :
    d.summaryDisplay plaintext body = if allBlank body.toList then .noSubject else .body := by
  obtain ⟨rfl, hk, hd⟩ := h
  unfold Decoded.summaryDisplay
  rw [hk, hd]
  rfl

/-- In the list of threads the rule for any other body is found without it, and is not for the body. -/
theorem summaryDisplay_of_not_readable (h : ¬ d.Readable plaintext) :
    ∃ rule, rule ≠ .body ∧ ∀ body, d.summaryDisplay plaintext body = rule := by
  unfold Decoded.Readable at h
  by_cases hk : d.keyExchange = .absent
  · have hrule : d.bodyRule plaintext ≠ .body := by
      rw [and_iff_right hk] at h
      exact mt (bodyRule_eq_body_iff d plaintext).mp h
    refine ⟨d.bodyRule plaintext, hrule, fun body => ?_⟩
    rw [summaryDisplay_of_absent d plaintext body hk,
      Display.inList_eq_self _ (bodyRule_not_mem d plaintext) hrule]
  · refine ⟨if d.decryption = .inProgress then .decrypting else .keyExchange, ?_, fun body => ?_⟩
    · split <;> decide
    · exact summaryDisplay_of_present d plaintext body hk

end

/-! ## What is seen -/

namespace Classifier

variable {mask : TypeMask} {plaintext : Bool} (c : Classifier) (status : Int32)

/-- In a conversation all bodies that are not to be read look the same. -/
theorem classify_congr (h : ¬ mask.decode.Readable plaintext) (b₁ b₂ : String) :
    c.classify mask status plaintext b₁ = c.classify mask status plaintext b₂ := by
  have hrule := mt (display_eq_body_iff mask.decode plaintext (c.scale.delivery status)).mp h
  have htext := mt (c.texts.get?_eq_none_iff _).mp hrule
  obtain ⟨fixed, hfixed⟩ := Option.ne_none_iff_exists'.mp htext
  unfold classify
  dsimp only
  rw [hfixed]
  rfl

/-- In the list of threads they do, too. -/
theorem summarize_congr (h : ¬ mask.decode.Readable plaintext) (b₁ b₂ : String) :
    c.summarize mask plaintext b₁ = c.summarize mask plaintext b₂ := by
  obtain ⟨rule, hne, hrule⟩ := summaryDisplay_of_not_readable mask.decode plaintext h
  obtain ⟨fixed, hfixed⟩ := Option.ne_none_iff_exists'.mp (mt (c.texts.get?_eq_none_iff rule).mp hne)
  unfold summarize
  dsimp only
  rw [hrule, hrule, hfixed]
  rfl

/-- A body that is there to be read is shown as it is, but for the tag of an outgoing one. -/
theorem classify_of_readable (h : mask.decode.Readable plaintext) (body : String) :
    (c.classify mask status plaintext body).display = .body ∧
    (c.classify mask status plaintext body).text =
      if mask.decode.direction = .outgoing then stripTag body else body := by
  have hrule := (display_eq_body_iff mask.decode plaintext (c.scale.delivery status)).mpr h
  constructor
  · exact hrule
  · unfold classify
    dsimp only
    rw [hrule]
    show (if (mask.decode.direction == .outgoing) = true then _ else _) = _
    simp only [beq_iff_eq]

/-- A readable body stands in the list as it is, tag included, unless it is blank. -/
theorem summarize_of_readable (h : mask.decode.Readable plaintext) (body : String) :
    c.summarize mask plaintext body =
      if allBlank body.toList then ⟨.noSubject, c.texts.noSubject⟩ else ⟨.body, body⟩ := by
  unfold summarize
  dsimp only
  rw [summaryDisplay_of_readable _ _ h]
  split
  · rfl
  · rfl

/-- **A stored body is shown only if it may be.** If it is no plain text, or the type word tells of a key
exchange or of a body that could not be decrypted or not yet, then neither the conversation nor the list of
threads shows anything that hangs on it. Otherwise the conversation shows the body itself, without its tag if
it is outgoing: nothing but blanks at the end is missing, and there is something to read if there was. The
list of threads shows the body, unless there is nothing to read in it. -/
theorem body_shown_unless_withheld (c : Classifier) (mask : TypeMask) (status : Int32) (plaintext : Bool) :
    if plaintext = false ∨ mask.bits &&& withheldBits ≠ 0 then
      ∀ b₁ b₂, c.classify mask status plaintext b₁ = c.classify mask status plaintext b₂ ∧
        c.summarize mask plaintext b₁ = c.summarize mask plaintext b₂
    else
      ∀ body,
        let shown := c.classify mask status plaintext body
        shown.display = .body ∧
        (mask.decode.direction = .incoming → shown.text = body) ∧
        (mask.decode.direction = .outgoing → IsUntagged body shown.text) ∧
        (∃ blanks, body.toList = shown.text.toList ++ blanks ∧ allBlank blanks = true) ∧
        (allBlank shown.text.toList = true → allBlank body.toList = true) ∧
        c.summarize mask plaintext body =
          if allBlank body.toList then ⟨.noSubject, c.texts.noSubject⟩ else ⟨.body, body⟩ := by
  have hreadable := readable_iff mask plaintext
  split
  · rename_i hwithheld
    have hnot : ¬ mask.decode.Readable plaintext := fun h => hreadable.mp h hwithheld
    intro b₁ b₂
    exact ⟨c.classify_congr status hnot b₁ b₂, c.summarize_congr hnot b₁ b₂⟩
  · rename_i hfree
    have h : mask.decode.Readable plaintext := hreadable.mpr hfree
    intro body shown
    obtain ⟨hrule, htext⟩ := c.classify_of_readable status h body
    refine ⟨hrule, fun hin => ?_, fun hout => ?_, ?_, ?_, c.summarize_of_readable h body⟩
    · rw [htext, hin]
      rfl
    · rw [htext, if_pos hout]
      exact isUntagged_stripTag body
    · rw [htext]
      split
      · exact (isUntagged_stripTag body).exists_append
      · exact ⟨[], (List.append_nil _).symm, rfl⟩
    · rw [htext]
      split
      · exact (isUntagged_stripTag body).allBlank
      · exact id

end Classifier

end TextVault.Message
