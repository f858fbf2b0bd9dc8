import TextVault.Proofs.Message.Shown

/-
  The conversation and the list of threads.

  Problem: both show something for the same message, by orders of their own. What somebody sees in the one
  should be what they find in the other.

  Spec: the list goes by the conversation's rule, but for a decryption under way, which it puts first
  (`summaryDisplay_eq`). When the conversation shows that is told by the decoded word
  (`display_eq_decrypting_iff`), and so is when either shows the body (`summaryDisplay_eq_body_iff`,
  `summaryDisplay_eq_noSubject_iff`). What the two show alike is then how `Display.inList` acts
  (`views_agree`).
-/
namespace TextVault.Message

open Text

/-! ## The rules of both -/

section

variable (d : Decoded) (delivery : Delivery) (plaintext : Bool) (body : String)

/-- **The list goes by the conversation's rule**, unless a decryption is under way. -/
theorem summaryDisplay_eq :
    d.summaryDisplay plaintext body =
      if d.decryption = .inProgress then .decrypting
      else ((Flags.of d delivery).display plaintext).inList (allBlank body.toList) := by
  by_cases h : d.keyExchange = .absent
  · rw [summaryDisplay_of_absent d plaintext body h, display_of_absent d delivery plaintext h]
    split
    · rename_i hprogress
      rw [(bodyRule_eq_decrypting_iff d plaintext).mpr hprogress]
      rfl
    · rfl
  · rw [summaryDisplay_of_present d plaintext body h,
      (Display.inList_eq_keyExchange_iff _ (display_ne plaintext _).1).mpr
        (display_of_present d delivery plaintext h)]

/-- **A conversation shows a decryption under way unless there is a key exchange.** -/
theorem display_eq_decrypting_iff :
    (Flags.of d delivery).display plaintext = .decrypting ↔
      d.decryption = .inProgress ∧ d.keyExchange = .absent := by
  by_cases h : d.keyExchange = .absent
  · rw [display_of_absent d delivery plaintext h, bodyRule_eq_decrypting_iff, and_iff_left h]
  · exact iff_of_false (display_ne_of_present d delivery plaintext (by decide) h) fun hboth => h hboth.2

/-- The list shows one in any case. -/
theorem summaryDisplay_eq_decrypting_iff :
    d.summaryDisplay plaintext body = .decrypting ↔ d.decryption = .inProgress := by
  by_cases h : d.keyExchange = .absent
  · rw [summaryDisplay_of_absent d plaintext body h, Display.inList_eq_decrypting_iff,
      bodyRule_eq_decrypting_iff]
  · rw [summaryDisplay_of_present d plaintext body h]
    split
    · exact iff_of_true rfl ‹_›
    · exact iff_of_false nofun ‹_›

/-- A body that is still being decrypted is not there to be read. -/
theorem not_readable_of_inProgress (h : d.decryption = .inProgress) : ¬ d.Readable plaintext :=
  fun hreadable => absurd (h.symm.trans hreadable.2.2) (by decide)

/-- The list comes to the body where the conversation does, and shows it unless it is blank. -/
theorem summaryDisplay_eq_body_iff :
    d.summaryDisplay plaintext body = .body ↔
      d.Readable plaintext ∧ allBlank body.toList = false := by
  rw [summaryDisplay_eq d .unreported plaintext body]
  split
  · exact iff_of_false nofun fun hboth => not_readable_of_inProgress d plaintext ‹_› hboth.1
  · rw [Display.inList_eq_body_iff, display_eq_body_iff]

/-- The list has no subject for a message exactly if it would show the body and the body is blank. -/
theorem summaryDisplay_eq_noSubject_iff :
    d.summaryDisplay plaintext body = .noSubject ↔
      d.Readable plaintext ∧ allBlank body.toList = true := by
  rw [summaryDisplay_eq d .unreported plaintext body]
  split
  · exact iff_of_false nofun fun hboth => not_readable_of_inProgress d plaintext ‹_› hboth.1
  · rw [Display.inList_eq_noSubject_iff _ (display_ne plaintext _).2, display_eq_body_iff]

end

/-! ## What is seen -/

namespace Classifier

variable (c : Classifier) (mask : TypeMask) (status : Int32) (plaintext : Bool) (body : String)

/-- Two views that go by one rule show one text, unless it is the body. -/
theorem text_eq_of_display
    (h : (c.summarize mask plaintext body).display = (c.classify mask status plaintext body).display)
    (hbody : (c.classify mask status plaintext body).display ≠ .body) :
    (c.summarize mask plaintext body).text = (c.classify mask status plaintext body).text := by
  obtain ⟨fixed, hfixed⟩ := Option.ne_none_iff_exists'.mp (mt (c.texts.get?_eq_none_iff _).mp hbody)
  show (c.texts.get? (c.summarize mask plaintext body).display).getD _ =
    (c.texts.get? (c.classify mask status plaintext body).display).getD _
  rw [h, hfixed]
  rfl

/-- **The conversation and the list of threads agree.** The list shows a decryption under way whenever there is
one, and so does the conversation unless there is a key exchange. Otherwise the list shows a key exchange where
the conversation does, whichever of its four rules that goes by; and where neither shows one, nor the
conversation the body, both have the same rule and text. The conversation shows the body exactly where the list
does or, the body being blank, says that it has no subject; where both show it, it is the body itself, in the
conversation without the tag if it is outgoing. Neither has the rules that are the other's alone. -/
theorem views_agree :
    let shown := c.classify mask status plaintext body
    let listed := c.summarize mask plaintext body
    (listed.display = .decrypting ↔ mask.decode.decryption = .inProgress) ∧
    (listed.display = .decrypting →
      (shown.display = .decrypting ↔ mask.decode.keyExchange = .absent)) ∧
    (listed.display ≠ .decrypting →
      (listed.display = .keyExchange ↔ shown.display ∈ keyExchangeRules)) ∧
    (listed.display ≠ .decrypting → listed.display ≠ .keyExchange → shown.display ≠ .body →
      listed.display = shown.display ∧ listed.text = shown.text) ∧
    (shown.display = .body ↔ listed.display = .body ∨ listed.display = .noSubject) ∧
    (shown.display = .body → (listed.display = .noSubject ↔ allBlank body.toList = true)) ∧
    (listed.display = .body → listed.text = body ∧
      shown.text = if mask.decode.direction = .outgoing then stripTag listed.text else listed.text) ∧
    (shown.display ≠ .keyExchange ∧ shown.display ≠ .noSubject) ∧
    listed.display ∉ keyExchangeRules := by
  intro shown listed
  have hprogress : listed.display = .decrypting ↔ mask.decode.decryption = .inProgress :=
    summaryDisplay_eq_decrypting_iff mask.decode plaintext body
  have hreadable : shown.display = .body ↔ mask.decode.Readable plaintext :=
    display_eq_body_iff mask.decode plaintext (c.scale.delivery status)
  have hbody : listed.display = .body ↔ _ := summaryDisplay_eq_body_iff mask.decode plaintext body
  have hblank : listed.display = .noSubject ↔ _ :=
    summaryDisplay_eq_noSubject_iff mask.decode plaintext body
  have hnot := display_ne plaintext (Flags.of mask.decode (c.scale.delivery status))
  -- Unless the listing says that decryption goes on, it names the rule of the shown message, as listings put it.
  have hrule (h : listed.display ≠ .decrypting) :
      listed.display = shown.display.inList (allBlank body.toList) :=
    (summaryDisplay_eq mask.decode (c.scale.delivery status) plaintext body).trans
      (if_neg fun hp => h (hprogress.mpr hp))
  refine ⟨hprogress, fun h => ?_, fun h => ?_, fun h hexchange hne => ?_, ?_, fun h => ?_, fun h => ?_,
    hnot, ?_⟩
  · exact (display_eq_decrypting_iff ..).trans (and_iff_right (hprogress.mp h))
  · rw [hrule h]
    exact Display.inList_eq_keyExchange_iff _ hnot.1
  · -- Neither the key exchange nor the body: the listing takes the rule, and with it the text, unchanged.
    have hsame : listed.display = shown.display := by
      rw [hrule h] at hexchange
      rw [hrule h]
      exact Display.inList_eq_self _ (mt (Display.inList_eq_keyExchange_iff _ hnot.1).mpr hexchange) hne
    exact ⟨hsame, c.text_eq_of_display mask status plaintext body hsame hne⟩
  · -- The body is shown iff it can be read, and a listing only asks further whether it is blank.
    rw [hreadable, hbody, hblank, ← and_or_left]
    exact (and_iff_left (Bool.eq_false_or_eq_true _).symm).symm
  · rw [hblank, and_iff_right (hreadable.mp h)]
  · obtain ⟨hr, hprint⟩ := hbody.mp h
    have hlisted : listed = ⟨.body, body⟩ := by
      rw [show listed = _ from c.summarize_of_readable hr body, if_neg (Bool.eq_false_iff.mp hprint)]
    rw [hlisted]
    exact ⟨rfl, (c.classify_of_readable status hr body).2⟩
  · by_cases h : listed.display = .decrypting
    · rw [h]
      decide
    · rw [hrule h]
      exact Display.inList_not_mem _ _

/-- A key exchange that is still being decrypted, and a message sent with its tag. -/
theorem views_agree_each :
    let exchange : TypeMask := ⟨0x40008014⟩
    let sent : TypeMask := ⟨23⟩
    let body := addTag "see you"
    (summarize {} exchange false "?TSK").display = .decrypting ∧
      (classify {} exchange (-1) false "?TSK").display ≠ .decrypting ∧
    (summarize {} sent true body).display = .body ∧ (summarize {} sent true body).text = body ∧
      (classify {} sent 0 true body).text = "see you" := by
  intro exchange sent body
  obtain ⟨hprogress, hshown, -⟩ := views_agree {} exchange (-1) false "?TSK"
  obtain ⟨-, -, -, -, -, -, hbody, -⟩ := views_agree {} sent 0 true body
  have hdecrypting : (summarize {} exchange false "?TSK").display = .decrypting :=
    hprogress.mpr (by decide)
  have hlisted : (summarize {} sent true body).display = .body := by decide +kernel
  obtain ⟨htext, hstripped⟩ := hbody hlisted
  refine ⟨hdecrypting, fun h => ?_, hlisted, htext, ?_⟩
  · exact absurd ((hshown hdecrypting).mp h) (by decide)
  · rw [hstripped, htext]
    decide +kernel

end Classifier

end TextVault.Message
