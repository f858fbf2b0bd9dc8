import TextVault.Intake.Form
import TextVault.Proofs.Json.Lawful

/-
  The forms of the intake are read back.

  Spec: a part has the law of JSON forms and so have the switches, which may also be listed in part: a switch
  that is left out stands at its default (`readsListings_switches`).
-/
namespace TextVault.Intake

open Json Reader

instance : LawfulLabels MessageClass := ⟨by rintro ⟨⟩ <;> decide, by rintro ⟨⟩ ⟨⟩ <;> decide⟩

instance : LawfulCodec Part where
  reads p := reads_fields (by decide) <|
    .cons (reads p.origin) <| .cons (reads p.body) <| .cons (reads p.messageClass) .nil
  ofJson?_toJson _ := by
    unfold instCodecPart
    simp

instance : LawfulCodec Switches where
  reads s := reads_fields (by decide) <|
    .cons (reads s.acceptAll) <| .cons (reads s.awaitingVerification) .nil
  ofJson?_toJson _ := by
    unfold instCodecSwitches
    simp

/-- The switches that are listed, and the defaults of the others. -/
def Switches.listed (s : Switches) (ms : List Member) : Switches :=
  let d : Switches := {}
  { acceptAll := ofListed ms "accept_all" s.acceptAll d.acceptAll
    awaitingVerification := ofListed ms "awaiting_verification" s.awaitingVerification d.awaitingVerification }

/-- The switches can be read from any list of their fields, in any order and with unknown ones between them. -/
theorem readsListings_switches : ReadsListings Switches Switches.listed := by
  intro s ms h
  have hcovers : Covers [Json.optional Bool "accept_all", Json.optional Bool "awaiting_verification"]
      (membersOf s)
      [("accept_all", toJson s.acceptAll), ("awaiting_verification", toJson s.awaitingVerification)] :=
    .cons (reads _) (.cons (reads _) .nil)
  refine ⟨_, reads_listing h hcovers (by decide) (by simp [Json.optional]), ?_⟩
  unfold instCodecSwitches
  simp [Switches.listed]

end TextVault.Intake
