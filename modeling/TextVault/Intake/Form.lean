import TextVault.Intake.Verdict
import TextVault.Json.Codec

/-
  The JSON forms of the intake.

  Spec: each form reads back what it writes; a part without a class has none, and a switch that is left
  out stands at its default.
-/
namespace TextVault.Intake

open Json

instance : Codec Part where
  toJson p := .record [("origin", toJson p.origin), ("body", toJson p.body),
    ("class", toJson p.messageClass)]
  reader := .record [required String "origin", required String "body",
    optional MessageClass "class"]
  ofJson? j := do
    return {
      origin := ← field? j "origin"
      body := ← field? j "body"
      messageClass := ← fieldD j "class" .unspecified }

instance : Codec Switches where
  toJson s := .record [("accept_all", toJson s.acceptAll),
    ("awaiting_verification", toJson s.awaitingVerification)]
  reader := .record [optional Bool "accept_all", optional Bool "awaiting_verification"]
  ofJson? j := do
    let d : Switches := {}
    return {
      acceptAll := ← fieldD j "accept_all" d.acceptAll
      awaitingVerification := ← fieldD j "awaiting_verification" d.awaitingVerification }

end TextVault.Intake
