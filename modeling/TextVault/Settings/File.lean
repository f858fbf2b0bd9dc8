import TextVault.Intake.Form
import TextVault.Message.Form
import TextVault.Settings.Basic
import TextVault.Text.Utf8

/-
  Settings from a JSON file.

  Spec: the form of the settings reads back what it writes; whatever is left out has its default, at
  the top and inside each group.
-/
namespace TextVault

open Json Text

instance : Codec LockPolicy where
  toJson p := .record [("timeout_enabled", toJson p.timeoutEnabled),
    ("timeout_minutes", toJson p.timeoutMinutes)]
  reader := .record [optional Bool "timeout_enabled", optional UInt64 "timeout_minutes"]
  ofJson? j := do
    let d : LockPolicy := {}
    return {
      timeoutEnabled := ← fieldD j "timeout_enabled" d.timeoutEnabled
      timeoutMinutes := ← fieldD j "timeout_minutes" d.timeoutMinutes }

instance : Codec Settings where
  toJson s := .record [("lock", toJson s.lock), ("intake", toJson s.intake),
    ("status", toJson s.scale), ("record_cache_capacity", toJson s.recordCapacity)]
  reader := .record [optional LockPolicy "lock", optional Intake.Switches "intake",
    optional Message.StatusScale "status", optional UInt64 "record_cache_capacity"]
  ofJson? j := do
    let d : Settings := {}
    return {
      lock := ← fieldD j "lock" d.lock
      intake := ← fieldD j "intake" d.intake
      scale := ← fieldD j "status" d.scale
      recordCapacity := ← fieldD j "record_cache_capacity" d.recordCapacity }

namespace Settings

/-- The settings that a JSON text gives. -/
def ofText (cs : List Char) : Except SettingError Settings :=
  match (decode (String.ofList cs) : Except Json.Fault Settings) with
  | .error fault => .error (.json fault)
  | .ok s => s.checked

/-- The settings in a file; `none` is a file that is not there. -/
def ofFile (content : Option (List UInt8)) : Except SettingError Settings :=
  match content with
  | none => .error (.file .missing)
  | some bytes =>
    match Text.decode bytes with
    | .error _ => .error (.file .notText)
    | .ok cs => ofText cs

end Settings

end TextVault
