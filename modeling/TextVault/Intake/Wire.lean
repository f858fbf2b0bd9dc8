import TextVault.Text.Start

/-
  Marks of secure traffic.

  Program: a body that belongs to a secure session starts with one of three marks. A bundle of keys
  carries an encrypted message with it, so its mark counts as one of an encrypted message.
-/
namespace TextVault.Intake

open Text

/-- The start of a key exchange. -/
def isKeyExchange (body : String) : Bool := hasStart "?TSK" body

/-- The start of an encrypted message, alone or with a bundle of keys. -/
def isEncrypted (body : String) : Bool := hasStart "?TSM" body || hasStart "?TSP" body

end TextVault.Intake
