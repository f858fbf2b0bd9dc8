import TextVault.Labelled

/-
  Inbound payloads.

  Problem: a long message arrives in parts, each with an envelope of its own.

  Program: the envelope of a payload, its origin and class, is that of the first part; its body is the
  text of all parts in order.

  Spec: cutting the body at other places changes neither (`body_append`).
-/
namespace TextVault.Intake

/-- The class a carrier gives to a message. -/
inductive MessageClass where
  /-- Shown at once and never stored. -/
  | flash
  | class1
  | class2
  | class3
  | unspecified
  deriving DecidableEq, Repr

instance : Labelled MessageClass where
  all := [.flash, .class1, .class2, .class3, .unspecified]
  label
    | .flash => "Flash"
    | .class1 => "Class1"
    | .class2 => "Class2"
    | .class3 => "Class3"
    | .unspecified => "Unspecified"

/-- Such a message is shown at once and never stored, so there is nothing for the vault to claim. -/
def MessageClass.isEphemeral (c : MessageClass) : Bool := c == .flash

/-- One part of a message as delivered. -/
structure Part where
  origin : String
  body : String
  messageClass : MessageClass := .unspecified
  deriving DecidableEq, Repr

/-- A message as delivered, in parts. -/
structure Payload where
  parts : List Part
  deriving DecidableEq, Repr

namespace Payload

/-- A payload of one part with no class. -/
def single (origin body : String) : Payload := ⟨[{ origin, body }]⟩

/-- A payload without parts, which has neither an origin nor a text. -/
def isEmpty (p : Payload) : Bool := p.parts.isEmpty

/-- The origin of the first part. -/
def origin? (p : Payload) : Option String := p.parts.head?.map (·.origin)

/-- The class of the first part. -/
def messageClass (p : Payload) : MessageClass :=
  (p.parts.head?.map (·.messageClass)).getD .unspecified

/-- The text of all parts. -/
def body (p : Payload) : String := String.join (p.parts.map (·.body))

/-- The body does not depend on where the payload was cut: a part more at the end is only more text. -/
theorem body_append (xs ys : List Part) :
    (Payload.mk (xs ++ ys)).body = (Payload.mk xs).body ++ (Payload.mk ys).body := by
  simp [body]

end Payload

end TextVault.Intake
