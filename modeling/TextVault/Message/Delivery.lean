import TextVault.Labelled

/-
  Delivery, read from the status scale of a transport.

  Problem: each transport reports a 32-bit status on a scale of its own.

  Program: `StatusScale` holds the three cutoffs of a scale, and `StatusScale.delivery` reads a status
  against them; the value that stands for "no status" is asked for first.

  Spec: on a scale in order the four answers split the statuses; `isOrdered` tests the order.
-/
namespace TextVault.Message

/-- How far the delivery of a message has come. -/
inductive Delivery where
  /-- The transport gave no status. -/
  | unreported
  | received
  | pending
  | failed
  deriving DecidableEq, Repr

instance : Labelled Delivery where
  all := [.unreported, .received, .pending, .failed]
  label
    | .unreported => "None"
    | .received => "Received"
    | .pending => "Pending"
    | .failed => "Failed"

/-- The cutoffs of a status scale; the defaults are those of SMS. -/
structure StatusScale where
  /-- The status that stands for none. -/
  unreported : Int32 := -1
  /-- The least status of a pending delivery. -/
  pending : Int32 := 32
  /-- The least status of a failed delivery. -/
  failed : Int32 := 64
  deriving DecidableEq, Repr

namespace StatusScale

/-- The cutoffs of a scale that tells pending from failed: an unordered one would never report the state in the
middle. -/
def isOrdered (s : StatusScale) : Bool := s.unreported < s.pending && s.pending < s.failed

/-- What a status says about the delivery. The absence of a report comes first, since its status may lie anywhere on
the scale. -/
def delivery (s : StatusScale) (status : Int32) : Delivery :=
  if status = s.unreported then .unreported
  else if s.failed ≤ status then .failed
  else if s.pending ≤ status then .pending
  else .received

end StatusScale

example : [-5, -1, 0, 31, 32, 63, 64].map (StatusScale.delivery {}) =
    [.received, .unreported, .received, .received, .pending, .pending, .failed] := by decide

end TextVault.Message
