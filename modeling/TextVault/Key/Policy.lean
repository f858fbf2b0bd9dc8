/-
  When the credential is withdrawn for lack of use.

  Spec: the interval of a policy is its minutes in seconds, as far as 64 bits reach.
-/
namespace TextVault

/-- After how long without a visible surface the credential is withdrawn, if it is to be withdrawn by itself at
all. -/
structure LockPolicy where
  timeoutEnabled : Bool := false
  timeoutMinutes : UInt64 := 300
  deriving DecidableEq, Repr

namespace LockPolicy

/-- The seconds without use after which the credential is withdrawn. -/
def interval (p : LockPolicy) : Nat := min (p.timeoutMinutes.toNat * 60) (UInt64.size - 1)

/-- The policy that withdraws the credential after the given minutes. -/
def after (minutes : UInt64) : LockPolicy := ⟨true, minutes⟩

/-- The same policy, with the timeout off. -/
def off (p : LockPolicy) : LockPolicy := { p with timeoutEnabled := false }

/-- A policy that the settings let pass waits for some time, so no alarm goes off in the moment it is armed. -/
theorem interval_pos {p : LockPolicy} (h : p.timeoutMinutes ≠ 0) : 0 < p.interval := by
  have : p.timeoutMinutes.toNat ≠ 0 := fun h0 => h (UInt64.toNat_inj.mp h0)
  rw [interval, UInt64.size]
  omega

end LockPolicy

end TextVault
