/-
  A bounded cache of shared values that somebody else keeps alive.

  Problem: values read from a slow store are worth sharing while anyone looks at them, and worth nothing
  to the cache after that.

  Program: `WeakCache` holds keys and shared values, most recently used first. It keeps no value alive:
  every lookup is told which serial numbers still are. A value found dead is thrown out, and a new key
  that exceeds the capacity pushes out the least recently used one.

  Assumed of the bounded map that this stands for: both a lookup that finds a key and a write make the key the
  most recently used, a lookup that finds none changes nothing, and only a new key in a full map pushes one
  out. Whether a value is still held is asked in the same step in which it is looked up.

  Spec: no key has two entries (`get`, `put` and `remove` filter it out first), and there are never more
  entries than the capacity (`length_put`).
-/
namespace TextVault

/-- A value shared by those who hold it; no two have the same serial number. -/
structure Shared (ν : Type) where
  serial : Nat
  value : ν
  deriving DecidableEq, Repr

/-- The keys and the values that the cache would share, if somebody still holds them. -/
structure WeakCache (κ ν : Type) where
  capacity : Nat
  /-- The entries, most recently used first. -/
  entries : List (κ × Shared ν) := []
  deriving Repr

namespace WeakCache

variable {κ ν : Type} [DecidableEq κ]

/-- A cache of at most `n` entries, and of one at least. -/
def ofCapacity (n : Nat) : WeakCache κ ν := { capacity := max n 1 }

/-- How many entries there are, dead ones included: a value that died is an entry until somebody looks it up. -/
def size (c : WeakCache κ ν) : Nat := c.entries.length

/-- Forgets everything at once. -/
def clear (c : WeakCache κ ν) : WeakCache κ ν := { c with entries := [] }

/-- The entries of other keys. -/
def others (c : WeakCache κ ν) (key : κ) : List (κ × Shared ν) :=
  c.entries.filter fun e => e.1 ≠ key

/-- Takes the entry of a key out, if there is one. -/
def remove (c : WeakCache κ ν) (key : κ) : WeakCache κ ν := { c with entries := c.others key }

/-- Gives a key a value and makes it the most recently used. -/
def put (c : WeakCache κ ν) (key : κ) (v : Shared ν) : WeakCache κ ν :=
  { c with entries := ((key, v) :: c.others key).take c.capacity }

/-- Looks a key up. What is found alive becomes the most recently used; what is found dead goes. -/
def get (alive : Nat → Bool) (c : WeakCache κ ν) (key : κ) : Option (Shared ν) × WeakCache κ ν :=
  match c.entries.lookup key with
  | none => (none, c)
  | some v => if alive v.serial then (some v, c.put key v) else (none, c.remove key)

/-- **The capacity is never exceeded**, since what is too much goes in the same step. -/
theorem length_put (c : WeakCache κ ν) (key : κ) (v : Shared ν) :
    (c.put key v).size ≤ c.capacity := by
  simp only [size, put, List.length_take]
  omega

/-- Taking out makes no entry, so the cache cannot grow by a lookup that fails. -/
theorem length_remove (c : WeakCache κ ν) (key : κ) : (c.remove key).size ≤ c.size :=
  List.length_filter_le ..

end WeakCache

end TextVault
