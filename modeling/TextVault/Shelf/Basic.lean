import TextVault.Named
import TextVault.Shelf.WeakCache

/-
  A shelf of values with their holders.

  Problem: what a weak cache answers hangs on who still holds what.

  Program: `Shelf` is a weak cache with the holders of its values, each holder by name and of one value,
  and a count of the values made, which gives every new one a serial number of its own. A value that
  nobody holds when an operation is over is dead.

  Spec: only `hold` and `release` change who is alive.
-/
namespace TextVault

/-- A cache of weakly held values together with those who hold them, which decides what the cache still finds. -/
structure Shelf (κ ν : Type) where
  cache : WeakCache κ ν
  held : Named (Shared ν) := {}
  /-- How many values have been made. -/
  made : Nat := 0

namespace Shelf

variable {κ ν : Type} [DecidableEq κ]

/-- An empty shelf, with nobody holding anything. -/
def ofCapacity (n : Nat) : Shelf κ ν := { cache := .ofCapacity n }

/-- Whether anybody holds the value of a serial number. -/
def alive (s : Shelf κ ν) (serial : Nat) : Bool := s.held.values.any (·.serial == serial)

/-- Makes a shared value. -/
def share (s : Shelf κ ν) (value : ν) : Shared ν × Shelf κ ν :=
  (⟨s.made + 1, value⟩, { s with made := s.made + 1 })

/-- Gives a holder a value in place of what it held; no holder, or no value, changes nothing. -/
def hold (s : Shelf κ ν) (holder : Option String) (v : Option (Shared ν)) : Shelf κ ν :=
  match holder, v with
  | some name, some v => { s with held := s.held.set name v }
  | _, _ => s

/-- Takes a holder's value away. -/
def release (s : Shelf κ ν) (holder : String) : Shelf κ ν := { s with held := s.held.erase holder }

/-- Forgets all entries. Who holds a value goes on holding it, but the cache does not find it any more. -/
def clear (s : Shelf κ ν) : Shelf κ ν := { s with cache := s.cache.clear }

/-- Looks a key up for a holder, who holds what was found from then on. -/
def get (s : Shelf κ ν) (key : κ) (holder : Option String) : Option (Shared ν) × Shelf κ ν :=
  let (v, cache) := s.cache.get s.alive key
  (v, ({ s with cache }).hold holder v)

/-- Makes a value and puts it in the cache under its key. -/
def insert (keyOf : ν → κ) (s : Shelf κ ν) (value : ν) (holder : Option String) :
    Shared ν × Shelf κ ν :=
  let (v, s) := s.share value
  (v, ({ s with cache := s.cache.put (keyOf value) v }).hold holder (some v))

/-- Puts the value of a holder in the cache once more. -/
def reinsert (keyOf : ν → κ) (s : Shelf κ ν) (holder : String) : Option (Shared ν) × Shelf κ ν :=
  match s.held.get? holder with
  | none => (none, s)
  | some v => (some v, { s with cache := s.cache.put (keyOf v.value) v })

/-- The end of a lookup that may have read from the store. -/
structure Found (κ ν : Type) where
  value : Option (Shared ν)
  shelf : Shelf κ ν
  didLoad : Bool

/-- Looks a key up and on a miss reads the store, which is asked at most once. -/
def getOrLoad (keyOf : ν → κ) (s : Shelf κ ν) (key : κ) (load : Unit → Option ν)
    (holder : Option String) : Found κ ν :=
  match s.cache.get s.alive key with
  | (some v, cache) => ⟨some v, ({ s with cache }).hold holder (some v), false⟩
  | (none, cache) =>
    let s := { s with cache }
    match load () with
    | none => ⟨none, s, true⟩
    | some value =>
      let (v, s) := s.insert keyOf value holder
      ⟨some v, s, true⟩

/-! ## Runs -/

/-- What can happen to a shelf; the values are given by those who make them. -/
inductive Op (κ ν : Type) where
  | get (key : κ) (holder : Option String)
  | insert (value : ν) (holder : Option String)
  | reinsert (holder : String)
  | getOrLoad (key : κ) (stored : Option ν) (holder : Option String)
  | release (holder : String)
  | clear
  deriving Repr

/-- What an operation gives, and how often it read the store. -/
structure Answer (ν : Type) where
  value : Option (Shared ν) := none
  loads : Nat := 0

/-- Does one operation. What a holder held before is given up only after the cache has answered, so it is still alive
during the lookup. -/
def step (keyOf : ν → κ) (s : Shelf κ ν) : Op κ ν → Shelf κ ν × Answer ν
  | .get key holder =>
    let (v, s) := s.get key holder
    (s, { value := v })
  | .insert value holder =>
    let (v, s) := s.insert keyOf value holder
    (s, { value := some v })
  | .reinsert holder =>
    let (v, s) := s.reinsert keyOf holder
    (s, { value := v })
  | .getOrLoad key stored holder =>
    let found := s.getOrLoad keyOf key (fun _ => stored) holder
    (found.shelf, { value := found.value, loads := if found.didLoad then 1 else 0 })
  | .release holder => (s.release holder, {})
  | .clear => (s.clear, {})

/-- Does operations one after another. -/
def run (keyOf : ν → κ) (s : Shelf κ ν) : List (Op κ ν) → Shelf κ ν × List (Answer ν)
  | [] => (s, [])
  | op :: ops =>
    let (s, answer) := s.step keyOf op
    let (s, answers) := s.run keyOf ops
    (s, answer :: answers)

end Shelf

end TextVault
