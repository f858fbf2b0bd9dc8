/-
  Values under names.

  Problem: a session gives names to what it makes (a handle, a subscription, a contact) and a name
  used again stands for the new value.

  Program: an association list with `get?`, `set` and `erase`.

  Spec: `get?_set` and `get?_erase` say what each operation does to every name.
-/
namespace TextVault

/-- Values under names; each name has at most one. -/
structure Named (α : Type) where
  entries : List (String × α) := []
  deriving Repr

namespace Named

variable {α : Type}

/-- What a name stands for, if it stands for anything. -/
def get? (t : Named α) (name : String) : Option α := t.entries.lookup name

/-- Forgets a name. -/
def erase (t : Named α) (name : String) : Named α :=
  ⟨t.entries.filter fun e => ! (name == e.1)⟩

/-- Gives a name a value, in place of what it had. -/
def set (t : Named α) (name : String) (value : α) : Named α :=
  ⟨(name, value) :: (t.erase name).entries⟩

/-- What the names stand for, in the order of the table. -/
def values (t : Named α) : List α := t.entries.map (·.2)

/-- Sets or erases, as there is a value or not. -/
def update (t : Named α) (name : String) : Option α → Named α
  | some value => t.set name value
  | none => t.erase name

/-- Taking a name away leaves every other name alone. -/
theorem get?_erase (t : Named α) (name other : String) :
    (t.erase name).get? other = if other = name then none else t.get? other := by
  obtain ⟨entries⟩ := t
  simp only [erase, get?]
  induction entries with
  | nil => simp
  | cons e rest ih =>
    by_cases h : name = e.1
    · rw [List.filter_cons_of_neg (by simp [h]), ih, List.lookup_cons]
      by_cases ho : other = name
      · simp [ho]
      · have he : (other == e.1) = false := by simpa [← h] using ho
        simp [ho, he]
    · rw [List.filter_cons_of_pos (by simpa using h), List.lookup_cons, List.lookup_cons, ih]
      by_cases ho : other = name
      · have he : (name == e.1) = false := by simpa using h
        simp [ho, he]
      · simp [ho]

/-- A name stands for what it was last given, and no other name is touched by that. -/
@[simp] theorem get?_set (t : Named α) (name other : String) (value : α) :
    (t.set name value).get? other = if other = name then some value else t.get? other := by
  have h := get?_erase t name other
  simp only [get?] at h
  by_cases ho : other = name
  · simp [set, get?, ho]
  · have he : (other == name) = false := by simpa using ho
    simpa [set, get?, List.lookup_cons, he, ho] using h

end Named

end TextVault
