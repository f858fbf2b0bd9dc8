/-
  Enumerations known by their labels.

  Program: `Labelled` lists the values of a type with the label of each; `ofLabel?` looks a label up.

  Spec: where the labels are all different, `ofLabel?` finds each value by its own label
  (`ofLabel?_label`).
-/
namespace TextVault

/-- A type with finitely many values, each known by its label. -/
class Labelled (α : Type) where
  /-- Every value, in order. -/
  all : List α
  label : α → String

export Labelled (label)

/-- The value of a label. -/
def ofLabel? {α : Type} [Labelled α] (s : String) : Option α :=
  (Labelled.all : List α).find? fun a => label a == s

/-- A label gives back what it was made of, if no two values share one and the list of values is complete. -/
theorem ofLabel?_label {α : Type} [Labelled α] (mem : ∀ a : α, a ∈ Labelled.all)
    (inj : ∀ a b : α, label a = label b → a = b) (a : α) : ofLabel? (label a) = some a := by
  unfold ofLabel?
  cases h : (Labelled.all : List α).find? fun b => label b == label a with
  | none =>
    have := List.find?_eq_none.mp h a (mem a)
    simp at this
  | some b =>
    have := List.find?_some h
    rw [inj b a (by simpa using this)]

end TextVault
