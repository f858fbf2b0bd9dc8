/-
  The start of a text.

  Program: `hasStart` asks whether a text starts with another; `dropStart?` gives what follows.

  Spec: `dropStart?` gives `rest` exactly when the text is the start followed by `rest`
  (`dropStart?_eq_some_iff`).
-/
namespace TextVault.Text

/-- What is left of a text behind a given start, or nothing if the text does not start so. -/
def dropStart? : List Char → List Char → Option (List Char)
  | [], cs => some cs
  | _ :: _, [] => none
  | p :: ps, c :: cs => if p = c then dropStart? ps cs else none

/-- **What is dropped and what is left make the text**, so a start is dropped in one way only. -/
theorem dropStart?_eq_some_iff {p cs rest : List Char} :
    dropStart? p cs = some rest ↔ cs = p ++ rest := by
  induction p generalizing cs with
  | nil => simp [dropStart?]
  | cons a p ih =>
    cases cs with
    | nil => simp [dropStart?]
    | cons c cs =>
      by_cases h : a = c
      · subst h; simp [dropStart?, ih]
      · simp [dropStart?, h, Ne.symm h]

/-- Whether a text starts with another, character for character and by case. -/
def hasStart (start : String) (s : String) : Bool := (dropStart? start.toList s.toList).isSome

end TextVault.Text
