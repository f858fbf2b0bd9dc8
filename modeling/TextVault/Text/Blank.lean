/-
  Blank characters, trimming and words.

  Problem: message bodies, settings and console lines come with blanks around and inside them, and
  "blank" means the Unicode property White_Space, which is wider than the ASCII class of core.

  Program: `isBlank` tests the property; `trimStart`, `trimEnd` and `trim` drop runs of blanks at the
  ends of a text; `words` are its maximal runs of other characters.

  Spec: trimming loses blanks only (`trimEnd_append_blanks`).
-/
namespace TextVault.Text

/-- A character with the Unicode property White_Space. -/
def isBlank (c : Char) : Bool :=
  let n := c.toNat
  (0x9 ≤ n && n ≤ 0xD) || n == 0x20 || n == 0x85 || n == 0xA0 || n == 0x1680 ||
    (0x2000 ≤ n && n ≤ 0x200A) || n == 0x2028 || n == 0x2029 || n == 0x202F || n == 0x205F ||
    n == 0x3000

/-- A text of blanks only, the empty one included. -/
def allBlank (cs : List Char) : Bool := cs.all isBlank

/-! ## Trimming -/

/-- Drops the blanks at the front. -/
def trimStart (cs : List Char) : List Char := cs.dropWhile isBlank

/-- Drops the blanks at the end. -/
def trimEnd (cs : List Char) : List Char := (cs.reverse.dropWhile isBlank).reverse

/-- Drops the blanks at both ends. -/
def trim (cs : List Char) : List Char := trimStart (trimEnd cs)

/-- What `trimEnd` drops is blank. -/
theorem trimEnd_append_blanks (cs : List Char) :
    ∃ blanks : List Char, cs = trimEnd cs ++ blanks ∧ allBlank blanks = true := by
  refine ⟨(cs.reverse.takeWhile isBlank).reverse, ?_, ?_⟩
  · have h := List.takeWhile_append_dropWhile (p := isBlank) (l := cs.reverse)
    have h' := congrArg List.reverse h
    rw [List.reverse_append, List.reverse_reverse] at h'
    exact h'.symm
  · rw [allBlank, List.all_reverse, List.all_takeWhile]

/-! ## Words -/

/-- The maximal runs of characters that are not blank, in order. -/
def words (cs : List Char) : List (List Char) :=
  (cs.splitOnP isBlank).filter (! ·.isEmpty)

/-- Words joined by single spaces. -/
def unwords : List (List Char) → List Char
  | [] => []
  | [w] => w
  | w :: ws => w ++ ' ' :: unwords ws

example : words "  classify 20\t0 ".toList = ["classify".toList, "20".toList, "0".toList] := by
  decide

example : unwords (words " a   b ".toList) = "a b".toList := by decide

end TextVault.Text
