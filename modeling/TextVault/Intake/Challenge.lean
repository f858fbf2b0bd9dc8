import TextVault.Text.Numeral
import TextVault.Text.Start

/-
  Registration challenges.

  Problem: a server proves that a number is reached by sending it a code in a message of fixed wording.

  Program: `challengeCode?` wants the wording and then two groups of three or four ASCII digits with a
  hyphen between them, and nothing else; the code is both groups together.

  Spec: the first hyphen ends the first group, so the groups of a body are unique.
-/
namespace TextVault.Intake

open Text

/-- The wording before the code. -/
def challengeWording : String := "Your TextSecure verification code: "

/-- Three or four ASCII digits. -/
def isCodeGroup (cs : List Char) : Bool := 3 ≤ cs.length && cs.length ≤ 4 && cs.all isDigit

/-- The digits of a code written as two groups. -/
def joinGroups? (cs : List Char) : Option (List Char) :=
  let first := cs.takeWhile (· != '-')
  match cs.dropWhile (· != '-') with
  | [] => none
  | _ :: second =>
    if isCodeGroup first && isCodeGroup second then some (first ++ second) else none

/-- The code of a challenge. -/
def challengeCode? (body : String) : Option String := do
  let rest ← dropStart? challengeWording.toList body.toList
  return String.ofList (← joinGroups? rest)

example : challengeCode? "Your TextSecure verification code: 123-4567" = some "1234567" := by
  decide +kernel
example : challengeCode? "Your TextSecure verification code: 123-45-67" = none := by
  decide +kernel

end TextVault.Intake
