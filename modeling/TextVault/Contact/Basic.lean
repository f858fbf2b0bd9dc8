import TextVault.Text.Blank
import TextVault.Text.Numeral
import TextVault.Text.Quoted

/-
  Contacts and their addresses.

  Problem: a conversation is shown by the names of its contacts and sent to their numbers, and a number
  typed by a person holds more than can be dialled.

  Program: a contact has a number, which is all that tells it from others, and perhaps a name. The
  number may be an email address (`isEmail`); any other is scrubbed to its ASCII digits and plus
  signs (`scrub`).

  Spec: scrubbing leaves email addresses alone and gives a subsequence of any other number
  (`dialled_sublist`).
-/
namespace TextVault

open Text

/-- One participant of a conversation. -/
structure Contact where
  number : String
  name : Option String := none
  deriving DecidableEq, Repr

namespace Contact

/-- The name if there is one, and the number if not. -/
def shortText (c : Contact) : String := c.name.getD c.number

/-- Contacts are the same when their numbers are. -/
def same (a b : Contact) : Bool := a.number == b.number

/-- A contact with all its details, for a log. -/
def details (c : Contact) : String :=
  let name := match c.name with
    | some name => "Some(" ++ quote name ++ ")"
    | none => "None"
  "Recipient \x7b number: " ++ quote c.number ++ ", name: " ++ name ++ " \x7d"

end Contact

/-! ## Addresses -/

/-- Text before an at-sign and a dotted name after it, with no blank anywhere. The dots of the name
are inside it, and it has no other at-sign. -/
def isEmail (number : String) : Bool :=
  let cs := number.toList
  let user := cs.takeWhile (· != '@')
  match cs.dropWhile (· != '@') with
  | [] => false
  | _ :: host =>
    !user.isEmpty && !host.contains '@' && host.contains '.' &&
      host.head? != some '.' && host.getLast? != some '.' && !cs.any isBlank

/-- The part of a number that can be dialled. -/
def dialled (number : String) : String :=
  String.ofList (number.toList.filter fun c => isDigit c || c == '+')

/-- Dialling a number invents nothing: what is dialled stands in the number, in the same order. -/
theorem dialled_sublist (number : String) :
    (dialled number).toList.Sublist number.toList := by
  simp [dialled, List.filter_sublist]

/-- The address to send to. -/
def scrub (number : String) : String := if isEmail number then number else dialled number

/-! ## Groups -/

/-- The participants of one conversation, in order. -/
abbrev Group := List Contact

namespace Group

/-- A conversation with one contact, for which a list of threads shows the contact itself. -/
def isSingle (g : Group) : Bool := g.length == 1

/-- The first participant. -/
def primary? (g : Group) : Option Contact := g.head?

/-- The numbers of a group, as they are stored. -/
def numbers (g : Group) : List String := g.map (·.number)

/-- The numbers of a group in the form in which a message is sent to them. -/
def scrubbed (g : Group) : List String := g.map fun c => scrub c.number

/-- Whether one of the addresses of the group is an email address and no number to dial. -/
def hasEmail (g : Group) : Bool := g.any fun c => isEmail c.number

/-- The short texts of all participants. -/
def shortText (g : Group) : String := ", ".intercalate (g.map Contact.shortText)

/-- Groups are the same when they have the same contacts in the same order. -/
def same : Group → Group → Bool
  | [], [] => true
  | a :: g, b :: h => a.same b && same g h
  | _, _ => false

end Group

example : isEmail "a@b.c" = true := by decide +kernel
example : isEmail "a@.c" = false := by decide +kernel
example : scrub "+1 (555) 010-2000" = "+15550102000" := by decide +kernel

end TextVault
