import TextVault.Text.Blank

/-
  The whitespace tag.

  Problem: a client tells its peers that it can speak securely by putting thirteen spaces behind a
  message, and has to take them off again without touching any other message.

  Program: a message is tagged when it ends in the tag and the character just before is not blank.
  `addTag` trims the end first, so what it makes is tagged unless the message is blank; `stripTag`
  takes the tag off a tagged message and leaves any other as it is.

  Spec: the functions work on the message backwards, where the tag comes first.
-/
namespace TextVault.Message

open Text

/-- The length of the tag. -/
def tagLength : Nat := 13

/-- Thirteen spaces. -/
def tag : List Char := List.replicate tagLength ' '

/-- The longest tagged message that fits one SMS. -/
def maxTaggedLength : Nat := 158

/-- What stands before the tag, if the message is tagged. -/
def untagged? (cs : List Char) : Option (List Char) :=
  let back := cs.reverse
  if tag.isPrefixOf back then
    match back.drop tagLength with
    | c :: rest => if isBlank c then none else some (c :: rest).reverse
    | [] => none
  else none

/-- Whether a message bears the tag: exactly its thirteen spaces stand behind the last character that is not blank. -/
def isTagged (message : String) : Bool := (untagged? message.toList).isSome

/-- Whether the message, tagged, fits one SMS. A blank message cannot be tagged. -/
def isTaggable (message : String) : Bool :=
  let body := trimEnd message.toList
  !body.isEmpty && body.length + tagLength ≤ maxTaggedLength

/-- Puts the tag behind the message, in place of the blanks at its end. -/
def addTag (message : String) : String := String.ofList (trimEnd message.toList ++ tag)

/-- Takes the tag off. -/
def stripTag (message : String) : String :=
  match untagged? message.toList with
  | some body => String.ofList body
  | none => message

/-- Taking a tag off that is not there changes nothing, not even blanks at the end. -/
theorem stripTag_of_not_isTagged {message : String} (h : isTagged message = false) :
    stripTag message = message := by
  unfold isTagged at h
  unfold stripTag
  split
  · simp_all
  · rfl

example : stripTag (addTag "hello there  ") = "hello there" := by decide +kernel
example : isTagged (String.ofList tag) = false := by decide +kernel
example : isTagged (String.ofList ('a' :: ' ' :: tag)) = false := by decide +kernel

end TextVault.Message
