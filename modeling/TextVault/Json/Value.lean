/-
  JSON values.

  Problem: settings and message data are exchanged as JSON, where a text may be no JSON at all, may
  end too early, or may be JSON of another shape than the one expected.

  Program: `Json` holds what the types of this library need: truth values, integers, texts and records.
  The fields of a record are in order. An array or a fraction is never what a type asks for, so it has
  no value here, and the readers refuse it where it stands.

  Assumed of the format: a text is read from its front, without looking back, and its first fault is the one
  reported. Blanks may stand between any two tokens, and arrays and objects nest as deep as the text goes.

  Spec: `Fault` names the three ways to fail.
-/
namespace TextVault

/-- Why a JSON text does not give the value asked for. -/
inductive Json.Fault where
  /-- The text ends inside a value. -/
  | unfinished
  /-- The text is no JSON, or its form rules out every value of the type. -/
  | malformed
  /-- The text is JSON of the wrong shape. -/
  | mismatched
  deriving DecidableEq, Repr

/-- A JSON value. -/
inductive Json where
  | bool (b : Bool)
  | int (n : Int)
  | text (s : String)
  | record (fields : List (String × Json))
  deriving Repr

namespace Json

/-- Reads a value at the front of a text; what is not read is left. -/
abbrev Scan (α : Type) := List Char → Except Fault (α × List Char)

/-- The blanks that JSON knows. -/
def isGap (c : Char) : Bool := c = ' ' || c = '\n' || c = '\t' || c = '\r'

/-- What is left behind the blanks that may stand between two tokens. -/
def skipGap (cs : List Char) : List Char := cs.dropWhile isGap

/-- Reads the rest of a literal. -/
def expect : List Char → List Char → Except Fault (List Char)
  | [], cs => .ok cs
  | _ :: _, [] => .error .unfinished
  | w :: ws, c :: cs => if w = c then expect ws cs else .error .malformed

/-- Reads the colon between a name and its value, with blanks before it. -/
def expectColon (cs : List Char) : Except Fault (List Char) :=
  match skipGap cs with
  | [] => .error .unfinished
  | ':' :: cs => .ok cs
  | _ => .error .malformed

/-- A word that stands at the front is found there, and what follows is left. -/
theorem expect_append (w cs : List Char) : expect w (w ++ cs) = .ok cs := by
  induction w with
  | nil => rfl
  | cons c w ih => simp [expect, ih]

end Json

end TextVault
