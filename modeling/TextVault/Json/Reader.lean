import TextVault.Json.Skip

/-
  Reading JSON of a given shape.

  Problem: a text is read for a value of a known type, and what is wrong with it is the first thing that
  goes wrong on the way from its front to its end. So a text that ends too early may still be of the
  wrong shape, and one of the wrong shape may have no end.

  Program: a `Reader` reads one value. `Reader.bool`, `Reader.text` and `Reader.integer` read words,
  `Reader.choice` a value by its label, and `Reader.record` the fields of a record, by name from an
  object and by place from an array. `Reader.whole` reads a text that holds nothing else.

  Assumed of the reader of JSON: a record is taken from an object or from an array, a field given twice is a
  fault, a field of an unknown name is passed over, and what follows the value in a text may only be blanks.

  Spec: a reader looks no further than the value it reads. Where another kind of value stands,
  `wrongShape` reads a word to its end before it is refused, but no array and no object.
-/
namespace TextVault.Json

open Text

/-- Reads a value of some shape. -/
abbrev Reader := Scan Json

/-- The fault of a value that is not of the shape asked for. A word that is no JSON has a fault of its
own. -/
def wrongShape (cs : List Char) : Fault :=
  let refuse {α : Type} : Except Fault α → Fault
    | .ok _ => .mismatched
    | .error fault => fault
  match cs with
  | [] => .unfinished
  | 'n' :: cs => refuse (expect ['u', 'l', 'l'] cs)
  | 't' :: cs => refuse (expect ['r', 'u', 'e'] cs)
  | 'f' :: cs => refuse (expect ['a', 'l', 's', 'e'] cs)
  | '-' :: cs => refuse (readNumber true cs)
  | '"' :: cs => refuse (readString cs)
  | '[' :: _ => .mismatched
  | '{' :: _ => .mismatched
  | c :: cs => if isDigit c then refuse (readNumber false (c :: cs)) else .malformed

namespace Reader

/-! ## Words -/

/-- Reads a truth value. A word is read to its end before it is found to be another one. -/
def bool : Reader := fun cs =>
  match skipGap cs with
  | 't' :: cs => (expect ['r', 'u', 'e'] cs).map fun rest => (.bool true, rest)
  | 'f' :: cs => (expect ['a', 'l', 's', 'e'] cs).map fun rest => (.bool false, rest)
  | cs => .error (wrongShape cs)

/-- Reads a text, as its characters with the escapes gone. -/
def text : Reader := fun cs =>
  match skipGap cs with
  | '"' :: cs => (readString cs).map fun r => (.text (String.ofList r.1), r.2)
  | cs => .error (wrongShape cs)

/-- Reads an integer of at least `low` and at most `high`. -/
def integer (low high : Int) : Reader := fun cs =>
  let bounded (r : Option Int × List Char) : Except Fault (Json × List Char) :=
    match r.1 with
    | some n => if low ≤ n ∧ n ≤ high then .ok (.int n, r.2) else .error .mismatched
    -- A number with a fraction or an exponent, or one too long, is no integer.
    | none => .error .mismatched
  match skipGap cs with
  | '-' :: cs => readNumber true cs >>= bounded
  | c :: cs =>
    if isDigit c then readNumber false (c :: cs) >>= bounded
    else .error (wrongShape (c :: cs))
  | [] => .error .unfinished

/-- Passes over null. -/
def null (cs : List Char) : Except Fault (List Char) :=
  match skipGap cs with
  | 'n' :: cs => expect ['u', 'l', 'l'] cs
  | cs => .error (wrongShape cs)

/-! ## Labels -/

/-- Reads a name, which nothing but a string can be. -/
def key : Scan (List Char) := fun cs =>
  match skipGap cs with
  | [] => .error .unfinished
  | '"' :: cs => readString cs
  | _ => .error .malformed

/-- A label, and how to read what comes with it. -/
structure Variant where
  label : String
  payload : Option Reader := none

/-- Finds a variant by its label. -/
def find (variants : List Variant) (name : List Char) : Except Fault Variant :=
  match variants.find? fun v => v.label == String.ofList name with
  | some v => .ok v
  | none => .error .mismatched

/-- Reads what comes with a label; where nothing does, null stands for it. -/
def Variant.read (v : Variant) : Reader := fun cs =>
  match v.payload with
  | none => (null cs).map fun rest => (.text v.label, rest)
  | some payload => (payload cs).map fun r => (.record [(v.label, r.1)], r.2)

/-- Reads a label alone, or as the only name of an object with what comes with it. -/
def choice (variants : List Variant) : Reader := fun cs =>
  match skipGap cs with
  | [] => .error .unfinished
  | '"' :: cs => do
    let (name, cs) ← readString cs
    let v ← find variants name
    -- The bare name is enough only for a variant without a payload.
    if v.payload.isSome then .error .mismatched else .ok (.text v.label, cs)
  | '{' :: cs => do
    let (name, cs) ← key cs
    let v ← find variants name
    let (j, cs) ← v.read (← expectColon cs)
    match skipGap cs with
    | [] => .error .unfinished
    | '}' :: cs => .ok (j, cs)
    | _ => .error .malformed
  | _ => .error .malformed

/-! ## Records -/

/-- A field of a record. -/
structure Field where
  name : String
  /-- Whether it has to be there. -/
  isRequired : Bool
  read : Reader

/-- The fields found in a text, by name. -/
abbrev Fields := List (String × Json)

/-- Checks that no required field is missing. -/
def complete (fields : List Field) (found : Fields) : Except Fault Fields :=
  if fields.all fun f => !f.isRequired || (found.lookup f.name).isSome then .ok found
  else .error .mismatched

/-- Reads a field whose name is known. -/
def Field.readNamed (f : Field) (found : Fields) (cs : List Char) :
    Except Fault (Fields × List Char) :=
  if (found.lookup f.name).isSome then .error .mismatched
  else do
    let (j, cs) ← f.read (← expectColon cs)
    return (found ++ [(f.name, j)], cs)

/-- Reads one name and its value; an unknown name is passed over with its value. -/
def member (fields : List Field) (found : Fields) (cs : List Char) :
    Except Fault (Fields × List Char) := do
  let (name, cs) ← key cs
  match fields.find? fun f => f.name == String.ofList name with
  | some f => f.readNamed found cs
  | none => return (found, ← skip (← expectColon cs))

/-- Reads names and values up to the closing brace. `fuel` bounds their number. -/
def moreMembers (fields : List Field) : Nat → Fields → List Char →
    Except Fault (Fields × List Char)
  | 0, _, _ => .error .unfinished
  | fuel + 1, found, cs =>
    match skipGap cs with
    | [] => .error .unfinished
    | '}' :: cs => return (← complete fields found, cs)
    | ',' :: cs => do
      let (found, cs) ← member fields found cs
      moreMembers fields fuel found cs
    | _ => .error .malformed

/-- Reads the names and values of an object whose opening brace is gone. -/
def members (fields : List Field) : Scan Fields := fun cs =>
  match skipGap cs with
  | '}' :: cs => return (← complete fields [], cs)
  | cs => do
    let (found, cs) ← member fields [] cs
    moreMembers fields (cs.length + 1) found cs

/-- Reads the end of an array; nothing may stand before it. -/
def arrayEnd (cs : List Char) : Except Fault (List Char) :=
  match skipGap cs with
  | [] => .error .unfinished
  | ']' :: cs => .ok cs
  | _ => .error .malformed

/-- Reads the values of further fields, each after a comma, up to the closing bracket. -/
def moreItems : List Field → Scan Fields
  | [], cs => (arrayEnd cs).map fun rest => ([], rest)
  | f :: fields, cs =>
    match skipGap cs with
    | [] => .error .unfinished
    | ']' :: cs => return (← complete (f :: fields) [], cs)
    | ',' :: cs =>
      match skipGap cs with
      | [] => .error .unfinished
      -- A comma promises one more value.
      | ']' :: _ => .error .malformed
      | cs => do
        let (j, cs) ← f.read cs
        let (found, cs) ← moreItems fields cs
        return ((f.name, j) :: found, cs)
    | _ => .error .malformed

/-- Reads the values of the fields in order from an array whose opening bracket is gone; those at the
end may be left out if they are not required. -/
def items : List Field → Scan Fields
  | [], cs => (arrayEnd cs).map fun rest => ([], rest)
  | f :: fields, cs =>
    match skipGap cs with
    | [] => .error .unfinished
    | ']' :: cs => return (← complete (f :: fields) [], cs)
    | cs => do
      let (j, cs) ← f.read cs
      let (found, cs) ← moreItems fields cs
      return ((f.name, j) :: found, cs)

/-- Reads a record, each field at most once. -/
def record (fields : List Field) : Reader := fun cs =>
  match skipGap cs with
  | '{' :: cs => (members fields cs).map fun r => (.record r.1, r.2)
  | '[' :: cs => (items fields cs).map fun r => (.record r.1, r.2)
  | cs => .error (wrongShape cs)

/-! ## Texts -/

/-- Reads a text that holds one value and blanks around it. -/
def whole (r : Reader) (cs : List Char) : Except Fault Json := do
  let (j, rest) ← r cs
  if (skipGap rest).isEmpty then .ok j else .error .malformed

end Reader

end TextVault.Json
