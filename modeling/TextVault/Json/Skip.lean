import TextVault.Json.Number
import TextVault.Json.Quoted

/-
  Passing over JSON values.

  Problem: a field with an unknown name may hold anything, so long as it is JSON.

  Program: `skipValue` passes over one value. Arrays and objects nest, so it and its partners count down
  `fuel`; twice the length of the text is more than they can use (`skip`).

  Assumed of the reader of JSON: what is passed over is checked to be JSON, and its depth has no bound.

  Spec: `unfinished` is the fault of a text that ends where more has to come, but in a number, and
  `malformed` that of a character which cannot stand where it does.
-/
namespace TextVault.Json

open Text

mutual

/-- Passes over a value with blanks before it. -/
def skipValue : Nat → List Char → Except Fault (List Char)
  | 0, _ => .error .unfinished
  | fuel + 1, cs =>
    match skipGap cs with
    | [] => .error .unfinished
    -- Only an empty object or array may end right after it has begun.
    | '{' :: cs =>
      match skipGap cs with
      | '}' :: cs => .ok cs
      | cs => skipFields fuel cs
    | '[' :: cs =>
      match skipGap cs with
      | ']' :: cs => .ok cs
      | cs => skipItems fuel cs
    | '"' :: cs => skipString cs
    | 'n' :: cs => expect ['u', 'l', 'l'] cs
    | 't' :: cs => expect ['r', 'u', 'e'] cs
    | 'f' :: cs => expect ['a', 'l', 's', 'e'] cs
    | '-' :: cs => skipNumber cs
    | c :: cs => if isDigit c then skipNumber (c :: cs) else .error .malformed

/-- Passes over the items of an array, one at least, and its closing bracket. -/
def skipItems : Nat → List Char → Except Fault (List Char)
  | 0, _ => .error .unfinished
  | fuel + 1, cs => do
    let cs ← skipValue fuel cs
    match skipGap cs with
    | [] => .error .unfinished
    | ',' :: cs => skipItems fuel cs
    | ']' :: cs => .ok cs
    | _ => .error .malformed

/-- Passes over the fields of an object, one at least, and its closing brace. -/
def skipFields : Nat → List Char → Except Fault (List Char)
  | 0, _ => .error .unfinished
  | fuel + 1, cs =>
    match skipGap cs with
    | [] => .error .unfinished
    | '"' :: cs => do
      let cs ← skipString cs
      let cs ← expectColon cs
      let cs ← skipValue fuel cs
      match skipGap cs with
      | [] => .error .unfinished
      | ',' :: cs => skipFields fuel cs
      | '}' :: cs => .ok cs
      | _ => .error .malformed
    | _ => .error .malformed

end

/-- Passes over a value. -/
def skip (cs : List Char) : Except Fault (List Char) := skipValue (2 * cs.length + 1) cs

example : skip " [1, \x7b\"a\": -0.5e3\x7d] x".toList = .ok " x".toList := by cbv
example : skip "[1,".toList = .error .unfinished := by cbv
example : skip "[1,-".toList = .error .malformed := by cbv

end TextVault.Json
