import TextVault.Json.Reader
import TextVault.Json.Writer
import TextVault.Labelled

/-
  Types with a JSON form.

  Problem: records, enumerations and words are written as JSON and read back, and what is read may
  leave fields out, name unknown ones, or give a record as an array of its fields.

  Program: a `Codec` gives a type its form: the value that is written, the reader of its shape, and what
  a value of that shape stands for. An enumeration is the label of its value (`Labelled`); a record
  lists its fields with `required` and `optional` and takes them with `field?` and `fieldD`.

  Assumed of what derives such forms: an enumeration is written as its label, the fields of a record are
  written in their order, all of them, and a default stands in for a field left out only where one is declared.

  Spec: of an object only the known names count, once each and in any order; a field that is left out
  has its default, where the type names one.
-/
namespace TextVault

/-- A type with a JSON form. -/
class Json.Codec (α : Type) where
  toJson : α → Json
  reader : Json.Reader
  ofJson? : Json → Option α

export Json.Codec (toJson ofJson?)

namespace Json

/-! ## Words -/

instance : Codec Bool where
  toJson := .bool
  reader := .bool
  ofJson?
    | .bool b => some b
    | _ => none

instance : Codec String where
  toJson := .text
  reader := .text
  ofJson?
    | .text s => some s
    | _ => none

/-- The integer of a value. -/
def int? : Json → Option Int
  | .int n => some n
  | _ => none

instance : Codec UInt8 where
  toJson n := .int n.toNat
  reader := .integer 0 (UInt8.size - 1)
  ofJson? j := j.int?.map fun n => UInt8.ofNat n.toNat

instance : Codec UInt64 where
  toJson n := .int n.toNat
  reader := .integer 0 (UInt64.size - 1)
  ofJson? j := j.int?.map fun n => UInt64.ofNat n.toNat

instance : Codec Int32 where
  toJson n := .int n.toInt
  reader := .integer Int32.minValue.toInt Int32.maxValue.toInt
  ofJson? j := j.int?.map Int32.ofInt

instance : Codec Int64 where
  toJson n := .int n.toInt
  reader := .integer Int64.minValue.toInt Int64.maxValue.toInt
  ofJson? j := j.int?.map Int64.ofInt

/-! ## Enumerations -/

/-- The labels of a type as variants with nothing behind them. -/
def plainVariants (α : Type) [Labelled α] : List Reader.Variant :=
  (Labelled.all : List α).map fun a => { label := label a }

instance {α : Type} [Labelled α] : Codec α where
  toJson a := .text (label a)
  reader := .choice (plainVariants α)
  ofJson?
    | .text s => ofLabel? s
    | _ => none

/-! ## Records -/

/-- A field that has to be there. -/
def required (α : Type) [Codec α] (name : String) : Reader.Field :=
  { name, isRequired := true, read := Codec.reader α }

/-- A field that may be left out. -/
def optional (α : Type) [Codec α] (name : String) : Reader.Field :=
  { name, isRequired := false, read := Codec.reader α }

/-- The value of a field by its name. -/
def get? (j : Json) (name : String) : Option Json :=
  match j with
  | .record fields => fields.lookup name
  | _ => none

/-- Takes a field that has to be there. -/
def field? {α : Type} [Codec α] (j : Json) (name : String) : Option α := j.get? name >>= ofJson?

/-- Takes a field that has a default. -/
def fieldD {α : Type} [Codec α] (j : Json) (name : String) (default : α) : Option α :=
  match j.get? name with
  | some value => ofJson? value
  | none => some default

/-! ## Texts -/

/-- Writes a value as JSON text. -/
def encode {α : Type} [Codec α] (a : α) : String := String.ofList (write (toJson a))

/-- Reads a value from JSON text. -/
def decode {α : Type} [Codec α] (s : String) : Except Fault α := do
  let j ← (Codec.reader α).whole s.toList
  match ofJson? j with
  | some a => .ok a
  | none => .error .mismatched

end Json

end TextVault
