import TextVault.Json.Codec
import TextVault.Proofs.Json.Listing

/-
  Types that are read back from their JSON form.

  Program: `LawfulCodec` is the law of a JSON form: the reader of the type takes every written value from the
  front of a text, and what it reads stands for that value. `LawfulLabels` says that no two values of an
  enumeration have one label.

  Spec: words and enumerations have the law, and a record has it if its fields do (`reads_fields`,
  `field?_head`, `field?_tail`). Under the law a value is read back from its written text (`decode_encode`).
-/
namespace TextVault.Json

open Text Reader

/-- The reader of the type reads back what is written, and that stands for the value. -/
class LawfulCodec (α : Type) [Codec α] : Prop where
  reads (a : α) : Reads (Codec.reader α) (write (toJson a)) (toJson a)
  ofJson?_toJson (a : α) : ofJson? (toJson a) = some a

export LawfulCodec (reads ofJson?_toJson)

/-- A text gives the value that stands for what is read from it. -/
theorem decode_of_reads {α : Type} [Codec α] {text : List Char} {j : Json} {a : α}
    (hread : Reads (Codec.reader α) text j) (hj : ofJson? j = some a) :
    decode (String.ofList text) = .ok a := by
  rw [decode, String.toList_ofList, hread.whole]
  simp only [bind, Except.bind, hj]

/-- **A value is read back from its text.** -/
theorem decode_encode {α : Type} [Codec α] [LawfulCodec α] (a : α) : decode (encode a) = .ok a :=
  decode_of_reads (reads a) (ofJson?_toJson a)

/-- Every value of the type is read back from its text. -/
def RoundTrips (α : Type) [Codec α] : Prop := ∀ a : α, decode (encode a) = .ok a

theorem roundTrips (α : Type) [Codec α] [LawfulCodec α] : RoundTrips α := decode_encode

/-- The members that a value is written as, if it is written as a record. -/
def membersOf {α : Type} [Codec α] (a : α) : List Member :=
  match toJson a with
  | .record fields => fields.map memberOf
  | _ => []

/-- Every listing of the members of a value is read, and gives what is picked from them. -/
def ReadsListings (α : Type) [Codec α] (pick : α → List Member → α) : Prop :=
  ∀ a ms, Listing (membersOf a) ms →
    ∃ j, Reads (Codec.reader α) (objectText ms) j ∧ ofJson? j = some (pick a ms)

/-! ## Words -/

instance : LawfulCodec Bool where
  reads b rest hrest := by
    cases b with
    | true =>
      show (expect ['r', 'u', 'e'] (['r', 'u', 'e'] ++ rest)).map _ = _
      rw [expect_append]
      rfl
    | false =>
      show (expect ['a', 'l', 's', 'e'] (['a', 'l', 's', 'e'] ++ rest)).map _ = _
      rw [expect_append]
      rfl
  ofJson?_toJson _ := rfl

instance : LawfulCodec String where
  reads s rest hrest := by
    show (readString (escapeAll s.toList ++ ['"'] ++ rest)).map _ = _
    rw [List.append_assoc, List.singleton_append, readString_append]
    show Except.ok (Json.text (String.ofList s.toList), rest) = _
    rw [String.ofList_toList]
    rfl
  ofJson?_toJson _ := rfl

/-! ## Integers -/

/-- What becomes of a number that was read. -/
def inBounds (low high : Int) (r : Option Int × List Char) : Except Fault (Json × List Char) :=
  match r.1 with
  | some n => if low ≤ n ∧ n ≤ high then .ok (.int n, r.2) else .error .mismatched
  | none => .error .mismatched

theorem inBounds_of_le {low high n : Int} (hlow : low ≤ n) (hhigh : n ≤ high) (rest : List Char) :
    inBounds low high (some n, rest) = .ok (.int n, rest) := if_pos ⟨hlow, hhigh⟩

theorem integer_minus (low high : Int) (cs : List Char) :
    integer low high ('-' :: cs) = readNumber true cs >>= inBounds low high := rfl

theorem integer_digit (low high : Int) {c : Char} (hc : isDigit c = true) (cs : List Char) :
    integer low high (c :: cs) = readNumber false (c :: cs) >>= inBounds low high := by
  rw [integer, skipGap_of_not_isGap (isGap_of_isDigit hc)]
  split
  · next heq =>
    obtain ⟨rfl, -⟩ := List.cons.inj heq
    nomatch hc
  · next heq =>
    obtain ⟨rfl, rfl⟩ := List.cons.inj heq
    rw [if_pos hc]
    rfl
  · next heq => nomatch heq

/-- **An integer within 64 bits, with a sign or without one, is read back.** -/
theorem reads_integer {low high n : Int} (hlow : low ≤ n) (hhigh : n ≤ high)
    (hmin : -0x8000000000000000 ≤ n) (hmax : n < 0x10000000000000000) :
    Reads (integer low high) (write (.int n)) (.int n) := by
  intro rest hrest
  -- Only a negative number is written with a sign.
  cases n with
  | ofNat m =>
    have hm : m < UInt64.size := Int.ofNat_lt.mp hmax
    have hread := readNumber_decimal hm false hrest
    have hdigits : ∀ c ∈ decimal m, isDigit c = true := fun _ => isDigit_of_mem_decimal
    have hne : decimal m ≠ [] := Nat.toDigits_ne_nil
    show integer low high (decimal m ++ rest) = _
    cases hdecimal : decimal m with
    | nil => exact absurd hdecimal hne
    | cons c ds =>
      rw [hdecimal] at hread hdigits
      rw [List.cons_append] at hread ⊢
      rw [integer_digit low high (hdigits c List.mem_cons_self), hread]
      exact inBounds_of_le hlow hhigh rest
  | negSucc m =>
    have hm : m + 1 ≤ UInt64.size / 2 := by
      show m + 1 ≤ 0x8000000000000000
      omega
    have hlt : m + 1 < UInt64.size := Nat.lt_of_le_of_lt hm (by decide)
    show integer low high ('-' :: (decimal (m + 1) ++ rest)) = _
    rw [integer_minus, readNumber_decimal hlt true hrest]
    have hsigned : signed? true (m + 1) = some (Int.negSucc m) := by
      rw [signed?, if_pos rfl, if_pos ⟨Nat.succ_pos m, hm⟩]
      rfl
    rw [hsigned]
    exact inBounds_of_le hlow hhigh rest

instance : LawfulCodec UInt8 where
  reads n := by
    have hn := n.toNat_lt
    refine reads_integer (Int.natCast_nonneg _) ?_ (by omega) (by omega)
    show (n.toNat : Int) ≤ 255
    omega
  ofJson?_toJson n := by
    show some (UInt8.ofNat n.toNat) = _
    rw [UInt8.ofNat_toNat]

instance : LawfulCodec UInt64 where
  reads n := by
    have hn := n.toNat_lt
    refine reads_integer (Int.natCast_nonneg _) ?_ (by omega) (by omega)
    show (n.toNat : Int) ≤ 18446744073709551615
    omega
  ofJson?_toJson n := by
    show some (UInt64.ofNat n.toNat) = _
    rw [UInt64.ofNat_toNat]

instance : LawfulCodec Int32 where
  reads n := by
    have hlow := n.le_toInt
    have hhigh := n.toInt_lt
    exact reads_integer hlow n.toInt_le (by omega) (by omega)
  ofJson?_toJson n := by
    show some (Int32.ofInt n.toInt) = _
    rw [Int32.ofInt_toInt]

instance : LawfulCodec Int64 where
  reads n := by
    have hlow := n.le_toInt
    have hhigh := n.toInt_lt
    exact reads_integer hlow n.toInt_le (by omega) (by omega)
  ofJson?_toJson n := by
    show some (Int64.ofInt n.toInt) = _
    rw [Int64.ofInt_toInt]

/-! ## Enumerations -/

/-- Every value is listed, and no two have one label. -/
class LawfulLabels (α : Type) [Labelled α] : Prop where
  mem (a : α) : a ∈ Labelled.all
  inj (a b : α) (h : label a = label b) : a = b

/-- The label of a value is found among the labels of its type, and it is the label of no other value. -/
theorem find_plainVariants {α : Type} [Labelled α] [LawfulLabels α] (a : α) :
    ∃ v, Reader.find (plainVariants α) (label a).toList = .ok v ∧ v.label = label a ∧ v.payload = none := by
  rw [Reader.find, String.ofList_toList]
  cases hv : (plainVariants α).find? fun v => v.label == label a with
  | none =>
    have hmem : { label := label a } ∈ plainVariants α := List.mem_map_of_mem (LawfulLabels.mem a)
    have hne := List.find?_eq_none.mp hv _ hmem
    exact absurd (beq_self_eq_true (label a)) hne
  | some v =>
    obtain ⟨b, -, rfl⟩ := List.mem_map.mp (List.mem_of_find?_eq_some hv)
    exact ⟨_, rfl, by simpa using List.find?_some hv, rfl⟩

/-- A label alone is read as the value that has it. -/
theorem choice_label {variants : List Variant} {name : String} {v : Variant}
    (hfind : Reader.find variants name.toList = .ok v) (hlabel : v.label = name) (hpayload : v.payload = none) :
    Reads (choice variants) (write (.text name)) (.text name) := by
  intro rest hrest
  show (readString (escapeAll name.toList ++ ['"'] ++ rest) >>= _) = _
  rw [List.append_assoc, List.singleton_append, readString_append]
  show (Reader.find variants name.toList >>= _) = _
  rw [hfind]
  show (if v.payload.isSome then _ else Except.ok (Json.text v.label, rest)) = _
  rw [hpayload, hlabel]
  rfl

/-- A label with something behind it is read as an object of one name, which is how it is written. -/
theorem choice_payload {variants : List Variant} {name : String} {v : Variant} {r : Reader} {j : Json}
    (hfind : Reader.find variants name.toList = .ok v) (hlabel : v.label = name)
    (hpayload : v.payload = some r) (hread : Reads r (write j) j) :
    Reads (choice variants) (write (.record [(name, j)])) (.record [(name, j)]) := by
  intro rest hrest
  have hends : Ends ('}' :: rest) := ends_cons rest rfl (by decide) (by decide) (by decide)
  have htext : write (.record [(name, j)]) ++ rest =
      '{' :: (writeString name ++ (':' :: (write j ++ '}' :: rest))) := by
    rw [write_record]
    simp [objectText, memberOf, memberText, moreMembersText]
  rw [htext]
  show (key (writeString name ++ (':' :: (write j ++ '}' :: rest))) >>= _) = _
  rw [key_writeString]
  show (Reader.find variants name.toList >>= _) = _
  rw [hfind]
  show (v.read (write j ++ '}' :: rest) >>= _) = _
  rw [Variant.read, hpayload]
  show ((r (write j ++ '}' :: rest)).map _ >>= _) = _
  rw [hread _ hends, hlabel]
  rfl

instance {α : Type} [Labelled α] [LawfulLabels α] : LawfulCodec α where
  reads a := by
    obtain ⟨v, hfind, hlabel, hpayload⟩ := find_plainVariants a
    exact choice_label hfind hlabel hpayload
  ofJson?_toJson a := ofLabel?_label LawfulLabels.mem LawfulLabels.inj a

/-! ## Fields -/

section Fields

variable {α : Type} [Codec α] {fields : Fields} {name other : String}

theorem lookup_cons_of_ne {j : Json} (h : name ≠ other) :
    ((other, j) :: fields).lookup name = fields.lookup name := by
  rw [List.lookup_cons, beq_false_of_ne h]

/-- The fields of a record are looked for one by one, so those of other names drop out of the search. Together with
the next lemmas this is what evaluates the fields of a record in the order in which they were written. -/
@[simp] theorem field?_tail {j : Json} (h : name ≠ other) :
    (field? (.record ((other, j) :: fields)) name : Option α) = field? (.record fields) name := by
  rw [field?, field?, get?, get?, lookup_cons_of_ne h]

@[simp] theorem fieldD_tail {j : Json} (d : α) (h : name ≠ other) :
    fieldD (.record ((other, j) :: fields)) name d = fieldD (.record fields) name d := by
  rw [fieldD, fieldD, get?, get?, lookup_cons_of_ne h]

/-- A field of a listing is what it was read as, or its default. -/
theorem fieldD_listed_cons {j : Json} {a : α} (hj : ofJson? j = some a) (ms : List Member) (d : α) :
    fieldD (.record (listed ((name, j) :: fields) ms)) name d = some (ofListed ms name a d) := by
  rw [fieldD, get?, lookup_listed, List.lookup_cons_self, ofListed]
  by_cases hname : name ∈ ms.map (·.1)
  · rw [if_pos hname, if_pos hname]
    exact hj
  · rw [if_neg hname, if_neg hname]

@[simp] theorem fieldD_listed_tail {j : Json} (ms : List Member) (d : α) (h : name ≠ other) :
    fieldD (.record (listed ((other, j) :: fields) ms)) name d =
      fieldD (.record (listed fields ms)) name d := by
  rw [fieldD, fieldD, get?, get?, lookup_listed, lookup_listed, lookup_cons_of_ne h]

variable [LawfulCodec α]

/-- The field that is looked for is read back as the value it was made of. -/
@[simp] theorem field?_head (a : α) : field? (.record ((name, toJson a) :: fields)) name = some a := by
  rw [field?, get?, List.lookup_cons_self]
  exact ofJson?_toJson a

@[simp] theorem fieldD_head (a d : α) :
    fieldD (.record ((name, toJson a) :: fields)) name d = some a := by
  rw [fieldD, get?, List.lookup_cons_self]
  exact ofJson?_toJson a

/-- In a listing it has its value if it is listed, and its default if it is not. -/
@[simp] theorem fieldD_listed_head (ms : List Member) (a d : α) :
    fieldD (.record (listed ((name, toJson a) :: fields) ms)) name d = some (ofListed ms name a d) :=
  fieldD_listed_cons (ofJson?_toJson a) ms d

end Fields

end TextVault.Json
