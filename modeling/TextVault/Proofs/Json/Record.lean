import TextVault.Json.Reader
import TextVault.Json.Writer
import TextVault.Proofs.Json.Skip

/-
  Objects are read by the names they list.

  Problem: the fields of a record come in any order and not all of them need to be there, and between them
  stand members that the record does not know.

  Program: an object is written from its members, each a name and the text of its value (`objectText`).
  `Reads` says that a reader takes a value from the front of a text, and `Lists` that the members of an object
  give the fields found, each by the reader of its name, while any JSON value may stand under another name.

  Spec: if no name is found twice and none is missing that is required, then the object reads as the record of
  the fields found (`reads_record`).
-/
namespace TextVault.Json

open Text Reader

/-- The reader takes the value from the front of every text that starts with the given one, if no number goes
on after it. -/
def Reads (r : Reader) (text : List Char) (j : Json) : Prop :=
  ∀ rest, Ends rest → r (text ++ rest) = .ok (j, rest)

/-- A text that a reader takes whole is read as a text that holds nothing else. -/
theorem Reads.whole {r : Reader} {text : List Char} {j : Json} (h : Reads r text j) :
    r.whole text = .ok j := by
  have hread := h [] ends_nil
  rw [List.append_nil] at hread
  rw [Reader.whole, hread]
  rfl

/-! ## Objects -/

/-- A name and the text of its value. -/
abbrev Member := String × List Char

def memberText (m : Member) : List Char := writeString m.1 ++ ':' :: m.2

/-- The members after the first, each after a comma, and the closing brace. -/
def moreMembersText : List Member → List Char
  | [] => ['}']
  | m :: ms => ',' :: (memberText m ++ moreMembersText ms)

/-- The text of an object. -/
def objectText : List Member → List Char
  | [] => ['{', '}']
  | m :: ms => '{' :: (memberText m ++ moreMembersText ms)

/-- The members that a field is written as. -/
def memberOf (field : String × Json) : Member := (field.1, write field.2)

/-- What the writer puts behind the first field are the other members in order. -/
theorem writeMoreFields_eq (fields : Fields) :
    writeMoreFields fields = moreMembersText (fields.map memberOf) := by
  induction fields with
  | nil => rw [writeMoreFields]; rfl
  | cons field fields ih =>
    rw [writeMoreFields, ih, List.map_cons, moreMembersText, memberText, List.append_assoc]
    rfl

/-- A record is written as an object. -/
theorem write_record (fields : Fields) : write (.record fields) = objectText (fields.map memberOf) := by
  cases fields with
  | nil => rw [write, writeFields]; rfl
  | cons field fields =>
    rw [write, writeFields, writeMoreFields_eq, List.map_cons, objectText, memberText, List.append_assoc]
    rfl

/-- Behind a value comes a comma or a brace, so a number that stands there is over. -/
theorem ends_moreMembersText (ms : List Member) (rest : List Char) : Ends (moreMembersText ms ++ rest) := by
  cases ms with
  | nil => exact ends_cons _ rfl (by decide) (by decide) (by decide)
  | cons m ms => exact ends_cons _ rfl (by decide) (by decide) (by decide)

/-- Each member takes up at least a character, so the length of the text is fuel enough for all of them. -/
theorem length_moreMembersText (ms : List Member) : ms.length < (moreMembersText ms).length := by
  induction ms with
  | nil => exact Nat.one_pos
  | cons m ms ih =>
    rw [moreMembersText, List.length_cons, List.length_cons, List.length_append]
    omega

/-! ## Members and the fields they give -/

variable {fields : List Field} {ms : List Member} {found : Fields}

/-- The members give the fields that are found, in this order. -/
inductive Lists (fields : List Field) : List Member → Fields → Prop
  | nil : Lists fields [] []
  | known {name : String} {text : List Char} {f : Field} {j : Json} {ms : List Member} {found : Fields}
      (hf : fields.find? (fun f => f.name == name) = some f) (hread : Reads f.read text j)
      (h : Lists fields ms found) : Lists fields ((name, text) :: ms) ((name, j) :: found)
  | unknown {name : String} {text : List Char} {ms : List Member} {found : Fields}
      (hf : fields.find? (fun f => f.name == name) = none) (hvalue : IsJson .value text)
      (h : Lists fields ms found) : Lists fields ((name, text) :: ms) found

/-- A name that was written is read back. -/
theorem key_writeString (name : String) (rest : List Char) :
    key (writeString name ++ rest) = .ok (name.toList, rest) := by
  have hread := readString_append name.toList rest
  rw [writeString, List.cons_append, List.append_assoc]
  exact hread

/-- **A member under a known name is read by the reader of its field**, unless the field has been found before. -/
theorem member_known {f : Field} {name : String} {text rest : List Char} {j : Json}
    (hf : fields.find? (fun f => f.name == name) = some f) (hread : Reads f.read text j)
    (hnew : found.lookup name = none) (hrest : Ends rest) :
    member fields found (memberText (name, text) ++ rest) = .ok (found ++ [(name, j)], rest) := by
  have hname : f.name = name := by simpa using List.find?_some hf
  rw [memberText, List.append_assoc, member, key_writeString]
  simp only [bind, Except.bind, String.ofList_toList, hf]
  show f.readNamed found (':' :: (text ++ rest)) = _
  rw [Field.readNamed, hname, hnew]
  show (f.read (text ++ rest) >>= _) = _
  rw [hread rest hrest]
  rfl

/-- A member under any other name is passed over, so long as its value is JSON. -/
theorem member_unknown {name : String} {text rest : List Char}
    (hf : fields.find? (fun f => f.name == name) = none) (hvalue : IsJson .value text)
    (hrest : Ends rest) :
    member fields found (memberText (name, text) ++ rest) = .ok (found, rest) := by
  rw [memberText, List.append_assoc, member, key_writeString]
  simp only [bind, Except.bind, String.ofList_toList, hf]
  show (skip (text ++ rest) >>= fun cs => .ok (found, cs)) = _
  rw [skip_append hvalue hrest]
  rfl

/-- A name that was not found yet. -/
theorem lookup_eq_none {found : Fields} {name : String} (h : name ∉ found.map (·.1)) :
    found.lookup name = none := by
  rw [List.lookup_eq_none_iff]
  intro p hp
  have hne : name ≠ p.1 := fun heq => h (heq ▸ List.mem_map_of_mem hp)
  simpa using hne

/-- Members are read one after another up to the brace. What is found grows by the known ones, in the order in which
they stand. -/
theorem moreMembers_append (h : Lists fields ms found) {before : Fields}
    (hnodup : ((before ++ found).map (·.1)).Nodup)
    (hcomplete : complete fields (before ++ found) = .ok (before ++ found)) {fuel : Nat}
    (hfuel : ms.length < fuel) (rest : List Char) :
    moreMembers fields fuel before (moreMembersText ms ++ rest) = .ok (before ++ found, rest) := by
  induction h generalizing before fuel with
  | nil =>
    obtain ⟨fuel, rfl⟩ := Nat.exists_eq_succ_of_ne_zero (Nat.ne_of_gt hfuel)
    rw [List.append_nil] at hcomplete ⊢
    show (complete fields before >>= _) = _
    rw [hcomplete]
    rfl
  | @known name text f j ms found hf hread h ih =>
    rw [List.length_cons] at hfuel
    obtain ⟨fuel, rfl⟩ := Nat.exists_eq_succ_of_ne_zero (Nat.ne_of_gt (Nat.zero_lt_of_lt hfuel))
    -- No member is given twice, so the lookup among those read before comes back empty.
    have hnew : name ∉ before.map (·.1) := by
      intro hmem
      rw [List.map_append] at hnodup
      exact (List.nodup_append.mp hnodup).2.2 name hmem name List.mem_cons_self rfl
    show (member fields before (memberText (name, text) ++ moreMembersText ms ++ rest) >>= _) = _
    rw [List.append_assoc,
      member_known hf hread (lookup_eq_none hnew) (ends_moreMembersText ms rest)]
    have happend : before ++ (name, j) :: found = before ++ [(name, j)] ++ found := by
      rw [List.append_assoc, List.singleton_append]
    rw [happend] at hnodup hcomplete ⊢
    show moreMembers fields fuel (before ++ [(name, j)]) (moreMembersText ms ++ rest) = _
    exact ih hnodup hcomplete (by omega)
  | @unknown name text ms found hf hvalue h ih =>
    rw [List.length_cons] at hfuel
    obtain ⟨fuel, rfl⟩ := Nat.exists_eq_succ_of_ne_zero (Nat.ne_of_gt (Nat.zero_lt_of_lt hfuel))
    show (member fields before (memberText (name, text) ++ moreMembersText ms ++ rest) >>= _) = _
    -- The value of a member nobody asked for is skipped, and the fields found stay as they are.
    rw [List.append_assoc, member_unknown hf hvalue (ends_moreMembersText ms rest)]
    show moreMembers fields fuel before (moreMembersText ms ++ rest) = _
    exact ih hnodup hcomplete (by omega)

/-- Nothing is missing if every required field is among those found. -/
theorem complete_of_mem (h : ∀ f ∈ fields, f.isRequired = true → f.name ∈ found.map (·.1)) :
    complete fields found = .ok found := by
  refine if_pos (List.all_eq_true.mpr fun f hf => ?_)
  cases hrequired : f.isRequired with
  | false => rfl
  | true =>
    obtain ⟨p, hp, hname⟩ := List.mem_map.mp (h f hf hrequired)
    cases hlookup : found.lookup f.name with
    | some j => rfl
    | none =>
      have hne := List.lookup_eq_none_iff.mp hlookup p hp
      rw [hname] at hne
      simp at hne

/-- What follows the first member. -/
theorem record_append {m : Member} (before : Fields) (h : Lists fields ms found)
    (hnodup : ((before ++ found).map (·.1)).Nodup)
    (hcomplete : complete fields (before ++ found) = .ok (before ++ found)) {rest : List Char}
    (hm : member fields [] (memberText m ++ (moreMembersText ms ++ rest)) =
      .ok (before, moreMembersText ms ++ rest)) :
    Reader.record fields (objectText (m :: ms) ++ rest) = .ok (.record (before ++ found), rest) := by
  have hfuel : ms.length < (moreMembersText ms ++ rest).length + 1 := by
    have hlength := length_moreMembersText ms
    rw [List.length_append]
    omega
  show (member fields [] (memberText m ++ moreMembersText ms ++ rest) >>= _).map _ = _
  rw [List.append_assoc, hm]
  show (moreMembers fields _ before (moreMembersText ms ++ rest)).map _ = _
  rw [moreMembers_append h hnodup hcomplete hfuel]
  rfl

/-- **An object reads as the record of the fields found**, if none is found twice and none is missing. -/
theorem reads_record (h : Lists fields ms found) (hnodup : (found.map (·.1)).Nodup)
    (hcomplete : complete fields found = .ok found) :
    Reads (Reader.record fields) (objectText ms) (.record found) := by
  intro rest hrest
  cases h with
  | nil =>
    show (complete fields [] >>= _).map _ = _
    rw [hcomplete]
    rfl
  | known hf hread h =>
    exact record_append _ h hnodup hcomplete
      (member_known hf hread rfl (ends_moreMembersText _ rest))
  | unknown hf hvalue h =>
    exact record_append [] h hnodup hcomplete
      (member_unknown hf hvalue (ends_moreMembersText _ rest))

end TextVault.Json
