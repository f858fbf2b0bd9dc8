import TextVault.Proofs.Json.Record

/-
  Objects that list some of the fields of a record.

  Problem: an object may list any of the fields that are written, in any order and among members that the record
  does not know, and every field that it lists is to be read as if all of them stood there.

  Program: `Covers` says of the fields of a record which text each is written as and which value is read from it.
  A `Listing` takes some of these members and adds others under other names. `listed` picks the values of the
  fields that are listed, in the order of the members.

  Spec: a listing reads as the record of the listed values, if it has all that is required (`reads_listing`), and
  a name is looked up there as it is among all values (`lookup_listed`). A record that is written with all its
  fields is a listing of itself (`reads_fields`).
-/
namespace TextVault.Json

open Text Reader

/-! ## Fields, their texts and their values -/

/-- Each field has a text under its name, from which its reader takes a value. -/
inductive Covers : List Field → List Member → Fields → Prop
  | nil : Covers [] [] []
  | cons {f : Field} {text : List Char} {j : Json} {fields : List Field} {all : List Member}
      {values : Fields} (hread : Reads f.read text j) (h : Covers fields all values) :
      Covers (f :: fields) ((f.name, text) :: all) ((f.name, j) :: values)

namespace Covers

variable {fields : List Field} {all : List Member} {values : Fields}

/-- Texts and values come under the names of the fields, in the same order. -/
theorem names (h : Covers fields all values) :
    all.map (·.1) = fields.map (·.name) ∧ values.map (·.1) = fields.map (·.name) := by
  induction h with
  | nil => exact ⟨rfl, rfl⟩
  | cons hread h ih =>
    obtain ⟨hall, hvalues⟩ := ih
    simp only [List.map_cons, hall, hvalues, and_self]

/-- The field of a member, if no two fields have one name. -/
theorem exists_field (h : Covers fields all values) (hnodup : (fields.map (·.name)).Nodup) {m : Member}
    (hm : m ∈ all) : ∃ f j, fields.find? (fun f => f.name == m.1) = some f ∧ Reads f.read m.2 j ∧
      values.lookup m.1 = some j := by
  induction h with
  | nil => nomatch hm
  | @cons f text j fields all values hread h ih =>
    rw [List.map_cons, List.nodup_cons] at hnodup
    rcases List.mem_cons.mp hm with rfl | hm
    · exact ⟨f, j, List.find?_cons_of_pos (beq_self_eq_true _), hread, List.lookup_cons_self⟩
    · -- The fields have names of their own, so the search passes over this one.
      have hne : f.name ≠ m.1 := by
        rintro heq
        rw [heq, ← h.names.1] at hnodup
        exact hnodup.1 (List.mem_map_of_mem hm)
      obtain ⟨g, j', hfind, hread', hlookup⟩ := ih hnodup.2 hm
      refine ⟨g, j', ?_, hread', ?_⟩
      · rw [List.find?_cons_of_neg (by simpa using hne)]
        exact hfind
      · rw [List.lookup_cons, beq_false_of_ne hne.symm]
        exact hlookup

/-- A name of none of the fields has neither a reader nor a value. -/
theorem find?_eq_none (h : Covers fields all values) {name : String} (hname : name ∉ all.map (·.1)) :
    fields.find? (fun f => f.name == name) = none ∧ values.lookup name = none := by
  refine ⟨?_, lookup_eq_none (by rw [h.names.2, ← h.names.1]; exact hname)⟩
  rw [List.find?_eq_none]
  intro f hf heq
  rw [h.names.1] at hname
  exact hname (by simpa using ⟨f, hf, by simpa using heq⟩)

end Covers

/-! ## Listings -/

/-- The members list some of the given ones, in any order and each once at most, among members of other names
with any value. -/
structure Listing (all ms : List Member) : Prop where
  written : ∀ m ∈ ms, m.1 ∈ all.map (·.1) → m ∈ all
  once : ((ms.map (·.1)).filter fun name => name ∈ all.map (·.1)).Nodup
  other : ∀ m ∈ ms, m.1 ∉ all.map (·.1) → IsJson .value m.2

/-- The values of the fields that are listed. -/
def listed (values : Fields) (ms : List Member) : Fields :=
  ms.filterMap fun m => (values.lookup m.1).map fun j => (m.1, j)

/-- A member under a name of a field adds the value of the field. -/
theorem listed_cons_some {values : Fields} {m : Member} {j : Json} (h : values.lookup m.1 = some j)
    (ms : List Member) : listed values (m :: ms) = (m.1, j) :: listed values ms := by
  rw [listed, List.filterMap_cons, h]
  rfl

theorem listed_cons_none {values : Fields} {m : Member} (h : values.lookup m.1 = none)
    (ms : List Member) : listed values (m :: ms) = listed values ms := by
  rw [listed, List.filterMap_cons, h]
  rfl

/-- A name is looked up as among all values, if it is listed. -/
theorem lookup_listed (values : Fields) (ms : List Member) (name : String) :
    (listed values ms).lookup name = if name ∈ ms.map (·.1) then values.lookup name else none := by
  induction ms with
  | nil => rfl
  | cons m ms ih =>
    rw [List.map_cons]
    by_cases hname : name = m.1
    · subst hname
      rw [if_pos List.mem_cons_self]
      -- The first member of the name decides: its value is found, and without one no other of the name has any.
      cases hlookup : values.lookup m.1 with
      | some j => rw [listed_cons_some hlookup, List.lookup_cons_self]
      | none =>
        rw [listed_cons_none hlookup, ih, hlookup]
        exact ite_self none
    · have hrest : (listed values (m :: ms)).lookup name = (listed values ms).lookup name := by
        cases hlookup : values.lookup m.1 with
        | some j => rw [listed_cons_some hlookup, List.lookup_cons, beq_false_of_ne hname]
        | none => rw [listed_cons_none hlookup]
      rw [hrest, ih]
      simp only [List.mem_cons, hname, false_or]

/-- A value that counts if its name is listed, and the default that counts if not. -/
def ofListed {α : Type} (ms : List Member) (name : String) (value default : α) : α :=
  if name ∈ ms.map (·.1) then value else default

variable {fields : List Field} {all ms : List Member} {values : Fields}

/-- A listing without its first member lists as well. -/
theorem Listing.tail {m : Member} (h : Listing all (m :: ms)) : Listing all ms where
  written m' hm' := h.written m' (List.mem_cons_of_mem m hm')
  once := by
    have hsub : (ms.map (·.1)).Sublist ((m :: ms).map (·.1)) := List.sublist_cons_self ..
    exact h.once.sublist (hsub.filter _)
  other m' hm' := h.other m' (List.mem_cons_of_mem m hm')

/-- A listing gives the listed values. -/
theorem Listing.lists (h : Listing all ms) (hcovers : Covers fields all values)
    (hnodup : (fields.map (·.name)).Nodup) : Lists fields ms (listed values ms) := by
  induction ms with
  | nil => exact .nil
  | cons m ms ih =>
    by_cases hname : m.1 ∈ all.map (·.1)
    · have hm : m ∈ all := h.written m List.mem_cons_self hname
      obtain ⟨f, j, hfind, hread, hlookup⟩ := hcovers.exists_field hnodup hm
      rw [listed_cons_some hlookup]
      exact .known hfind hread (ih h.tail)
    · obtain ⟨hfind, hlookup⟩ := hcovers.find?_eq_none hname
      rw [listed_cons_none hlookup]
      exact .unknown hfind (h.other m List.mem_cons_self hname) (ih h.tail)

/-- The names of the listed values are the known ones among those of the members. -/
theorem names_listed (hcovers : Covers fields all values) (hnodup : (fields.map (·.name)).Nodup)
    (h : Listing all ms) :
    (listed values ms).map (·.1) = (ms.map (·.1)).filter fun name => name ∈ all.map (·.1) := by
  induction ms with
  | nil => rfl
  | cons m ms ih =>
    rw [List.map_cons]
    by_cases hname : m.1 ∈ all.map (·.1)
    · have hm : m ∈ all := h.written m List.mem_cons_self hname
      obtain ⟨f, j, -, -, hlookup⟩ := hcovers.exists_field hnodup hm
      rw [listed_cons_some hlookup, List.map_cons, ih h.tail,
        List.filter_cons_of_pos (by simpa using hname)]
    · obtain ⟨-, hlookup⟩ := hcovers.find?_eq_none hname
      rw [listed_cons_none hlookup, ih h.tail, List.filter_cons_of_neg (by simpa using hname)]

/-- **A listing reads as the record of the listed values**, if it has all that is required. -/
theorem reads_listing (h : Listing all ms) (hcovers : Covers fields all values)
    (hnodup : (fields.map (·.name)).Nodup)
    (hrequired : ∀ f ∈ fields, f.isRequired = true → f.name ∈ ms.map (·.1)) :
    Reads (Reader.record fields) (objectText ms) (.record (listed values ms)) := by
  have hnames := names_listed hcovers hnodup h
  refine reads_record (h.lists hcovers hnodup) ?_ (complete_of_mem fun f hf hreq => ?_)
  · rw [hnames]
    exact h.once
  · rw [hnames, List.mem_filter, hcovers.names.1]
    exact ⟨hrequired f hf hreq, by simpa using ⟨f, hf, rfl⟩⟩

/-! ## Records that are written -/

/-- The members as they are written are a listing of themselves, with nothing left out and nothing between them. -/
theorem Covers.listing (h : Covers fields all values) (hnodup : (fields.map (·.name)).Nodup) :
    Listing all all where
  written _ hm _ := hm
  once := by
    rw [h.names.1]
    exact hnodup.sublist List.filter_sublist
  other m hm hname := absurd (List.mem_map_of_mem hm) hname

/-- If no name comes twice, a value is found under its name. -/
theorem lookup_of_mem (hnodup : (values.map (·.1)).Nodup) {w : String × Json} (hw : w ∈ values) :
    values.lookup w.1 = some w.2 := by
  induction values with
  | nil => nomatch hw
  | cons v values ih =>
    rw [List.map_cons, List.nodup_cons] at hnodup
    rcases List.mem_cons.mp hw with rfl | hw
    · exact List.lookup_cons_self
    · have hne : w.1 ≠ v.1 := fun heq => hnodup.1 (heq ▸ List.mem_map_of_mem hw)
      rw [List.lookup_cons, beq_false_of_ne hne]
      exact ih hnodup.2 hw

/-- **The listing of everything gives everything back**, in the same order. -/
theorem listed_self (hnodup : (values.map (·.1)).Nodup) : listed values (values.map memberOf) = values := by
  -- The induction is on the members alone, while all values stay there to be looked up.
  have hself : ∀ ws : Fields, (∀ w ∈ ws, w ∈ values) → listed values (ws.map memberOf) = ws := by
    intro ws hws
    induction ws with
    | nil => rfl
    | cons w ws ih =>
      have hlookup : values.lookup (memberOf w).1 = some w.2 :=
        lookup_of_mem hnodup (hws w List.mem_cons_self)
      rw [List.map_cons, listed_cons_some hlookup, ih fun w hw => hws w (List.mem_cons_of_mem _ hw)]
      rfl
  exact hself values fun _ hw => hw

/-- **A record that is written with all its fields is read back.** -/
theorem reads_fields (hnodup : (fields.map (·.name)).Nodup)
    (h : Covers fields (values.map memberOf) values) :
    Reads (Reader.record fields) (write (.record values)) (.record values) := by
  have hread := reads_listing (h.listing hnodup) h hnodup fun f hf _ => by
    rw [h.names.1]
    exact List.mem_map_of_mem hf
  rw [listed_self (by rw [h.names.2]; exact hnodup)] at hread
  rw [write_record]
  exact hread

end TextVault.Json
