import TextVault.Proofs.Contact.Lineage

/-
  What scrubbing makes of a number.

  Problem: a number is scrubbed before it is sent to, and scrubbed again when a contact was made from what had
  been sent to. An email address has to come through untouched each time, and what was cut down must not look
  like one, or the second scrubbing would keep what the first one cut.

  Program: `IsAddress` says what an email address is by its at-sign and its dots, without a scan.
  `IsDialledPart` says which part of a text is dialled: the longest subsequence of characters that can be.

  Spec: the scan finds the addresses (`isEmail_iff`), as the first at-sign of an address is the only one. No
  at-sign can be dialled, so what was cut is no address (`isEmail_dialled`), and scrubbing changes nothing about
  being one (`isEmail_scrub`). What is kept is an address or can be dialled as it is (`scrub_eq_self_iff`), and
  every scrubbed number is of that kind (`scrub_scrub`).
-/
namespace TextVault

open Text

/-- A name with dots in it, none of them at an end. -/
structure IsDotted (host : List Char) : Prop where
  mem : '.' ∈ host
  head : host.head? ≠ some '.'
  last : host.getLast? ≠ some '.'

/-- An email address: one at-sign, some text before it and a dotted name after it, and no blank. -/
structure IsAddress (cs : List Char) : Prop where
  one : cs.count '@' = 1
  plain : ∀ c ∈ cs, isBlank c = false
  cut : ∃ user host, cs = user ++ '@' :: host ∧ user ≠ [] ∧ IsDotted host

/-- An ASCII digit or a plus sign. -/
def IsDialable (c : Char) : Prop := ('0' ≤ c ∧ c ≤ '9') ∨ c = '+'

/-- The longest subsequence of a text that can be dialled. -/
structure IsDialledPart (cs part : List Char) : Prop where
  sublist : part.Sublist cs
  dialable : ∀ c ∈ part, IsDialable c
  longest : ∀ other : List Char, other.Sublist cs → (∀ c ∈ other, IsDialable c) → other.Sublist part

/-- What a number becomes: an email address and a number that can be dialled stay as they are, and of any other
number the part that can be dialled is left. -/
structure Scrubs (number entry : String) : Prop where
  kept : entry = number ↔ IsAddress number.toList ∨ ∀ c ∈ number.toList, IsDialable c
  part : ¬ IsAddress number.toList → IsDialledPart number.toList entry.toList

/-! ## Email addresses -/

section Addresses

variable {number : String}

theorem isEmail_of_not_mem (h : '@' ∉ number.toList) : isEmail number = false := by
  have hall : ∀ c ∈ number.toList, (c != '@') = true := by
    intro c hc
    rw [bne_iff_ne]
    rintro rfl
    exact h hc
  have hdrop : number.toList.dropWhile (· != '@') = [] := by
    have happend : (number.toList ++ []).dropWhile (· != '@') = [].dropWhile (· != '@') :=
      List.dropWhile_append_of_pos hall
    rwa [List.append_nil, List.dropWhile_nil] at happend
  rw [isEmail, hdrop]

/-- A number is cut at its first at-sign. -/
theorem isEmail_of_cut {user host : List Char} (hcut : number.toList = user ++ '@' :: host) (huser : '@' ∉ user) :
    isEmail number = true ↔
      user ≠ [] ∧ '@' ∉ host ∧ IsDotted host ∧ ∀ c ∈ number.toList, isBlank c = false := by
  have hall : ∀ c ∈ user, (c != '@') = true := by
    intro c hc
    rw [bne_iff_ne]
    rintro rfl
    exact huser hc
  -- The first at sign is the one where the number is cut.
  have htake : number.toList.takeWhile (· != '@') = user := by
    rw [hcut, List.takeWhile_append_of_pos hall, List.takeWhile_cons_of_neg (by decide), List.append_nil]
  have hdrop : number.toList.dropWhile (· != '@') = '@' :: host := by
    rw [hcut, List.dropWhile_append_of_pos hall, List.dropWhile_cons_of_neg (by decide)]
  rw [isEmail, htake, hdrop]
  simp only [Bool.and_eq_true, Bool.not_eq_true', List.isEmpty_eq_false_iff, List.contains_eq_mem,
    decide_eq_false_iff_not, decide_eq_true_eq, bne_iff_ne, List.any_eq_false, Bool.not_eq_true]
  constructor
  · rintro ⟨⟨⟨⟨⟨hne, hat⟩, hmem⟩, hhead⟩, hlast⟩, hplain⟩
    exact ⟨hne, hat, ⟨hmem, hhead, hlast⟩, hplain⟩
  · rintro ⟨hne, hat, ⟨hmem, hhead, hlast⟩, hplain⟩
    exact ⟨⟨⟨⟨⟨hne, hat⟩, hmem⟩, hhead⟩, hlast⟩, hplain⟩

/-- An at-sign between two texts is the only one if neither of them has one. -/
theorem count_at_eq_one_iff (user host : List Char) :
    (user ++ '@' :: host).count '@' = 1 ↔ '@' ∉ user ∧ '@' ∉ host := by
  rw [List.count_append, List.count_cons_self, ← List.count_eq_zero, ← List.count_eq_zero]
  omega

/-- **The scan finds the email addresses.** -/
theorem isEmail_iff (number : String) : isEmail number = true ↔ IsAddress number.toList := by
  constructor
  · intro h
    by_cases hat : '@' ∈ number.toList
    · obtain ⟨user, host, hcut, huser⟩ := List.eq_append_cons_of_mem hat
      obtain ⟨hne, hhost, hdotted, hplain⟩ := (isEmail_of_cut hcut huser).mp h
      refine ⟨?_, hplain, user, host, hcut, hne, hdotted⟩
      rw [hcut]
      exact (count_at_eq_one_iff user host).mpr ⟨huser, hhost⟩
    · rw [isEmail_of_not_mem hat] at h
      nomatch h
  · rintro ⟨hone, hplain, user, host, hcut, hne, hdotted⟩
    rw [hcut] at hone
    obtain ⟨huser, hhost⟩ := (count_at_eq_one_iff user host).mp hone
    exact (isEmail_of_cut hcut huser).mpr ⟨hne, hhost, hdotted, hplain⟩

end Addresses

/-! ## What can be dialled -/

/-- What is kept of a number are the characters that can be dialled. -/
theorem isDialable_iff (c : Char) : (isDigit c || c == '+') = true ↔ IsDialable c := by
  rw [Bool.or_eq_true, isDigit_iff, beq_iff_eq]
  exact Iff.rfl

/-- The at sign is none of them, so no part of an address with it survives dialling. -/
theorem not_isDialable_at : ¬ IsDialable '@' := by
  rw [← isDialable_iff]
  decide

theorem toList_dialled (number : String) :
    (dialled number).toList = number.toList.filter fun c => isDigit c || c == '+' := String.toList_ofList

/-- **What is dialled is as much of the number as can be dialled**: it has such characters only, and none of them is
left out. -/
theorem isDialledPart_dialled (number : String) : IsDialledPart number.toList (dialled number).toList := by
  refine ⟨dialled_sublist number, ?_, ?_⟩
  · intro c hc
    rw [toList_dialled, List.mem_filter] at hc
    exact (isDialable_iff c).mp hc.2
  · intro other hother hdialable
    -- Nothing of the other part is filtered out.
    have hfilter : (other.filter fun c => isDigit c || c == '+') = other := by
      rw [List.filter_eq_self]
      intro c hc
      exact (isDialable_iff c).mpr (hdialable c hc)
    rw [toList_dialled, ← hfilter]
    exact hother.filter _

/-- A number is dialled as it stands if nothing in it has to be dropped. -/
theorem dialled_eq_self_iff (number : String) :
    dialled number = number ↔ ∀ c ∈ number.toList, IsDialable c := by
  rw [← String.toList_inj, toList_dialled, List.filter_eq_self]
  simp only [isDialable_iff]

/-- What was cut down is no email address. -/
theorem isEmail_dialled (number : String) : isEmail (dialled number) = false := by
  apply isEmail_of_not_mem
  intro hat
  exact not_isDialable_at ((isDialledPart_dialled number).dialable '@' hat)

/-! ## Scrubbing -/

section Scrubbing

variable {number : String}

theorem scrub_of_isEmail (h : isEmail number = true) : scrub number = number := if_pos h

theorem scrub_of_not_isEmail (h : isEmail number = false) : scrub number = dialled number := by
  rw [scrub, h, if_neg Bool.false_ne_true]

/-- **Scrubbing makes no email address and spoils none.** -/
theorem isEmail_scrub (number : String) : isEmail (scrub number) = isEmail number := by
  cases h : isEmail number with
  | true => rw [scrub_of_isEmail h, h]
  | false => rw [scrub_of_not_isEmail h, isEmail_dialled]

/-- Those are the two ways in which scrubbing changes nothing. -/
theorem scrub_eq_self_iff (number : String) :
    scrub number = number ↔ IsAddress number.toList ∨ ∀ c ∈ number.toList, IsDialable c := by
  rw [← isEmail_iff, ← dialled_eq_self_iff]
  cases h : isEmail number with
  | true => simp [scrub_of_isEmail h]
  | false => simp [scrub_of_not_isEmail h]

/-- **A scrubbed number stays as it is.** -/
theorem scrub_scrub (number : String) : scrub (scrub number) = scrub number := by
  rw [scrub_eq_self_iff]
  cases h : isEmail number with
  | true =>
    left
    rw [← isEmail_iff, isEmail_scrub, h]
  | false =>
    -- Only the part that is dialled is left, and of it nothing more is taken away.
    right
    rw [scrub_of_not_isEmail h]
    exact (isDialledPart_dialled number).dialable

/-- Scrubbing does what is asked of it, in either case. -/
theorem scrubs_scrub (number : String) : Scrubs number (scrub number) := by
  refine ⟨scrub_eq_self_iff number, ?_⟩
  intro haddress
  have hemail : isEmail number = false := by
    rw [← Bool.not_eq_true, isEmail_iff]
    exact haddress
  rw [scrub_of_not_isEmail hemail]
  exact isDialledPart_dialled number

end Scrubbing

/-! ## Groups -/

namespace Group

/-- Scrubbing goes by the numbers alone, and by each of them on its own. -/
theorem scrubbed_eq (g : Group) : g.scrubbed = g.numbers.map scrub := by
  rw [scrubbed, numbers, List.map_map]
  rfl

theorem hasEmail_eq (g : Group) : g.hasEmail = g.numbers.any isEmail := by
  rw [hasEmail, numbers, List.any_map]
  rfl

/-- A group has an address if one of its numbers is one. -/
theorem hasEmail_iff (g : Group) : g.hasEmail = true ↔ ∃ c ∈ g, IsAddress c.number.toList := by
  rw [hasEmail, List.any_eq_true]
  simp only [isEmail_iff]

end Group

/-- A group that another is appended to shows the contacts of both. -/
theorem Directory.group?_append (conduct : Directory → Conduct) (depth : Nat) {d : Directory}
    {name other : String} {g h : Group} (hg : d.group? name = some g) (hh : d.group? other = some h) :
    ∃ d', d.stepBy conduct depth (.append name other) = (d', .done) ∧ d'.group? name = some (g ++ h) := by
  obtain ⟨ids, hids, rfl⟩ := Option.map_eq_some_iff.mp hg
  obtain ⟨more, hmore, rfl⟩ := Option.map_eq_some_iff.mp hh
  refine ⟨{ d with groupNames := d.groupNames.set name (ids ++ more) }, ?_, ?_⟩
  · apply stepBy_of_some
    rw [step?, hids, hmore]
    rfl
  · rw [group?, Named.get?_set, if_pos rfl]
    exact congrArg some List.filterMap_append

/-- **Scrubbing settles at once.** Each contact of a group has its entry, in order, and those of an appended group
come after; an entry is the number itself exactly if that is an email address or can be dialled as it is, and
else the part of it that can be dialled. Whatever group has the scrubbed numbers for its numbers scrubs to the
same, and has an email address if the first one has. -/
theorem Group.scrubbed_settles (g : Group) :
    g.scrubbed.length = g.length ∧
    (∀ (i : Nat) (c : Contact), g[i]? = some c →
      ∃ entry, g.scrubbed[i]? = some entry ∧ Scrubs c.number entry) ∧
    (∀ h : Group, Group.scrubbed (g ++ h) = g.scrubbed ++ h.scrubbed) ∧
    (∀ (conduct : Directory → Conduct) (depth : Nat) (d : Directory) (name other : String) (h : Group),
      d.group? name = some g → d.group? other = some h →
        ∃ d' both, d.stepBy conduct depth (.append name other) = (d', .done) ∧ d'.group? name = some both ∧
          both.scrubbed = g.scrubbed ++ h.scrubbed) ∧
    (g.hasEmail = true ↔ ∃ c ∈ g, IsAddress c.number.toList) ∧
    ∀ rebuilt : Group, rebuilt.numbers = g.scrubbed →
      rebuilt.scrubbed = g.scrubbed ∧ rebuilt.hasEmail = g.hasEmail := by
  have happend : ∀ h : Group, Group.scrubbed (g ++ h) = g.scrubbed ++ h.scrubbed := fun h => List.map_append
  refine ⟨List.length_map _, ?_, happend, ?_, g.hasEmail_iff, ?_⟩
  · intro i c hc
    refine ⟨scrub c.number, ?_, scrubs_scrub c.number⟩
    rw [scrubbed, List.getElem?_map, hc, Option.map_some]
  · intro conduct depth d name other h hg hh
    obtain ⟨d', hstep, hboth⟩ := Directory.group?_append conduct depth hg hh
    exact ⟨d', g ++ h, hstep, hboth, happend h⟩
  · intro rebuilt hrebuilt
    constructor
    · -- A group built from the result has the result for its numbers, and the rest goes number by number.
      rw [scrubbed_eq rebuilt, hrebuilt, scrubbed_eq, List.map_map]
      exact List.map_congr_left fun number _ => scrub_scrub number
    · rw [hasEmail_eq rebuilt, hrebuilt, scrubbed_eq, hasEmail_eq, List.any_map]
      exact congrArg _ (funext isEmail_scrub)

/-- A blank before the at-sign keeps the second number from being an address, and its digits are left. The group made
from what was sent to scrubs to that again. -/
theorem Group.scrubbed_settles_blank :
    let g : Group := [⟨"+1 (555) 010-2000", none⟩, ⟨"1 2@b.c", none⟩]
    let rebuilt : Group := [⟨"+15550102000", some "Ann"⟩, ⟨"12", none⟩]
    let d := Directory.after (fun _ _ => []) 1 [.group "b" ["z"], .group "a" ["x", "y"],
      .create "z" "carol@example.org" none, .create "y" "1 2@b.c" none, .create "x" "+1 (555) 010-2000" none]
    Scrubs "1 2@b.c" "12" ∧ rebuilt.numbers = g.scrubbed ∧ rebuilt.scrubbed = g.scrubbed ∧
    rebuilt.hasEmail = false ∧ d.group? "a" = some g ∧
    ∃ d' both, d.stepBy (fun _ _ => []) 1 (.append "a" "b") = (d', .done) ∧ d'.group? "a" = some both ∧
      both.scrubbed = ["+15550102000", "12", "carol@example.org"] := by
  intro g rebuilt d
  have hscrubbed : g.scrubbed = ["+15550102000", "12"] := by decide +kernel
  have hd : d.group? "a" = some g := rfl
  obtain ⟨-, hentry, -, happend, -, hrebuilt⟩ := Group.scrubbed_settles g
  obtain ⟨entry, hfound, hscrubs⟩ := hentry 1 ⟨"1 2@b.c", none⟩ rfl
  obtain ⟨hsame, hemail⟩ := hrebuilt rebuilt hscrubbed.symm
  obtain ⟨d', both, hstep, hboth, hall⟩ :=
    happend (fun _ _ => []) 1 d "a" "b" [⟨"carol@example.org", none⟩] hd rfl
  rw [hscrubbed] at hfound
  obtain rfl := Option.some.inj hfound
  refine ⟨hscrubs, hscrubbed.symm, hsame, ?_, hd, d', both, hstep, hboth, ?_⟩
  · rw [hemail]
    decide +kernel
  · rw [hall, hscrubbed]
    decide +kernel

end TextVault
