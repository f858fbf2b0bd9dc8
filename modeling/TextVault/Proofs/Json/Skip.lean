import TextVault.Json.Skip
import TextVault.Proofs.Json.Number
import TextVault.Proofs.Json.Quoted

/-
  Every JSON value is passed over.

  Problem: behind an unknown name stands any value, with arrays and objects nested at will and blanks
  wherever the grammar allows them.

  Program: `IsJson` is the grammar, by the place a text is read at: a value, what stands in an array or
  an object, and what follows there. Blanks may come first at every place, which is one rule for all.

  Spec: `Passes` says of each place what the scanner of that place does with the text, given fuel for twice
  its length. Every text of the grammar passes (`IsJson.passes`), so `skip` passes over every value.
-/
namespace TextVault.Json

open Text

/-! ## The grammar -/

/-- Where a text is read. -/
inductive Place where
  | value
  /-- In an array, before an item. -/
  | items
  /-- In an array, behind an item. -/
  | moreItems
  /-- In an object, before a name. -/
  | members
  /-- In an object, behind a name. -/
  | named
  /-- In an object, behind a value. -/
  | moreMembers
  deriving DecidableEq

/-- The texts of JSON, up to the end of the value, of the array or of the object. -/
inductive IsJson : Place → List Char → Prop
  | gap {place : Place} {c : Char} {cs : List Char} (hc : isGap c = true) (h : IsJson place cs) :
      IsJson place (c :: cs)
  | nullWord : IsJson .value ['n', 'u', 'l', 'l']
  | trueWord : IsJson .value ['t', 'r', 'u', 'e']
  | falseWord : IsJson .value ['f', 'a', 'l', 's', 'e']
  | number {cs : List Char} (h : IsNumber cs) : IsJson .value cs
  | negative {cs : List Char} (h : IsNumber cs) : IsJson .value ('-' :: cs)
  | string {cs : List Char} (h : IsString cs) : IsJson .value ('"' :: cs)
  | emptyArray {gap : List Char} (hgap : ∀ c ∈ gap, isGap c = true) :
      IsJson .value ('[' :: (gap ++ [']']))
  | array {cs : List Char} (h : IsJson .items cs) : IsJson .value ('[' :: cs)
  | emptyObject {gap : List Char} (hgap : ∀ c ∈ gap, isGap c = true) :
      IsJson .value ('{' :: (gap ++ ['}']))
  | object {cs : List Char} (h : IsJson .members cs) : IsJson .value ('{' :: cs)
  | item {value cs : List Char} (hvalue : IsJson .value value) (h : IsJson .moreItems cs) :
      IsJson .items (value ++ cs)
  | moreItems {cs : List Char} (h : IsJson .items cs) : IsJson .moreItems (',' :: cs)
  | endArray : IsJson .moreItems [']']
  | name {name cs : List Char} (hname : IsString name) (h : IsJson .named cs) :
      IsJson .members ('"' :: (name ++ cs))
  | member {value cs : List Char} (hvalue : IsJson .value value) (h : IsJson .moreMembers cs) :
      IsJson .named (':' :: (value ++ cs))
  | moreMembers {cs : List Char} (h : IsJson .members cs) : IsJson .moreMembers (',' :: cs)
  | endObject : IsJson .moreMembers ['}']

/-! ## Blanks -/

theorem skipGap_cons {c : Char} (h : isGap c = true) (cs : List Char) :
    skipGap (c :: cs) = skipGap cs := List.dropWhile_cons_of_pos h

theorem skipGap_of_not_isGap {c : Char} (h : isGap c = false) (cs : List Char) :
    skipGap (c :: cs) = c :: cs := List.dropWhile_cons_of_neg (by rw [h]; exact Bool.false_ne_true)

/-- So blanks in front of a text make no difference to what is found behind them. -/
theorem skipGap_append {gap : List Char} (h : ∀ c ∈ gap, isGap c = true) (cs : List Char) :
    skipGap (gap ++ cs) = skipGap cs := List.dropWhile_append_of_pos h

theorem ends_of_isGap {c : Char} (h : isGap c = true) (cs : List Char) : Ends (c :: cs) := by
  simp only [isGap, Bool.or_eq_true, decide_eq_true_eq] at h
  rcases h with ((rfl | rfl) | rfl) | rfl
  all_goals exact ends_cons cs rfl (by decide) (by decide) (by decide)

/-- A value is always followed by a text that no number goes on with. -/
theorem IsJson.ends {place : Place} {cs : List Char} (h : IsJson place cs)
    (hplace : place = .moreItems ∨ place = .moreMembers) (rest : List Char) : Ends (cs ++ rest) := by
  cases h with
  | gap hc h => exact ends_of_isGap hc _
  | moreItems h => exact ends_cons _ rfl (by decide) (by decide) (by decide)
  | endArray => exact ends_cons _ rfl (by decide) (by decide) (by decide)
  | moreMembers h => exact ends_cons _ rfl (by decide) (by decide) (by decide)
  | endObject => exact ends_cons _ rfl (by decide) (by decide) (by decide)
  | _ => rcases hplace with h | h <;> nomatch h

/-! ## Scanners by place -/

/-- Goes on behind an item. -/
def skipMoreItems (fuel : Nat) (cs : List Char) : Except Fault (List Char) :=
  match skipGap cs with
  | [] => .error .unfinished
  | ',' :: cs => skipItems fuel cs
  | ']' :: cs => .ok cs
  | _ => .error .malformed

theorem skipItems_succ (fuel : Nat) (cs : List Char) :
    skipItems (fuel + 1) cs = skipValue fuel cs >>= skipMoreItems fuel := rfl

/-- Goes on behind a value with a name. -/
def skipMoreFields (fuel : Nat) (cs : List Char) : Except Fault (List Char) :=
  match skipGap cs with
  | [] => .error .unfinished
  | ',' :: cs => skipFields fuel cs
  | '}' :: cs => .ok cs
  | _ => .error .malformed

/-- Goes on behind a name. -/
def skipNamed (fuel : Nat) (cs : List Char) : Except Fault (List Char) := do
  let cs ← expectColon cs
  let cs ← skipValue fuel cs
  skipMoreFields fuel cs

theorem skipFields_quote {fuel : Nat} {cs rest : List Char} (h : skipGap cs = '"' :: rest) :
    skipFields (fuel + 1) cs = skipString rest >>= skipNamed fuel := by
  rw [skipFields, h]
  rfl

theorem isGap_of_isDigit {c : Char} (h : isDigit c = true) : isGap c = false := by
  rw [isDigit_iff] at h
  simp only [isGap, Bool.or_eq_false_iff, decide_eq_false_iff_not]
  refine ⟨⟨⟨?_, ?_⟩, ?_⟩, ?_⟩
  all_goals
    rintro rfl
    revert h
    decide

/-- Only numbers start with a digit. -/
theorem skipValue_digit (fuel : Nat) {c : Char} (hc : isDigit c = true) (cs : List Char) :
    skipValue (fuel + 1) (c :: cs) = skipNumber (c :: cs) := by
  rw [skipValue, skipGap_of_not_isGap (isGap_of_isDigit hc)]
  split
  case h_1 heq => nomatch heq
  case h_9 heq =>
    obtain ⟨rfl, rfl⟩ := List.cons.inj heq
    rw [if_pos hc]
  all_goals
    next heq =>
      obtain ⟨rfl, -⟩ := List.cons.inj heq
      nomatch hc

/-- A number starts with a digit, which is how it is told from the other values. -/
theorem exists_digit_of_isNumber {cs : List Char} (h : IsNumber cs) :
    ∃ c ds, cs = c :: ds ∧ isDigit c = true := by
  obtain ⟨hwhole, -, -⟩ := h
  rcases hwhole with rfl | ⟨⟨hne, hall⟩, -⟩
  · exact ⟨'0', _, rfl, rfl⟩
  · next whole _ _ =>
    cases whole with
    | nil => exact absurd rfl hne
    | cons d ds => exact ⟨d, _, rfl, hall d List.mem_cons_self⟩

/-! ## Blanks at the front -/

/-- Every scanner begins by skipping blanks, so one blank more in front of its text changes nothing. -/
theorem skipValue_gap (fuel : Nat) {c : Char} (hc : isGap c = true) (cs : List Char) :
    skipValue fuel (c :: cs) = skipValue fuel cs := by
  cases fuel with
  | zero => rfl
  | succ fuel => rw [skipValue, skipValue, skipGap_cons hc]

theorem skipItems_gap (fuel : Nat) {c : Char} (hc : isGap c = true) (cs : List Char) :
    skipItems fuel (c :: cs) = skipItems fuel cs := by
  cases fuel with
  | zero => rfl
  | succ fuel => rw [skipItems_succ, skipItems_succ, skipValue_gap fuel hc]

theorem skipFields_gap (fuel : Nat) {c : Char} (hc : isGap c = true) (cs : List Char) :
    skipFields fuel (c :: cs) = skipFields fuel cs := by
  cases fuel with
  | zero => rfl
  | succ fuel => rw [skipFields, skipFields, skipGap_cons hc]

/-- What passes over one blank passes over all. -/
theorem apply_skipGap {β : Type} {f : List Char → β}
    (hf : ∀ c cs, isGap c = true → f (c :: cs) = f cs) (cs : List Char) : f (skipGap cs) = f cs := by
  induction cs with
  | nil => rfl
  | cons c cs ih =>
    cases hc : isGap c with
    | true => rw [skipGap_cons hc, ih, hf c cs hc]
    | false => rw [skipGap_of_not_isGap hc]

/-! ## Brackets -/

/-- An array that does not close at once has items. -/
theorem skipValue_array {cs ds : List Char} {c : Char} (hfront : skipGap cs = c :: ds) (hc : c ≠ ']')
    (fuel : Nat) : skipValue (fuel + 1) ('[' :: cs) = skipItems fuel cs := by
  rw [← apply_skipGap (fun _ cs hc => skipItems_gap fuel hc cs) cs,
    skipValue, skipGap_of_not_isGap (by decide)]
  simp only [hfront]
  split
  · next heq => exact absurd (List.cons.inj heq).1 hc
  · rfl

theorem skipValue_object {cs ds : List Char} {c : Char} (hfront : skipGap cs = c :: ds) (hc : c ≠ '}')
    (fuel : Nat) : skipValue (fuel + 1) ('{' :: cs) = skipFields fuel cs := by
  rw [← apply_skipGap (fun _ cs hc => skipFields_gap fuel hc cs) cs,
    skipValue, skipGap_of_not_isGap (by decide)]
  simp only [hfront]
  split
  · next heq => exact absurd (List.cons.inj heq).1 hc
  · rfl

/-- An array that closes at once is passed over whole, with the blanks in it. -/
theorem skipValue_emptyArray {cs rest : List Char} (h : skipGap cs = ']' :: rest) (fuel : Nat) :
    skipValue (fuel + 1) ('[' :: cs) = .ok rest := by
  rw [skipValue, skipGap_of_not_isGap (by decide)]
  simp only [h]

theorem skipValue_emptyObject {cs rest : List Char} (h : skipGap cs = '}' :: rest) (fuel : Nat) :
    skipValue (fuel + 1) ('{' :: cs) = .ok rest := by
  rw [skipValue, skipGap_of_not_isGap (by decide)]
  simp only [h]

/-! ## First characters -/

/-- The places at which a bracket may not close. -/
def Place.isOpen : Place → Bool
  | .value | .items | .members => true
  | _ => false

/-- What has to come next is no closing bracket. -/
theorem IsJson.exists_front {place : Place} {cs : List Char} (h : IsJson place cs)
    (hplace : place.isOpen = true) (rest : List Char) :
    ∃ c ds, skipGap (cs ++ rest) = c :: ds ∧ c ≠ ']' ∧ c ≠ '}' := by
  -- Blanks are skipped until the first character of another rule, which is known but for digits and items.
  induction h generalizing rest with
  | gap hc h ih =>
    obtain ⟨c, ds, hfront, hc'⟩ := ih hplace rest
    exact ⟨c, ds, (skipGap_cons hc _).trans hfront, hc'⟩
  | number h =>
    obtain ⟨c, ds, rfl, hc⟩ := exists_digit_of_isNumber h
    refine ⟨c, ds ++ rest, skipGap_of_not_isGap (isGap_of_isDigit hc) _, ?_, ?_⟩
    · rintro rfl
      nomatch hc
    · rintro rfl
      nomatch hc
  | item hvalue h ihvalue ih =>
    rw [List.append_assoc]
    exact ihvalue rfl _
  | moreItems | endArray | member | moreMembers | endObject => nomatch hplace
  | _ => exact ⟨_, _, rfl, by decide, by decide⟩

/-- There is no empty JSON, so every value uses up some of the text and of the fuel. -/
theorem IsJson.length_pos {place : Place} {cs : List Char} (h : IsJson place cs) : 0 < cs.length := by
  induction h with
  | number h =>
    obtain ⟨c, ds, rfl, -⟩ := exists_digit_of_isNumber h
    exact Nat.succ_pos _
  | item hvalue h ihvalue ih =>
    rw [List.length_append]
    omega
  | _ => exact Nat.succ_pos _

/-! ## Every text passes -/

/-- What the scanner of a place does with a text, given fuel for twice its length. -/
def Passes : Place → List Char → Prop
  | .value, cs => ∀ fuel rest, 2 * cs.length ≤ fuel → Ends rest → skipValue fuel (cs ++ rest) = .ok rest
  | .items, cs => ∀ fuel rest, 2 * cs.length ≤ fuel → skipItems fuel (cs ++ rest) = .ok rest
  | .moreItems, cs => ∀ fuel rest, 2 * cs.length ≤ fuel + 1 → skipMoreItems fuel (cs ++ rest) = .ok rest
  | .members, cs => ∀ fuel rest, 2 * cs.length ≤ fuel → skipFields fuel (cs ++ rest) = .ok rest
  | .named, cs => ∀ fuel rest, 2 * cs.length ≤ fuel + 1 → skipNamed fuel (cs ++ rest) = .ok rest
  | .moreMembers, cs => ∀ fuel rest, 2 * cs.length ≤ fuel + 1 → skipMoreFields fuel (cs ++ rest) = .ok rest

/-- A text that passes also passes with a blank in front: the blank adds to the fuel and not to the work. -/
theorem Passes.gap {place : Place} {c : Char} {cs : List Char} (hc : isGap c = true)
    (h : Passes place cs) : Passes place (c :: cs) := by
  cases place with
  | value =>
    intro fuel rest hfuel hrest
    rw [List.length_cons] at hfuel
    exact (skipValue_gap fuel hc _).trans (h fuel rest (by omega) hrest)
  | items =>
    intro fuel rest hfuel
    rw [List.length_cons] at hfuel
    exact (skipItems_gap fuel hc _).trans (h fuel rest (by omega))
  | moreItems =>
    intro fuel rest hfuel
    rw [List.length_cons] at hfuel
    rw [List.cons_append, skipMoreItems, skipGap_cons hc]
    exact h fuel rest (by omega)
  | members =>
    intro fuel rest hfuel
    rw [List.length_cons] at hfuel
    exact (skipFields_gap fuel hc _).trans (h fuel rest (by omega))
  | named =>
    intro fuel rest hfuel
    rw [List.length_cons] at hfuel
    rw [List.cons_append, skipNamed, expectColon, skipGap_cons hc]
    exact h fuel rest (by omega)
  | moreMembers =>
    intro fuel rest hfuel
    rw [List.length_cons] at hfuel
    rw [List.cons_append, skipMoreFields, skipGap_cons hc]
    exact h fuel rest (by omega)

/-- A value is never empty, so there is fuel for its first step. -/
theorem passes_value {cs : List Char} (hcs : IsJson .value cs)
    (h : ∀ fuel rest, 2 * cs.length ≤ fuel + 1 → Ends rest →
      skipValue (fuel + 1) (cs ++ rest) = .ok rest) : Passes .value cs := by
  rintro (_ | fuel) rest hfuel hrest
  · have hpos := hcs.length_pos
    omega
  · exact h fuel rest hfuel hrest

/-- **Every text of the grammar passes.** -/
theorem IsJson.passes {place : Place} {cs : List Char} (h : IsJson place cs) : Passes place cs := by
  -- A rule takes two steps of the scanner at most and adds a character at least, so fuel for twice the
  -- length is enough.
  induction h with
  | gap hc h ih => exact ih.gap hc
  | nullWord => exact passes_value .nullWord fun _ rest _ _ => expect_append ['u', 'l', 'l'] rest
  | trueWord => exact passes_value .trueWord fun _ rest _ _ => expect_append ['r', 'u', 'e'] rest
  | falseWord => exact passes_value .falseWord fun _ rest _ _ => expect_append ['a', 'l', 's', 'e'] rest
  | number h =>
    refine passes_value (.number h) fun fuel rest _ hrest => ?_
    have hskip := skipNumber_append h hrest
    obtain ⟨c, ds, rfl, hc⟩ := exists_digit_of_isNumber h
    exact (skipValue_digit fuel hc (ds ++ rest)).trans hskip
  | negative h => exact passes_value (.negative h) fun _ _ _ hrest => skipNumber_append h hrest
  | string h => exact passes_value (.string h) fun _ rest _ _ => skipString_append h rest
  | @emptyArray gap hgap =>
    refine passes_value (.emptyArray hgap) fun fuel rest _ _ => skipValue_emptyArray ?_ fuel
    show skipGap (gap ++ [']'] ++ rest) = _
    rw [List.append_assoc, skipGap_append hgap]
    rfl
  | @array cs h ih =>
    refine passes_value (.array h) fun fuel rest hfuel _ => ?_
    rw [List.length_cons] at hfuel
    obtain ⟨c, ds, hfront, hc, -⟩ := h.exists_front rfl rest
    exact (skipValue_array hfront hc fuel).trans (ih fuel rest (by omega))
  | @emptyObject gap hgap =>
    refine passes_value (.emptyObject hgap) fun fuel rest _ _ => skipValue_emptyObject ?_ fuel
    show skipGap (gap ++ ['}'] ++ rest) = _
    rw [List.append_assoc, skipGap_append hgap]
    rfl
  | @object cs h ih =>
    refine passes_value (.object h) fun fuel rest hfuel _ => ?_
    rw [List.length_cons] at hfuel
    obtain ⟨c, ds, hfront, -, hc⟩ := h.exists_front rfl rest
    exact (skipValue_object hfront hc fuel).trans (ih fuel rest (by omega))
  | @item value cs hvalue h ihvalue ih =>
    -- What follows the item is not empty, and that is what leaves fuel for it.
    have hpos := h.length_pos
    rintro (_ | fuel) rest hfuel
    · rw [List.length_append] at hfuel
      omega
    · rw [List.length_append] at hfuel
      rw [List.append_assoc, skipItems_succ, ihvalue fuel _ (by omega) (h.ends (.inl rfl) rest)]
      exact ih fuel rest (by omega)
  | moreItems h ih =>
    intro fuel rest hfuel
    rw [List.length_cons] at hfuel
    exact ih fuel rest (by omega)
  | endArray => exact fun fuel rest hfuel => rfl
  | @name name cs hname h ih =>
    rintro (_ | fuel) rest hfuel
    · nomatch hfuel
    · rw [List.length_cons, List.length_append] at hfuel
      have hquote : skipGap ('"' :: (name ++ cs) ++ rest) = '"' :: (name ++ (cs ++ rest)) := by
        rw [List.cons_append, List.append_assoc]
        rfl
      rw [skipFields_quote hquote, skipString_append hname]
      exact ih fuel rest (by omega)
  | @member value cs hvalue h ihvalue ih =>
    intro fuel rest hfuel
    rw [List.length_cons, List.length_append] at hfuel
    show skipValue fuel (value ++ cs ++ rest) >>= skipMoreFields fuel = _
    rw [List.append_assoc, ihvalue fuel _ (by omega) (h.ends (.inr rfl) rest)]
    exact ih fuel rest (by omega)
  | moreMembers h ih =>
    intro fuel rest hfuel
    rw [List.length_cons] at hfuel
    exact ih fuel rest (by omega)
  | endObject => exact fun fuel rest hfuel => rfl

/-- **Every value is passed over.** -/
theorem skip_append {cs rest : List Char} (h : IsJson .value cs) (hrest : Ends rest) :
    skip (cs ++ rest) = .ok rest := by
  refine h.passes _ rest ?_ hrest
  rw [List.length_append]
  omega

end TextVault.Json
