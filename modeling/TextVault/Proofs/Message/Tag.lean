import TextVault.Message.Tag

/-
  What it is to be tagged.

  Problem: a message is searched for its tag from the back, by characters, while what a reader wants to know
  is what stands before the tag.

  Program: `EndsInPrint` says that a text has a last character and that it is not blank.

  Spec: `untagged?` gives what stands before the tag if that does not end in a blank, and nothing otherwise
  (`untagged?_eq_some_iff`), which `stripTag` goes by (`isUntagged_stripTag`). So only blanks go, and none of
  a message that is blank altogether.
-/
namespace TextVault.Message

open Text

/-- A text with a last character that is not blank. -/
def EndsInPrint (cs : List Char) : Prop := ∃ front c, cs = front ++ [c] ∧ isBlank c = false

theorem reverse_tag : tag.reverse = tag := List.reverse_replicate

theorem allBlank_tag : allBlank tag = true := by decide

theorem length_tag : tag.length = tagLength := List.length_replicate

theorem allBlank_append (xs ys : List Char) : allBlank (xs ++ ys) = (allBlank xs && allBlank ys) :=
  List.all_append

/-- What a message is without its tag: what stands before the tag and ends in print, or the message itself
if there is no such thing. -/
def IsUntagged (message rest : String) : Prop :=
  (message.toList = rest.toList ++ tag ∧ EndsInPrint rest.toList) ∨
  (rest = message ∧ ¬ ∃ front, message.toList = front ++ tag ∧ EndsInPrint front)

/-- What ends in print is not blank. -/
theorem EndsInPrint.allBlank_eq {cs : List Char} (h : EndsInPrint cs) : allBlank cs = false := by
  obtain ⟨front, c, rfl, hc⟩ := h
  rw [allBlank_append]
  have hlast : allBlank [c] = false := by
    show (isBlank c && true) = false
    rw [hc]
    rfl
  rw [hlast, Bool.and_false]

/-- **A message is tagged if the tag stands right behind a character that is not blank.** -/
theorem untagged?_eq_some_iff {cs rest : List Char} :
    untagged? cs = some rest ↔ cs = rest ++ tag ∧ EndsInPrint rest := by
  unfold untagged?
  dsimp only
  constructor
  · intro h
    -- Read backwards, the message is the tag, then a character that is not blank, then the rest.
    split at h
    · rename_i hpre
      obtain ⟨back, hback⟩ := List.isPrefixOf_iff_prefix.mp hpre
      rw [← hback, ← length_tag, List.drop_left] at h
      split at h
      · rename_i c more
        have hrev : cs = (c :: more).reverse ++ tag := by
          have := congrArg List.reverse hback
          rw [List.reverse_append, List.reverse_reverse, reverse_tag] at this
          exact this.symm
        split at h
        · nomatch h
        · rename_i hc
          obtain rfl := Option.some.inj h
          exact ⟨hrev, more.reverse, c, List.reverse_cons, by simpa using hc⟩
      · nomatch h
    · nomatch h
  · rintro ⟨rfl, front, c, rfl, hc⟩
    have hrev : (front ++ [c] ++ tag).reverse = tag ++ c :: front.reverse := by
      rw [List.reverse_append, List.reverse_append, reverse_tag]
      rfl
    have hpre : tag.isPrefixOf (tag ++ c :: front.reverse) = true :=
      List.isPrefixOf_iff_prefix.mpr (List.prefix_append ..)
    simp only [hrev, hpre, if_true]
    rw [← length_tag, List.drop_left]
    simp [hc]

/-- **`stripTag` takes the tag off.** -/
theorem isUntagged_stripTag (message : String) : IsUntagged message (stripTag message) := by
  unfold stripTag
  cases h : untagged? message.toList with
  | none =>
    right
    constructor
    · rfl
    · rintro ⟨front, hfront⟩
      rw [untagged?_eq_some_iff.mpr hfront] at h
      nomatch h
  | some rest =>
    left
    show message.toList = (String.ofList rest).toList ++ tag ∧ EndsInPrint (String.ofList rest).toList
    rw [String.toList_ofList]
    exact untagged?_eq_some_iff.mp h

variable {message rest : String}

/-- **Only blanks go with the tag.** -/
theorem IsUntagged.exists_append (h : IsUntagged message rest) :
    ∃ blanks, message.toList = rest.toList ++ blanks ∧ allBlank blanks = true := by
  rcases h with ⟨htagged, -⟩ | ⟨rfl, -⟩
  · exact ⟨tag, htagged, allBlank_tag⟩
  · exact ⟨[], (List.append_nil _).symm, rfl⟩

/-- What is blank without its tag never had one. -/
theorem IsUntagged.allBlank (h : IsUntagged message rest) (hblank : allBlank rest.toList = true) :
    Text.allBlank message.toList = true := by
  rcases h with ⟨-, hprint⟩ | ⟨rfl, -⟩
  · rw [hprint.allBlank_eq] at hblank
    nomatch hblank
  · exact hblank

end TextVault.Message
