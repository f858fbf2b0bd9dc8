import TextVault.Proofs.Message.Tag

/-
  The tag is put on and taken off without loss.

  Problem: whoever tags a message takes all blanks off its end, of whatever kind, while whoever looks for the tag
  counts thirteen plain spaces behind a character that is not blank. Between the two no message may lose
  anything else, or be taken for tagged when it is not.

  Program: `Trims` says what a text is without the blanks at its end.

  Spec: there is one such text for every text, which `trimEnd` gives (`trims_iff`), and it ends in print unless
  all of the text is blank (`endsInPrint_trimEnd_iff`). So a tag is found where one was put, unless there was
  nothing to read (`isTagged_addTag_iff`), and whatever is found tagged is what tagging made
  (`addTag_stripTag`). Print is what keeps a second tag from being found behind the first
  (`not_isTagged_of_endsInPrint`).
-/
namespace TextVault.Message

open Text

/-! ## The blanks at the end -/

/-- `front` is the text without the blanks at its end. -/
structure Trims (cs front : List Char) : Prop where
  blanks : ∃ blanks, cs = front ++ blanks ∧ allBlank blanks = true
  ends : front = [] ∨ EndsInPrint front

/-- Blanks at the end make no difference to what trimming leaves. -/
theorem trimEnd_append {blanks : List Char} (h : allBlank blanks = true) (cs : List Char) :
    trimEnd (cs ++ blanks) = trimEnd cs := by
  have hall : ∀ c ∈ blanks.reverse, isBlank c = true := fun c hc =>
    List.all_eq_true.mp h c (List.mem_reverse.mp hc)
  rw [trimEnd, List.reverse_append, List.dropWhile_append_of_pos hall, trimEnd]

/-- What ends in print is not trimmed. -/
theorem EndsInPrint.trimEnd_eq {cs : List Char} (h : EndsInPrint cs) : trimEnd cs = cs := by
  obtain ⟨front, c, rfl, hc⟩ := h
  rw [trimEnd, List.reverse_concat, List.dropWhile_cons_of_neg (by simp [hc]), List.reverse_cons,
    List.reverse_reverse]

/-- Trimming leaves nothing, or a text that ends in print. -/
theorem trimEnd_cases (cs : List Char) : trimEnd cs = [] ∨ EndsInPrint (trimEnd cs) := by
  cases h : cs.reverse.dropWhile isBlank with
  | nil => exact .inl (by rw [trimEnd, h, List.reverse_nil])
  | cons c back =>
    have hc : isBlank c = false := by
      have := List.head?_dropWhile_not isBlank cs.reverse
      rw [h] at this
      simpa using this
    exact .inr ⟨back.reverse, c, by rw [trimEnd, h, List.reverse_cons], hc⟩

/-- **A text has one trimmed form**, and `trimEnd` gives it. -/
theorem trims_iff {cs front : List Char} : Trims cs front ↔ trimEnd cs = front := by
  constructor
  · rintro ⟨⟨blanks, rfl, hblanks⟩, rfl | hprint⟩
    · rw [trimEnd_append hblanks]
      rfl
    · rw [trimEnd_append hblanks, hprint.trimEnd_eq]
  · rintro rfl
    exact ⟨trimEnd_append_blanks cs, trimEnd_cases cs⟩

/-- Nothing is left exactly of a blank text. -/
theorem trimEnd_eq_nil_iff (cs : List Char) : trimEnd cs = [] ↔ allBlank cs = true := by
  rw [← trims_iff]
  constructor
  · rintro ⟨⟨blanks, rfl, hblanks⟩, -⟩
    exact hblanks
  · intro h
    exact ⟨⟨cs, rfl, h⟩, .inl rfl⟩

/-- Trimming leaves a text that ends in print, unless there was nothing but blanks. -/
theorem endsInPrint_trimEnd_iff (cs : List Char) : EndsInPrint (trimEnd cs) ↔ allBlank cs = false := by
  rw [← Bool.not_eq_true, ← trimEnd_eq_nil_iff]
  constructor
  · rintro ⟨front, c, hfront, -⟩ hnil
    rw [hnil] at hfront
    exact absurd hfront.symm (by simp)
  · exact (trimEnd_cases cs).resolve_left

theorem trimEnd_trimEnd (cs : List Char) : trimEnd (trimEnd cs) = trimEnd cs :=
  trims_iff.mp ⟨⟨[], (List.append_nil _).symm, rfl⟩, trimEnd_cases cs⟩

/-! ## Tagged messages -/

variable {message : String} {front : List Char}

theorem toList_addTag (message : String) : (addTag message).toList = trimEnd message.toList ++ tag :=
  String.toList_ofList

/-- **A message is tagged if thirteen spaces stand behind print**, so neither twelve nor fourteen are a tag. -/
theorem isTagged_iff :
    isTagged message = true ↔ ∃ front, message.toList = front ++ tag ∧ EndsInPrint front := by
  rw [isTagged, Option.isSome_iff_exists]
  simp only [untagged?_eq_some_iff]

/-- What is found before the tag is what is left. -/
theorem toList_stripTag (h : message.toList = front ++ tag) (hprint : EndsInPrint front) :
    (stripTag message).toList = front := by
  rw [stripTag, untagged?_eq_some_iff.mpr ⟨h, hprint⟩]
  exact String.toList_ofList

/-- A tag stands behind print, and is none. -/
theorem not_isTagged_of_endsInPrint (h : EndsInPrint message.toList) : isTagged message = false := by
  rw [← Bool.not_eq_true, isTagged_iff]
  rintro ⟨front, hfront, hprint⟩
  have htrimmed := h.trimEnd_eq
  rw [hfront, trimEnd_append allBlank_tag, hprint.trimEnd_eq] at htrimmed
  have hlength := congrArg List.length htrimmed
  rw [List.length_append, length_tag, tagLength] at hlength
  omega

/-- **A tag is found on all but blank messages.** -/
theorem isTagged_addTag_iff (message : String) :
    isTagged (addTag message) = true ↔ allBlank message.toList = false := by
  rw [isTagged_iff, ← endsInPrint_trimEnd_iff, toList_addTag]
  constructor
  · rintro ⟨front, hfront, hprint⟩
    rw [List.append_cancel_right hfront]
    exact hprint
  · intro hprint
    exact ⟨_, rfl, hprint⟩

/-- What comes back from tagging is the message without the blanks at its end. -/
theorem toList_stripTag_addTag (h : allBlank message.toList = false) :
    (stripTag (addTag message)).toList = trimEnd message.toList :=
  toList_stripTag (toList_addTag message) ((endsInPrint_trimEnd_iff _).mpr h)

/-- **A tagged message is what tagging makes of what it is without the tag.** -/
theorem addTag_stripTag (h : isTagged message = true) : addTag (stripTag message) = message := by
  obtain ⟨front, hfront, hprint⟩ := isTagged_iff.mp h
  apply String.toList_injective
  rw [toList_addTag, toList_stripTag hfront hprint, hprint.trimEnd_eq, hfront]

/-- Tagging trims the old tag off before it puts the new one on. -/
theorem addTag_addTag (message : String) : addTag (addTag message) = addTag message := by
  apply String.toList_injective
  rw [toList_addTag, toList_addTag, trimEnd_append allBlank_tag, trimEnd_trimEnd]

/-- What stands before a tag ends in print, so it has no second tag. -/
theorem stripTag_stripTag (message : String) : stripTag (stripTag message) = stripTag message := by
  cases h : isTagged message with
  | false => rw [stripTag_of_not_isTagged h, stripTag_of_not_isTagged h]
  | true =>
    obtain ⟨front, hfront, hprint⟩ := isTagged_iff.mp h
    rw [← toList_stripTag hfront hprint] at hprint
    exact stripTag_of_not_isTagged (not_isTagged_of_endsInPrint hprint)

/-- Tagging costs the length of the tag and saves the blanks at the end. -/
theorem length_addTag (message : String) :
    (addTag message).length = (trimEnd message.toList).length + 13 := by
  rw [← String.length_toList, toList_addTag, List.length_append, length_tag, tagLength]

/-- **A message is taggable if it fits once it is tagged.** -/
theorem isTaggable_iff (message : String) :
    isTaggable message = true ↔ isTagged (addTag message) = true ∧ (addTag message).length ≤ 158 := by
  rw [isTagged_addTag_iff, length_addTag, ← Bool.not_eq_true, ← trimEnd_eq_nil_iff]
  simp [isTaggable, tagLength, maxTaggedLength]

/-- **The tag is a mark without loss.** It is found on every message that is tagged, unless there was nothing
to read in it, and without it the message is what it was but for the blanks at its end. To take it off and put
it on again changes nothing, nor does putting it on twice or taking it off twice. Taking it off takes thirteen
spaces behind a character that is not blank, or nothing; it leaves something to read if there was. A message
is taggable if it is found tagged, and fits, once it is. -/
theorem tag_lossless (message : String) :
    (isTagged (addTag message) = true ↔ allBlank message.toList = false) ∧
    (allBlank message.toList = false → Trims message.toList (stripTag (addTag message)).toList) ∧
    (isTagged message = true → addTag (stripTag message) = message ∧
      message.toList = (stripTag message).toList ++ List.replicate 13 ' ' ∧
      EndsInPrint (stripTag message).toList) ∧
    (isTagged message = false → stripTag message = message) ∧
    stripTag (stripTag message) = stripTag message ∧
    addTag (addTag message) = addTag message ∧
    (allBlank (stripTag message).toList = true → allBlank message.toList = true) ∧
    (isTaggable message = true ↔
      isTagged (addTag message) = true ∧ (addTag message).length ≤ 158) := by
  refine ⟨isTagged_addTag_iff message, fun h => ?_, fun h => ?_, stripTag_of_not_isTagged,
    stripTag_stripTag message, addTag_addTag message, (isUntagged_stripTag message).allBlank,
    isTaggable_iff message⟩
  · rw [toList_stripTag_addTag h]
    exact trims_iff.mpr rfl
  · obtain ⟨front, hfront, hprint⟩ := isTagged_iff.mp h
    refine ⟨addTag_stripTag h, ?_⟩
    rw [toList_stripTag hfront hprint]
    exact ⟨hfront, hprint⟩

/-- A message with blanks of several kinds at its end, which are no tag. -/
theorem tag_lossless_of_blanks :
    let message := "see you \u3000\t "
    let tagged := addTag message
    isTagged message = false ∧ stripTag message = message ∧
    allBlank message.toList = false ∧ Trims message.toList (stripTag tagged).toList ∧
    isTagged tagged = true ∧ addTag (stripTag tagged) = tagged ∧
      tagged.toList = "see you".toList ++ List.replicate 13 ' ' := by
  intro message tagged
  have hprint : allBlank message.toList = false := by decide +kernel
  have huntagged : isTagged message = false := by decide +kernel
  obtain ⟨hfound, htrims, -, hkept, -⟩ := tag_lossless message
  have htagged : isTagged tagged = true := hfound.mpr hprint
  obtain ⟨-, -, hmade, -⟩ := tag_lossless tagged
  obtain ⟨hagain, hend, -⟩ := hmade htagged
  have hstripped : (stripTag tagged).toList = "see you".toList := by decide +kernel
  rw [hstripped] at hend
  exact ⟨huntagged, hkept huntagged, hprint, htrims hprint, htagged, hagain, hend⟩

end TextVault.Message
