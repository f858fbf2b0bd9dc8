import TextVault.Proofs.Message.Tagging

/-
  Blanks at both ends.

  Problem: what a person types has blanks around it, and what is meant are the characters between.

  Program: `Padded` says that a text is some core with blanks on both sides.

  Spec: every text is padded, by what `trim` leaves of it (`padded_trim`). A core without blanks is found again
  (`Padded.trim_eq`): the blanks in front go, and those at the end, and the core keeps both from going further.
-/
namespace TextVault.Text

/-- A text that is the core with blanks on both sides, or on one, or on none. -/
def Padded (core cs : List Char) : Prop :=
  ∃ before after, cs = before ++ core ++ after ∧ allBlank before = true ∧ allBlank after = true

/-- Trimming takes blanks only, and at the ends only. -/
theorem padded_trim (cs : List Char) : Padded (trim cs) cs := by
  obtain ⟨after, hafter, hblank⟩ := trimEnd_append_blanks cs
  refine ⟨(trimEnd cs).takeWhile isBlank, after, ?_, ?_, hblank⟩
  · rw [trim, trimStart, List.takeWhile_append_dropWhile]
    exact hafter
  · rw [allBlank, List.all_takeWhile]

/-- **A core without blanks is what trimming leaves.** -/
theorem Padded.trim_eq {core cs : List Char} (h : Padded core cs) (hcore : ∀ c ∈ core, isBlank c = false) :
    trim cs = core := by
  obtain ⟨before, after, rfl, hbefore, hafter⟩ := h
  have hall : ∀ c ∈ before, isBlank c = true := fun c hc => List.all_eq_true.mp hbefore c hc
  rw [trim, Message.trimEnd_append hafter]
  cases core with
  | nil =>
    rw [List.append_nil, (Message.trimEnd_eq_nil_iff before).mpr hbefore]
    rfl
  | cons c core =>
    -- The last character of the core ends the trimming at the back, and its first one that in front.
    have hends : Message.EndsInPrint (before ++ c :: core) := by
      refine ⟨before ++ (c :: core).dropLast, (c :: core).getLast (List.cons_ne_nil c core), ?_, ?_⟩
      · rw [List.append_assoc, List.dropLast_concat_getLast]
      · exact hcore _ (List.getLast_mem _)
    have hfirst : isBlank c = false := hcore c List.mem_cons_self
    rw [hends.trimEnd_eq, trimStart, List.dropWhile_append_of_pos hall,
      List.dropWhile_cons_of_neg (by simp [hfirst])]

end TextVault.Text
