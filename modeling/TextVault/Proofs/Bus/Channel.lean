import TextVault.Bus.Channel

/-
  What a channel keeps of its history.

  Problem: a channel forgets what it drops, so what a subscriber finds at its place is to be told from all
  that was ever published, which the channel itself does not know.

  Program: `Carries` ties a channel to its history: it has dropped what exceeds its capacity and keeps the
  rest.

  Spec: publishing adds to the history (`Carries.publish`). At a place before the window items are lost
  (`next_of_lt`); at any other place a subscriber finds the item of the history there
  (`Carries.next_of_unread`), or nothing at the end (`Carries.next_of_end`).
-/
namespace TextVault

namespace Channel

variable {ε : Type}

/-- The given items were published on the channel, and it keeps the newest of them. -/
structure Carries (ch : Channel ε) (history : List ε) : Prop where
  dropped : ch.dropped = history.length - ch.capacity
  kept : ch.kept = history.drop ch.dropped

theorem capacity_publishAll (ch : Channel ε) (es : List ε) :
    (es.foldl publish ch).capacity = ch.capacity := by
  induction es generalizing ch with
  | nil => rfl
  | cons e es ih => exact ih _

/-- Before the window, what was dropped since is lost. -/
theorem next_of_lt {ch : Channel ε} {place : Nat} (h : place < ch.dropped) :
    ch.next place = .lost (ch.dropped - place) := if_pos h

namespace Carries

variable {ch : Channel ε} {history read unread : List ε}

/-- A new channel carries an empty history. -/
theorem ofCapacity (n : Nat) : Carries (.ofCapacity n : Channel ε) [] :=
  ⟨(Nat.zero_sub _).symm, rfl⟩

/-- How many items went by is how long the history is, whatever has been dropped of it. -/
theorem published (h : Carries ch history) : ch.published = history.length := by
  rw [Channel.published, h.kept, List.length_drop, h.dropped]
  omega

/-- **The window moves on by one item.** What was dropped before is short of what is dropped now. -/
theorem publish (h : Carries ch history) (e : ε) : Carries (ch.publish e) (history ++ [e]) := by
  have hexcess : ch.kept.length + 1 - ch.capacity =
      (history ++ [e]).length - ch.capacity - ch.dropped := by
    rw [h.kept, List.length_drop, h.dropped, List.length_append, List.length_singleton]
    omega
  have hle : ch.dropped ≤ (history ++ [e]).length - ch.capacity := by
    rw [h.dropped, List.length_append]
    omega
  have hdropped : (ch.publish e).dropped = (history ++ [e]).length - ch.capacity := by
    show ch.dropped + (ch.kept.length + 1 - ch.capacity) = _
    omega
  refine ⟨hdropped, ?_⟩
  have hshort : ch.dropped ≤ history.length := by rw [h.dropped]; omega
  rw [kept_publish, h.kept, ← List.drop_append_of_le_length hshort, List.drop_drop, ← h.kept, hdropped,
    hexcess]
  congr 1
  omega

/-- Publishing several items makes the history longer by just these. -/
theorem publishAll (h : Carries ch history) (es : List ε) :
    Carries (es.foldl Channel.publish ch) (history ++ es) := by
  induction es generalizing ch history with
  | nil =>
    rw [List.append_nil]
    exact h
  | cons e es ih =>
    rw [List.append_cons]
    exact ih (h.publish e)

/-- Within the window the next item is the first one not read. -/
theorem next_of_unread {e : ε} (h : Carries ch (read ++ e :: unread))
    (hwindow : ch.dropped ≤ read.length) : ch.next read.length = .item e := by
  have hfound : ch.kept[read.length - ch.dropped]? = some e := by
    rw [h.kept, List.getElem?_drop, Nat.add_sub_cancel' hwindow,
      List.getElem?_append_right (Nat.le_refl _), Nat.sub_self]
    rfl
  rw [next, if_neg (Nat.not_lt.mpr hwindow), hfound]

/-- At the end nothing is found. -/
theorem next_of_end (h : Carries ch history) : ch.next history.length = .nothing := by
  have hwindow : ch.dropped ≤ history.length := by rw [h.dropped]; omega
  have hlength : ch.kept.length = history.length - ch.dropped := by rw [h.kept, List.length_drop]
  have hnone : ch.kept[history.length - ch.dropped]? = none :=
    List.getElem?_eq_none_iff.mpr (Nat.le_of_eq hlength)
  rw [next, if_neg (Nat.not_lt.mpr hwindow), hnone]

end Carries

end Channel

end TextVault
