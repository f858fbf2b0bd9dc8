/-
  A broadcast channel that keeps a bounded number of items.

  Problem: every subscriber is to see every item, but a slow one must not hold up the others, so a
  channel keeps only its newest items.

  Program: the channel keeps the newest items, at most `capacity` of them, and counts those it dropped.
  A subscriber's place is the number of items published before the one it reads next. `Channel.next`
  reads one item at a place: a subscriber behind the oldest kept item is told how many it lost, and
  one at the end finds nothing.

  Assumed of the channel that this stands for: it has room for exactly `channelCapacity n` items when asked
  for `n`, and what makes room is always the oldest item. A subscriber that fell behind is told once, with
  the exact count, and goes on at the oldest item kept. Publishing and reading are single steps, in some
  order, and whoever reads changes nothing for anybody else.

  Spec: each item published is counted once (`published_publish`), the kept ones are the newest
  (`kept_publish`), and there are never more of them than the capacity (`length_kept_publish`).
-/
namespace TextVault

/-- The capacity of a channel asked to keep `n` items: the next power of two. -/
def channelCapacity (n : Nat) : Nat := (max n 1).nextPowerOfTwo

/-- A channel, as far as its subscribers can tell: what it keeps and how much went by before. -/
structure Channel (ε : Type) where
  /-- At most so many items are kept. -/
  capacity : Nat
  /-- How many items were dropped to make room. -/
  dropped : Nat := 0
  /-- The newest items, oldest first. -/
  kept : List ε := []
  deriving Repr

/-- What a subscriber finds at its place. -/
inductive Arrival (ε : Type) where
  /-- The item that was published at the place. -/
  | item (e : ε)
  /-- Items were lost; the place moves on past them. -/
  | lost (count : Nat)
  /-- The place is the end, and nothing has been published there yet. -/
  | nothing
  deriving Repr

namespace Channel

variable {ε : Type}

/-- A channel that keeps `n` items, rounded up to a power of two. -/
def ofCapacity (n : Nat) : Channel ε := { capacity := channelCapacity n }

/-- How many items were ever published. -/
def published (ch : Channel ε) : Nat := ch.dropped + ch.kept.length

/-- Publishes an item; the oldest kept one makes room for it. -/
def publish (ch : Channel ε) (e : ε) : Channel ε :=
  let excess := ch.kept.length + 1 - ch.capacity
  { ch with dropped := ch.dropped + excess, kept := (ch.kept ++ [e]).drop excess }

/-- Reads at a place. -/
def next (ch : Channel ε) (place : Nat) : Arrival ε :=
  if place < ch.dropped then .lost (ch.dropped - place)
  else
    match ch.kept[place - ch.dropped]? with
    | some e => .item e
    | none => .nothing

/-- The kept items are the newest ones: what exceeds the capacity goes, and it goes from the front. -/
theorem kept_publish (ch : Channel ε) (e : ε) :
    (ch.publish e).kept = (ch.kept ++ [e]).drop (ch.kept.length + 1 - ch.capacity) := rfl

/-- Each item counts once, whether it is still kept or was dropped at once. -/
theorem published_publish (ch : Channel ε) (e : ε) :
    (ch.publish e).published = ch.published + 1 := by
  simp only [published, publish, List.length_drop, List.length_append, List.length_singleton]
  omega

/-- The capacity is never exceeded, not even by a channel that was given more to begin with. -/
theorem length_kept_publish (ch : Channel ε) (e : ε) :
    (ch.publish e).kept.length ≤ ch.capacity := by
  simp only [kept_publish, List.length_drop, List.length_append, List.length_singleton]
  omega

/-- An item is found below the number of items published. -/
theorem place_lt_of_next_item {ch : Channel ε} {place : Nat} {e : ε}
    (h : ch.next place = .item e) : place < ch.published := by
  unfold next at h
  split at h
  · cases h
  · split at h
    · rename_i hget
      have := (List.getElem?_eq_some_iff.mp hget).1
      unfold published
      omega
    · cases h

/-- Items are lost below the number of items dropped, and the place moves on to the oldest kept. -/
theorem add_of_next_lost {ch : Channel ε} {place n : Nat} (h : ch.next place = .lost n) :
    0 < n ∧ place + n = ch.dropped := by
  unfold next at h
  split at h
  · cases h; omega
  · split at h <;> cases h

end Channel

end TextVault
