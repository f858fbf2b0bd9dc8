import Mathlib.Algebra.BigOperators.Group.Finset.Piecewise
import Mathlib.Algebra.Order.BigOperators.Group.Finset
import Mathlib.Algebra.Order.Group.Int
import TextVault.Proofs.Key.Scrubbing

/-
  The count of visible surfaces.

  Problem: clients show and hide surfaces on their own, and the cache keeps one number for all of them. A call
  that hides a surface where none is visible is not counted, so the number is no plain sum.

  Program: `net` is how many more surfaces operations show than they hide. `callsOf` are the operations of one
  client among those of several, and they are `Balanced` if it never hides more than it has shown.

  Spec: the number is the most that any last stretch of a run shows on balance: no stretch shows more
  (`net_le_surfaces`) and one shows as many (`exists_suffix`). Balanced clients leave the number of surfaces
  that they have open (`surfaces_eq_net`), and as long as there is one no alarm is live
  (`InOrder.live_of_visible`).
-/
namespace TextVault.KeyCache

/-! ## The count after an operation -/

variable (k : KeyCache)

/-- Scrubbing closes no surface. Only surfaces that come and go change the count, and the lemmas that follow say so of
the other operations. -/
@[simp] theorem surfaces_scrub (removed : Option Credential) :
    (k.scrub removed).surfaces = k.surfaces := by
  cases removed with
  | none => rfl
  | some c => rfl

theorem surfaces_install (c : Credential) : (k.install c).1.surfaces = k.surfaces := by
  cases hc : k.ring.isScrubbed c with
  | true => rw [install_of_isScrubbed hc]
  | false => rw [fst_install hc, surfaces_scrub, surfaces_rearm]

/-- An eviction hides nothing by itself: a surface stays open, with nothing to show. -/
theorem surfaces_evict : k.evict.1.surfaces = k.surfaces := by
  rw [evict_eq]

/-- A callback at most evicts. -/
theorem surfaces_fire (id : AlarmId) : (k.fire id).1.surfaces = k.surfaces := by
  rw [fire]
  split
  · dsimp only
    split
    · next number _ =>
      rcases fst_onAlarm { k with clock := k.clock.take id } number with h | h | h
      · rw [h]
      · rw [h]
      · rw [h, surfaces_evict]
    · rfl
  · rfl

theorem surfaces_fireAll (ids : List AlarmId) : (k.fireAll ids).1.surfaces = k.surfaces :=
  fireAll_invariant (P := fun k' => k'.surfaces = k.surfaces)
    (fun k' id h => (surfaces_fire k' id).trans h) ids k rfl

/-- What an operation is to do to the count. -/
def Op.shift : Op → Int
  | showSurface => 1
  | hideSurface => -1
  | _ => 0

/-- **The count follows, but never falls below zero.** -/
theorem surfaces_step (op : Op) :
    ((k.step op).1.surfaces : Int) = max 0 (k.surfaces + op.shift) := by
  have hkept : ∀ n : Nat, n = k.surfaces → (n : Int) = max 0 (k.surfaces + 0) := by omega
  cases op with
  | create bytes => exact hkept _ rfl
  | install c => exact hkept _ (k.surfaces_install c)
  | evict => exact hkept _ k.surfaces_evict
  | showSurface =>
    have hshown : (k.step .showSurface).1.surfaces = k.surfaces + 1 := surfaces_cancelAlarm _
    rw [hshown, Op.shift]
    omega
  | hideSurface =>
    have hhidden : (k.step .hideSurface).1.surfaces = k.surfaces - 1 := surfaces_rearm _
    rw [hhidden, Op.shift]
    omega
  | setPolicy p => exact hkept _ (surfaces_rearm _)
  | setUpgrading on => exact hkept _ rfl
  | fire id => exact hkept _ (k.surfaces_fire id)
  | advance ticks => exact hkept _ (surfaces_fireAll _ _)

/-! ## The count after a run -/

/-- How many more surfaces operations show than they hide. -/
def net : List Op → Int
  | [] => 0
  | op :: ops => op.shift + net ops

/-- The balance of two stretches is the sum of both. -/
theorem net_append (xs ys : List Op) : net (xs ++ ys) = net xs + net ys := by
  induction xs with
  | nil => exact (Int.zero_add _).symm
  | cons op xs ih => rw [List.cons_append, net, net, ih, Int.add_assoc]

/-- The count is at least what it was and the balance since, as cutting off at zero can only raise it. -/
theorem surfaces_add_net_le (ops : List Op) :
    k.surfaces + net ops ≤ ((k.run ops).1.surfaces : Int) := by
  induction ops generalizing k with
  | nil => exact Int.le_of_eq (Int.add_zero _)
  | cons op ops ih =>
    have hstep := k.surfaces_step op
    have hrest := ih (k.step op).1
    rw [run_cons, net]
    dsimp only
    omega

/-- No last stretch of a run shows more on balance. -/
theorem net_le_surfaces {s ops : List Op} (h : s <:+ ops) : net s ≤ ((k.run ops).1.surfaces : Int) := by
  obtain ⟨before, rfl⟩ := h
  have hrest := (k.run before).1.surfaces_add_net_le s
  rw [run_append]
  dsimp only
  omega

/-- The count is what it was and all that was shown on balance, or the balance of a last stretch. -/
theorem exists_suffix (ops : List Op) :
    ((k.run ops).1.surfaces : Int) = k.surfaces + net ops ∨
      ∃ s, s <:+ ops ∧ net s = (k.run ops).1.surfaces := by
  induction ops generalizing k with
  | nil => exact Or.inl (Int.add_zero _).symm
  | cons op ops ih =>
    rw [run_cons]
    rcases ih (k.step op).1 with hall | ⟨s, hs, hnet⟩
    · have hstep := k.surfaces_step op
      rcases Int.le_total 0 (k.surfaces + op.shift) with hle | hle
      · left
        rw [hall, net]
        omega
      · -- The count was cut off at zero here, so only what came later counts.
        right
        refine ⟨ops, List.suffix_cons op ops, ?_⟩
        rw [hall]
        omega
    · exact Or.inr ⟨s, hs.trans (List.suffix_cons op ops), hnet⟩

/-! ## Clients -/

/-- The operations of one client, out of those of several in the order in which they came. -/
def callsOf {n : Nat} (client : Fin n) (calls : List (Fin n × Op)) : List Op :=
  (calls.filter fun call => call.1 = client).map (·.2)

/-- Whoever does these operations never hides more than it has shown so far. -/
def Balanced (ops : List Op) : Prop := ∀ m ≤ ops.length, 0 ≤ net (ops.take m)

instance (ops : List Op) : Decidable (Balanced ops) :=
  inferInstanceAs (Decidable (∀ m ≤ ops.length, 0 ≤ net (ops.take m)))

/-- At no point has such a client hidden more than it has shown. -/
theorem Balanced.net_nonneg {before ops : List Op} (h : Balanced ops) (hinit : before <+: ops) :
    0 ≤ net before := by
  rw [List.prefix_iff_eq_take.mp hinit]
  exact h _ hinit.length_le

section

variable {n : Nat}

theorem net_callsOf_cons (client : Fin n) (call : Fin n × Op) (calls : List (Fin n × Op)) :
    net (callsOf client (call :: calls)) =
      (if call.1 = client then call.2.shift else 0) + net (callsOf client calls) := by
  rw [callsOf, List.filter_cons]
  split
  · next h => rw [if_pos (by simpa using h)]; rfl
  · next h => rw [if_neg (by simpa using h), Int.zero_add]; rfl

/-- What all clients show on balance is what each of them does. -/
theorem sum_net_callsOf (calls : List (Fin n × Op)) :
    ∑ client, net (callsOf client calls) = net (calls.map (·.2)) := by
  induction calls with
  | nil => exact Finset.sum_const_zero
  | cons call calls ih =>
    simp only [net_callsOf_cons, Finset.sum_add_distrib, ih, Finset.sum_ite_eq, Finset.mem_univ,
      if_true, List.map_cons, net]

/-- Clients that are balanced one by one are so together, however their operations come in between. -/
theorem balanced_calls {calls : List (Fin n × Op)} (h : ∀ client, Balanced (callsOf client calls)) :
    ∀ before, before <+: calls.map (·.2) → 0 ≤ net before := by
  intro before hinit
  have hcalls : calls.take before.length <+: calls := List.take_prefix _ _
  have hbefore : before = (calls.take before.length).map (·.2) := by
    rw [List.map_take]
    exact List.prefix_iff_eq_take.mp hinit
  rw [hbefore, ← sum_net_callsOf]
  exact Finset.sum_nonneg fun client _ => (h client).net_nonneg ((hcalls.filter _).map _)

end

/-- Where no more was ever hidden than shown, the count is a plain sum. -/
theorem surfaces_eq_net {ops : List Op} (hnone : k.surfaces = 0)
    (h : ∀ before, before <+: ops → 0 ≤ net before) : ((k.run ops).1.surfaces : Int) = net ops := by
  have hle := k.surfaces_add_net_le ops
  rcases k.exists_suffix ops with hall | ⟨s, ⟨before, rfl⟩, hnet⟩
  · rw [hall, hnone]
    exact Int.zero_add _
  · have hbefore := h before (List.prefix_append _ _)
    rw [net_append] at hle ⊢
    omega

/-! ## No alarm while a surface is visible -/

namespace InOrder

variable {k : KeyCache}

/-- While a surface is open no alarm is wanted, so none is held. -/
theorem alarm_of_visible (h : InOrder k) (hvisible : k.surfaces ≠ 0) : k.alarm = none := by
  refine alarm_eq_none (h.armed.trans ?_)
  simp [isEligible, hvisible]

/-- And none is live, late ones included. -/
theorem live_of_visible (h : InOrder k) (hvisible : k.surfaces ≠ 0) : k.clock.live = [] := by
  rw [h.live, h.alarm_of_visible hvisible]
  rfl

/-- The callback of any alarm only marks itself as run. -/
theorem fire_of_visible (h : InOrder k) (hvisible : k.surfaces ≠ 0) (id : AlarmId) :
    ∃ clock, k.fire id = ({ k with clock }, []) := by
  cases hu : k.clock.isUntaken id with
  | false => exact ⟨k.clock, by rw [KeyCache.fire, hu]; rfl⟩
  | true =>
    refine ⟨k.clock.take id, h.fire_of_ne ?_ hu⟩
    rw [h.alarm_of_visible hvisible]
    exact (Option.some_ne_none id).symm

/-- Time passes and nothing becomes due. -/
theorem advance_of_visible (h : InOrder k) (hvisible : k.surfaces ≠ 0) (ticks : Nat) :
    k.advance ticks = ({ k with clock := k.clock.tick ticks }, []) := by
  have hdue : (k.clock.tick ticks).due = [] := by
    rw [Clock.due_eq_filter_live, Clock.live_tick, h.live_of_visible hvisible]
    rfl
  rw [KeyCache.advance, settle, hdue]
  rfl

end InOrder

/-- **The count of surfaces.** After any run the count is the most that a last stretch of the run shows on
balance. Whoever's the operations are, if no client ever hides more than it has shown, the count is the number
of surfaces that the clients have open together. As long as one of them has one open, no alarm is live, and
neither an alarm that goes off nor any stretch of time withdraws the credential or tells anyone. -/
theorem surfaces_of_run (p : LockPolicy) (clock : Clock) (ops : List Op) :
    let k := ((start p clock).run ops).1
    (∃ s, s <:+ ops ∧ net s = k.surfaces) ∧
    (∀ s, s <:+ ops → net s ≤ k.surfaces) ∧
    ∀ (n : Nat) (calls : List (Fin n × Op)), calls.map (·.2) = ops →
      (∀ client, Balanced (callsOf client calls)) →
      (k.surfaces : Int) = ∑ client, net (callsOf client calls) ∧
      ((∃ client, 0 < net (callsOf client calls)) →
        k.clock.live = [] ∧
        (∀ id, ∃ clock, k.fire id = ({ k with clock }, [])) ∧
        ∀ ticks, k.advance ticks = ({ k with clock := k.clock.tick ticks }, [])) := by
  intro k
  refine ⟨?_, fun s hs => net_le_surfaces _ hs, ?_⟩
  · rcases (start p clock).exists_suffix ops with hall | hsuffix
    · exact ⟨ops, List.suffix_refl ops, (hall.trans (Int.zero_add _)).symm⟩
    · exact hsuffix
  · intro n calls hops hbalanced
    -- With balanced clients the count is never cut off at zero, so it is the sum of their shares.
    have hsum : (k.surfaces : Int) = ∑ client, net (callsOf client calls) := by
      rw [sum_net_callsOf, hops]
      exact surfaces_eq_net _ rfl fun before hinit =>
        balanced_calls hbalanced before (hops ▸ hinit)
    refine ⟨hsum, fun ⟨client, hopen⟩ => ?_⟩
    have h : InOrder k := .run p clock ops
    -- No share is negative, so one open surface keeps the sum above zero.
    have hle : net (callsOf client calls) ≤ ∑ client, net (callsOf client calls) :=
      Finset.single_le_sum (fun client _ => (hbalanced client).net_nonneg (List.prefix_refl _))
        (Finset.mem_univ client)
    have hvisible : k.surfaces ≠ 0 := by omega
    exact ⟨h.live_of_visible hvisible, h.fire_of_visible hvisible, h.advance_of_visible hvisible⟩

/-- Two clients show a surface each, and one of them hides its own: the other one's holds the alarm back. -/
theorem surfaces_of_run_two :
    let calls : List (Fin 2 × Op) := [(0, .create [1]), (0, .install ⟨0⟩), (0, .showSurface),
      (1, .showSurface), (0, .hideSurface)]
    let k := ((start (.after 5) {}).run (calls.map (·.2))).1
    (∀ client, Balanced (callsOf client calls)) ∧ 0 < net (callsOf 1 calls) ∧
      (k.surfaces : Int) = ∑ client, net (callsOf client calls) ∧ k.clock.live = [] ∧
      k.advance 300 = ({ k with clock := k.clock.tick 300 }, []) := by
  intro calls k
  have hbalanced : ∀ client, Balanced (callsOf client calls) := by decide
  have hopen : 0 < net (callsOf 1 calls) := by decide
  obtain ⟨hsum, hheld⟩ := (surfaces_of_run (.after 5) {} (calls.map (·.2))).2.2 2 calls rfl hbalanced
  obtain ⟨hlive, -, hadvance⟩ := hheld ⟨1, hopen⟩
  exact ⟨hbalanced, hopen, hsum, hlive, hadvance 300⟩

end TextVault.KeyCache
