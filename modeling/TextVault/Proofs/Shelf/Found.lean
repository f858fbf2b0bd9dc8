import TextVault.Message.Record
import TextVault.Proofs.Shelf.Latest

/-
  What a lookup finds.

  Problem: a shelf tells whether a value is alive by its serial number alone, and the entries of its cache may
  outlive the values. A value is found only if it is the very value that somebody holds.

  Program: `Knows` says of a value that somebody holds it or that it has an entry.

  Spec: an operation makes at most one value known, and that one has a serial number of its own
  (`knows_step`). So no two known values share one (`Coherent.run`), and what is found is held
  (`Coherent.holds`), is of the key asked for and is what was last put there (`found_of_run`).
-/
namespace TextVault.Shelf

open Message

variable {κ ν : Type}

/-- Somebody holds a value. -/
def Holds (s : Shelf κ ν) (v : Shared ν) : Prop := v ∈ s.held.values

instance [DecidableEq ν] (s : Shelf κ ν) (v : Shared ν) : Decidable (s.Holds v) :=
  inferInstanceAs (Decidable (v ∈ s.held.values))

/-- Somebody holds a value, or it has an entry. -/
def Knows (s : Shelf κ ν) (v : Shared ν) : Prop := s.Holds v ∨ ∃ key, (key, v) ∈ s.cache.entries

variable {s : Shelf κ ν} {key : κ} {v w : Shared ν} {holder : Option String} {found : Option (Shared ν)}

/-- Who holds a value keeps its serial number alive, and with it every value of that number; that there is no other is
what `Coherent` is for. -/
theorem alive_of_holds (h : s.Holds v) : s.alive v.serial = true :=
  List.any_eq_true.mpr ⟨v, h, beq_self_eq_true _⟩

/-- Letting go gives nobody anything. -/
theorem holds_release {name : String} (h : (s.release name).Holds v) : s.Holds v := by
  obtain ⟨e, he, hv⟩ := List.mem_map.mp h
  exact List.mem_map.mpr ⟨e, (List.mem_filter.mp he).1, hv⟩

/-- Somebody who holds a value has been given it or has held it before. -/
theorem holds_hold (h : (s.hold holder found).Holds v) : found = some v ∨ s.Holds v := by
  unfold hold at h
  split at h
  · rename_i name given
    rcases List.mem_cons.mp h with heq | hrest
    · exact Or.inl (congrArg some heq.symm)
    · exact Or.inr (holds_release hrest)
  · exact Or.inr h

theorem holds_of_get? {name : String} (h : s.held.get? name = some v) : s.Holds v := by
  obtain ⟨front, back, hentries, -⟩ := List.lookup_eq_some_iff.mp h
  unfold Holds Named.values
  rw [hentries, List.map_append]
  exact List.mem_append_right _ List.mem_cons_self

@[simp] theorem made_hold : (s.hold holder found).made = s.made := by
  unfold hold
  split
  · rfl
  · rfl

/-! ## What becomes known -/

theorem knows_hold (h : (s.hold holder found).Knows w) : found = some w ∨ s.Knows w := by
  rcases h with hheld | ⟨key, hmem⟩
  · exact (holds_hold hheld).imp_right Or.inl
  · rw [cache_hold] at hmem
    exact Or.inr (Or.inr ⟨key, hmem⟩)

variable [DecidableEq κ] {keyOf : ν → κ}

theorem knows_remove (h : { s with cache := s.cache.remove key }.Knows w) : s.Knows w := by
  rcases h with hheld | ⟨other, hmem⟩
  · exact Or.inl hheld
  · exact Or.inr ⟨other, (WeakCache.mem_others.mp hmem).1⟩

/-- An entry that is new is of the value that is put in. -/
theorem knows_put (h : { s with cache := s.cache.put key v }.Knows w) : w = v ∨ s.Knows w := by
  rcases h with hheld | ⟨other, hmem⟩
  · exact Or.inr (Or.inl hheld)
  · rcases WeakCache.mem_put hmem with heq | hother
    · exact Or.inl (Prod.ext_iff.mp heq).2
    · exact Or.inr (Or.inr ⟨other, (WeakCache.mem_others.mp hother).1⟩)

/-- A lookup that finds something makes no entry. -/
theorem mem_of_mem_get (keyOf : ν → κ) {other : κ} (h : s.Finds key v)
    (hw : (other, w) ∈ (s.step keyOf (.get key holder)).1.cache.entries) : (other, w) ∈ s.cache.entries := by
  rw [step_get_of_finds h, cache_hold] at hw
  rcases WeakCache.mem_put hw with heq | hother
  · cases heq
    exact h.mem
  · exact (WeakCache.mem_others.mp hother).1

/-- An insertion makes one entry, in place of the one of its key. -/
theorem mem_insert {value : ν} {other : κ}
    (hw : (other, w) ∈ (s.insert keyOf value holder).2.cache.entries) :
    other = keyOf value ∧ w = (s.insert keyOf value holder).1 ∨
      (other, w) ∈ s.cache.entries ∧ other ≠ keyOf value := by
  rw [cache_insert] at hw
  rcases WeakCache.mem_put hw with heq | hother
  · exact Or.inl (Prod.ext_iff.mp heq)
  · exact Or.inr (WeakCache.mem_others.mp hother)

/-- An insertion makes one value known, with a new serial number. -/
theorem knows_insert {value : ν} (h : (s.insert keyOf value holder).2.Knows w) :
    s.Knows w ∨ (s.insert keyOf value holder).1 = w ∧ w.serial = s.made + 1 ∧
      (s.insert keyOf value holder).2.made = s.made + 1 := by
  have hnew : (s.insert keyOf value holder).1 = w → s.Knows w ∨ (s.insert keyOf value holder).1 = w ∧
      w.serial = s.made + 1 ∧ (s.insert keyOf value holder).2.made = s.made + 1 := by
    intro heq
    exact Or.inr ⟨heq, heq ▸ rfl, made_hold⟩
  rcases knows_hold h with hsome | hrest
  · exact hnew (Option.some.inj hsome)
  · rcases knows_put hrest with heq | hold
    · exact hnew heq.symm
    · exact Or.inl hold

/-- **What an operation makes known is its answer, with a serial number of its own.** -/
theorem knows_step (op : Op κ ν) (h : (s.step keyOf op).1.Knows w) :
    s.Knows w ∨ (s.step keyOf op).2.value = some w ∧ w.serial = s.made + 1 ∧
      (s.step keyOf op).1.made = s.made + 1 := by
  have hget (key : κ) (holder : Option String) (h : (s.step keyOf (.get key holder)).1.Knows w) :
      s.Knows w := by
    rcases s.misses_or_finds key with hmiss | ⟨v, hfound⟩
    · rw [step_get_of_misses hmiss] at h
      exact knows_remove h
    · rcases h with hheld | ⟨other, hmem⟩
      · rw [step_get_of_finds hfound] at hheld
        -- What is found had an entry.
        rcases holds_hold hheld with hsome | hold
        · exact Or.inr ⟨key, Option.some.inj hsome ▸ hfound.mem⟩
        · exact Or.inl hold
      · exact Or.inr ⟨other, mem_of_mem_get keyOf hfound hmem⟩
  cases op with
  | get key holder => exact Or.inl (hget key holder h)
  | insert value holder =>
    rcases knows_insert h with hold | ⟨heq, hserial, hmade⟩
    · exact Or.inl hold
    · exact Or.inr ⟨congrArg some heq, hserial, hmade⟩
  | reinsert holder =>
    left
    rw [step, reinsert] at h
    cases hv : s.held.get? holder with
    | none =>
      rw [hv] at h
      exact h
    | some v =>
      rw [hv] at h
      rcases knows_put h with rfl | hold
      · exact Or.inl (holds_of_get? hv)
      · exact hold
  | getOrLoad key stored holder =>
    rcases s.misses_or_finds key with hmiss | ⟨v, hfound⟩
    · rw [step_getOrLoad_of_misses hmiss] at h ⊢
      cases stored with
      | none => exact Or.inl (knows_remove h)
      | some value =>
        rcases knows_insert h with hold | ⟨heq, hserial, hmade⟩
        · exact Or.inl (knows_remove hold)
        · exact Or.inr ⟨congrArg some heq, hserial, hmade⟩
    · rw [step_getOrLoad_of_finds hfound] at h
      exact Or.inl (hget key holder h)
  | release holder =>
    left
    rcases h with hheld | hentry
    · exact Or.inl (holds_release hheld)
    · exact Or.inr hentry
  | clear =>
    left
    rcases h with hheld | ⟨key, hmem⟩
    · exact Or.inl hheld
    · cases hmem

/-- A value that is inserted is a new one, with a serial number that no other has. -/
theorem made_insert (keyOf : ν → κ) (s : Shelf κ ν) (value : ν) (holder : Option String) :
    (s.insert keyOf value holder).2.made = s.made + 1 := made_hold

/-- No serial number becomes free again. -/
theorem made_step (keyOf : ν → κ) (s : Shelf κ ν) (op : Op κ ν) : s.made ≤ (s.step keyOf op).1.made := by
  have hget (key : κ) (holder : Option String) : (s.step keyOf (.get key holder)).1.made = s.made := made_hold
  cases op with
  | get key holder => exact Nat.le_of_eq (hget key holder).symm
  | insert value holder =>
    have hmade : (s.step keyOf (.insert value holder)).1.made = s.made + 1 :=
      made_insert keyOf s value holder
    omega
  | reinsert holder =>
    rw [step, reinsert]
    cases s.held.get? holder with
    | none => exact Nat.le_refl _
    | some v => exact Nat.le_refl _
  | getOrLoad key stored holder =>
    rcases s.misses_or_finds key with hmiss | ⟨v, hfound⟩
    · rw [step_getOrLoad_of_misses hmiss]
      cases stored with
      | none => exact Nat.le_refl _
      | some value =>
        have hmade := made_insert keyOf { s with cache := s.cache.remove key } value holder
        dsimp only at hmade ⊢
        omega
    · rw [step_getOrLoad_of_finds hfound]
      exact Nat.le_of_eq (hget key holder).symm
  | release holder => exact Nat.le_refl _
  | clear => exact Nat.le_refl _

/-- No two known values share a serial number, and the next one is free. -/
structure Coherent (s : Shelf κ ν) : Prop where
  serial_le : ∀ v, s.Knows v → v.serial ≤ s.made
  eq_of_serial : ∀ v w, s.Knows v → s.Knows w → v.serial = w.serial → v = w

namespace Coherent

/-- **Every operation keeps serial numbers apart**: at most one value is new, and its number is the next one. -/
theorem step (h : s.Coherent) (op : Op κ ν) : (s.step keyOf op).1.Coherent := by
  have hmade := made_step keyOf s op
  constructor
  · intro v hv
    rcases knows_step op hv with hold | ⟨-, hserial, hnew⟩
    · exact Nat.le_trans (h.serial_le v hold) hmade
    · omega
  · intro v w hv hw heq
    rcases knows_step op hv with hv | ⟨hv, hvserial, -⟩
    · -- Two values of one serial are both old, or both the new one: a serial not yet given out tells them apart.
      rcases knows_step op hw with hw | ⟨-, hwserial, -⟩
      · exact h.eq_of_serial v w hv hw heq
      · have := h.serial_le v hv
        omega
    · rcases knows_step op hw with hw | ⟨hw, -, -⟩
      · have := h.serial_le w hw
        omega
      · rw [hv] at hw
        exact Option.some.inj hw

/-- So no two values of a run share a number. -/
theorem run (h : s.Coherent) (ops : List (Op κ ν)) : (s.run keyOf ops).1.Coherent := by
  induction ops generalizing s with
  | nil => exact h
  | cons op ops ih => exact ih (h.step op)

/-- **What is found is held.** -/
theorem holds (h : s.Coherent) (hfound : s.Finds key v) : s.Holds v := by
  obtain ⟨w, hw, hserial⟩ := List.any_eq_true.mp hfound.alive
  have heq : w = v :=
    h.eq_of_serial w v (Or.inl hw) (Or.inr ⟨key, hfound.mem⟩) (beq_iff_eq.mp hserial)
  exact heq ▸ hw

end Coherent

/-- This goes for every run of an empty shelf. -/
theorem coherent_of_run (n : Nat) (ops : List (Op κ ν)) :
    ((ofCapacity n : Shelf κ ν).run keyOf ops).1.Coherent := by
  have hempty : (ofCapacity n : Shelf κ ν).Coherent := by
    constructor
    · rintro v (hv | ⟨key, hv⟩)
      · nomatch hv
      · nomatch hv
    · rintro v w (hv | ⟨key, hv⟩)
      · nomatch hv
      · nomatch hv
  exact hempty.run ops

/-! ## What is found -/

/-- What a lookup answers is what it finds. -/
theorem finds_of_get (h : (s.step keyOf (.get key holder)).2.value = some v) : s.Finds key v := by
  rcases s.misses_or_finds key with hmiss | ⟨w, hfound⟩
  · rw [step_get_of_misses hmiss] at h
    nomatch h
  · rw [step_get_of_finds hfound] at h
    obtain rfl := Option.some.inj h
    exact hfound

/-- A lookup that gives nothing has missed, and then there was nothing that anybody held. -/
theorem misses_of_get (h : (s.step keyOf (.get key holder)).2.value = none) : s.Misses key := by
  rcases s.misses_or_finds key with hmiss | ⟨w, hfound⟩
  · exact hmiss
  · rw [step_get_of_finds hfound] at h
    nomatch h

/-- **A lookup never gives a stale record.** Whatever was put in, looked up, loaded, forgotten or let go
before: what a lookup gives is of the key asked for, somebody holds it, and nothing was put under the key
after it. A lookup that gives nothing leaves no entry of its key and the others as they are. No two entries
have one key, which tells the two transports apart, and there are never more than the capacity, or than one
if that is none. -/
theorem found_of_run (n : Nat) (ops : List (Op RecordKey Record)) :
    let s := ((ofCapacity n).run Record.key ops).1
    let journal := (ofCapacity n).journal Record.key ops
    (∀ key holder r, (s.step Record.key (.get key holder)).2.value = some r →
      r.value.key = key ∧ s.Holds r ∧ latest Record.key key journal = some r) ∧
    (∀ key holder, (s.step Record.key (.get key holder)).2.value = none →
      (s.step Record.key (.get key holder)).1.cache.entries =
        s.cache.entries.filter fun e => e.1 ≠ key) ∧
    (s.cache.entries.map Prod.fst).Nodup ∧ (∀ id, RecordKey.mk .sms id ≠ .mk .mms id) ∧
    s.cache.size ≤ max n 1 := by
  intro s journal
  have hsound : s.cache.Sound Record.key journal := sound_of_run Record.key n ops
  have hcoherent : s.Coherent := coherent_of_run n ops
  have hcapacity : s.cache.capacity = max n 1 := capacity_of_run Record.key n ops
  refine ⟨?_, ?_, hsound.nodup, nofun, hcapacity ▸ hsound.size_le⟩
  · intro key holder r hr
    have hfound : s.Finds key r := finds_of_get hr
    have hlatest := hsound.latest key r hfound.mem
    exact ⟨keyOf_of_latest hlatest, hcoherent.holds hfound, hlatest⟩
  · intro key holder hnone
    rw [step_get_of_misses (misses_of_get hnone)]
    rfl

end TextVault.Shelf
