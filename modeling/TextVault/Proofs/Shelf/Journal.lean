import TextVault.Shelf.Basic

/-
  The journal of a weak cache.

  Problem: what a shelf answers hangs on all that was ever put in its cache and looked up in it, and one
  operation may do both: a lookup that misses goes on to put what the store has.

  Program: `Touch` is what can happen to a cache, with what a lookup found. `Shelf.journal` writes the touches
  of a run down in order, read off the operations and their answers alone. `WeakCache.touch` is what a touch
  makes of a cache.

  Spec: the touches of a run lead from the cache before it to the cache after it (`leads_run`). What a lookup
  finds is an entry at that moment, and it does not miss the entry of a value that is kept alive (`Fits`). So
  what every touch keeps is kept by every run, and nothing else has to be known of the operations.
-/
namespace TextVault

/-- What can happen to a cache. -/
inductive Touch (κ ν : Type) where
  /-- A key is looked up, and there may be something to find. -/
  | look (key : κ) (found : Option (Shared ν))
  /-- A value is put in under its own key. -/
  | put (v : Shared ν)
  | clear
  deriving DecidableEq

/-- The key that a touch is about. -/
def Touch.key? {κ ν : Type} (keyOf : ν → κ) : Touch κ ν → Option κ
  | look key _ => some key
  | put v => some (keyOf v.value)
  | clear => none

namespace WeakCache

variable {κ ν : Type} [DecidableEq κ] (keyOf : ν → κ) (kept : Shared ν → Prop)

/-- The cache after a touch. -/
def touch (c : WeakCache κ ν) : Touch κ ν → WeakCache κ ν
  | .look key (some v) => c.put key v
  | .look key none => c.remove key
  | .put v => c.put (keyOf v.value) v
  | .clear => c.clear

/-- Whether a touch can happen while somebody keeps some values alive: what is found is there, and what is
there and kept alive is found. -/
def Fits (c : WeakCache κ ν) : Touch κ ν → Prop
  | .look key (some v) => (key, v) ∈ c.entries
  | .look key none => ∀ v, c.entries.lookup key = some v → ¬ kept v
  | _ => True

/-- Touches that can happen one after another, from one cache to another. -/
inductive Leads : WeakCache κ ν → List (Touch κ ν) → WeakCache κ ν → Prop where
  | nil (c : WeakCache κ ν) : Leads c [] c
  | cons {c d : WeakCache κ ν} {t : Touch κ ν} {ts : List (Touch κ ν)}
      (fits : c.Fits kept t) (rest : Leads (c.touch keyOf t) ts d) : Leads c (t :: ts) d

variable {keyOf kept} {c d e : WeakCache κ ν} {t : Touch κ ν} {xs ys : List (Touch κ ν)}

theorem Leads.one (h : c.Fits kept t) : Leads keyOf kept c [t] (c.touch keyOf t) := .cons h (.nil _)

/-- Touches in a row go from the first cache to the last. -/
theorem Leads.append (h : Leads keyOf kept c xs d) (h' : Leads keyOf kept d ys e) :
    Leads keyOf kept c (xs ++ ys) e := by
  induction h with
  | nil c => exact h'
  | cons fits _ ih => exact .cons fits (ih h')

/-- The last of some touches makes of a cache what is there in the end. -/
theorem Leads.exists_of_concat (h : Leads keyOf kept c (xs ++ [t]) d) :
    ∃ e : WeakCache κ ν, d = e.touch keyOf t := by
  induction xs generalizing c with
  | nil =>
    obtain - | ⟨-, hrest⟩ := h
    cases hrest
    exact ⟨c, rfl⟩
  | cons x xs ih =>
    obtain - | ⟨-, hrest⟩ := h
    exact ih hrest

/-- No touch changes how many entries there may be. -/
@[simp] theorem capacity_touch (keyOf : ν → κ) (c : WeakCache κ ν) (t : Touch κ ν) :
    (c.touch keyOf t).capacity = c.capacity := by
  cases t with
  | look key found =>
    cases found with
    | none => rfl
    | some v => rfl
  | put v => rfl
  | clear => rfl

theorem Leads.capacity_eq (h : Leads keyOf kept c xs d) : d.capacity = c.capacity := by
  induction h with
  | nil c => rfl
  | cons _ _ ih => rw [ih, capacity_touch]

/-! ## A lookup -/

theorem remove_of_lookup {key : κ} (h : c.entries.lookup key = none) : c.remove key = c := by
  have hothers : c.others key = c.entries := by
    refine List.filter_eq_self.mpr fun e he => ?_
    have hne : key ≠ e.1 := by simpa using List.lookup_eq_none_iff.mp h e he
    simpa using hne.symm
  unfold remove
  rw [hothers]

/-- **A lookup either finds an entry that is alive and makes it the most recent one, or leaves no entry.** -/
theorem get_cases (alive : Nat → Bool) (c : WeakCache κ ν) (key : κ) :
    (c.get alive key = (none, c.remove key) ∧
      ∀ v, c.entries.lookup key = some v → alive v.serial = false) ∨
    ∃ v, c.entries.lookup key = some v ∧ alive v.serial = true ∧
      c.get alive key = (some v, c.put key v) := by
  unfold get
  cases hlookup : c.entries.lookup key with
  | none =>
    left
    rw [remove_of_lookup hlookup]
    exact ⟨rfl, nofun⟩
  | some v =>
    -- A dead entry counts as none, and the lookup takes it off the shelf.
    cases halive : alive v.serial with
    | false =>
      left
      refine ⟨by simp [halive], fun w hw => ?_⟩
      obtain rfl := Option.some.inj hw
      exact halive
    | true => exact Or.inr ⟨v, rfl, halive, by simp [halive]⟩

/-- What is looked up is an entry. -/
theorem mem_of_lookup {key : κ} {v : Shared ν} (h : c.entries.lookup key = some v) :
    (key, v) ∈ c.entries := by
  obtain ⟨front, back, hentries, -⟩ := List.lookup_eq_some_iff.mp h
  rw [hentries]
  exact List.mem_append_right _ List.mem_cons_self

end WeakCache

namespace Shelf

variable {κ ν : Type} [DecidableEq κ] (keyOf : ν → κ)

/-- What an operation does to the cache, as its answer tells. -/
def Op.touches : Op κ ν → Answer ν → List (Touch κ ν)
  | .get key _, a => [.look key a.value]
  | .insert _ _, a => a.value.toList.map .put
  | .reinsert _, a => a.value.toList.map .put
  | .getOrLoad key _ _, a =>
    if a.loads = 0 then [.look key a.value] else .look key none :: a.value.toList.map .put
  | .release _, _ => []
  | .clear, _ => [.clear]

/-- All touches of a run, in order. -/
def journal (s : Shelf κ ν) : List (Op κ ν) → List (Touch κ ν)
  | [] => []
  | op :: ops => op.touches (s.step keyOf op).2 ++ (s.step keyOf op).1.journal ops

variable {keyOf}

omit [DecidableEq κ] in
@[simp] theorem cache_hold (s : Shelf κ ν) (holder : Option String) (v : Option (Shared ν)) :
    (s.hold holder v).cache = s.cache := by
  unfold hold
  split
  · rfl
  · rfl

/-! ## Lookups -/

/-- There is nothing to find under a key, or nothing that is alive. -/
structure Misses (s : Shelf κ ν) (key : κ) : Prop where
  dead : ∀ v, s.cache.entries.lookup key = some v → s.alive v.serial = false
  get_eq : s.cache.get s.alive key = (none, s.cache.remove key)

/-- What is found under a key has the entry, and somebody holds it. -/
structure Finds (s : Shelf κ ν) (key : κ) (v : Shared ν) : Prop where
  lookup_eq : s.cache.entries.lookup key = some v
  alive : s.alive v.serial = true
  get_eq : s.cache.get s.alive key = (some v, s.cache.put key v)

/-- A key is found alive or not at all; a dead entry counts as none. -/
theorem misses_or_finds (s : Shelf κ ν) (key : κ) : s.Misses key ∨ ∃ v, s.Finds key v := by
  rcases s.cache.get_cases s.alive key with ⟨hget, hdead⟩ | ⟨v, hlookup, halive, hget⟩
  · exact Or.inl ⟨hdead, hget⟩
  · exact Or.inr ⟨v, hlookup, halive, hget⟩

variable {s : Shelf κ ν} {key : κ} {v : Shared ν} {holder : Option String}

/-- A lookup in vain at most takes out a dead entry, and leaves the order of the others alone. -/
theorem step_get_of_misses (h : s.Misses key) :
    s.step keyOf (.get key holder) = ({ s with cache := s.cache.remove key }, {}) := by
  show (({ s with cache := (s.cache.get s.alive key).2 }.hold holder (s.cache.get s.alive key).1),
    ({ value := (s.cache.get s.alive key).1 } : Answer ν)) = _
  rw [h.get_eq]
  unfold hold
  cases holder with
  | none => rfl
  | some name => rfl

theorem Finds.mem (h : s.Finds key v) : (key, v) ∈ s.cache.entries := WeakCache.mem_of_lookup h.lookup_eq

/-- An entry that is alive is found. -/
theorem finds_of_lookup (h : s.cache.entries.lookup key = some v) (halive : s.alive v.serial = true) :
    s.Finds key v := by
  rcases s.misses_or_finds key with hmiss | ⟨w, hfound⟩
  · have hdead := hmiss.dead v h
    rw [halive] at hdead
    nomatch hdead
  · have heq := hfound.lookup_eq
    rw [h] at heq
    obtain rfl := Option.some.inj heq
    exact hfound

/-- A lookup that finds puts the entry to the front and gives its value to the holder. -/
theorem step_get_of_finds (h : s.Finds key v) :
    s.step keyOf (.get key holder) =
      ({ s with cache := s.cache.put key v }.hold holder (some v), { value := some v }) := by
  show (({ s with cache := (s.cache.get s.alive key).2 }.hold holder (s.cache.get s.alive key).1),
    ({ value := (s.cache.get s.alive key).1 } : Answer ν)) = _
  rw [h.get_eq]

/-- **What is found is not loaded**: the store is not asked, and all is as for a lookup alone. -/
theorem step_getOrLoad_of_finds (h : s.Finds key v) (stored : Option ν) :
    s.step keyOf (.getOrLoad key stored holder) = s.step keyOf (.get key holder) := by
  rw [step_get_of_finds h, step, getOrLoad, h.get_eq]
  rfl

/-- **What is not found is loaded once**, and put under its own key if the store has it. -/
theorem step_getOrLoad_of_misses (h : s.Misses key) (stored : Option ν) :
    s.step keyOf (.getOrLoad key stored holder) =
      match stored with
      | none => ({ s with cache := s.cache.remove key }, { loads := 1 })
      | some value =>
        let found := { s with cache := s.cache.remove key }.insert keyOf value holder
        (found.2, { value := some found.1, loads := 1 }) := by
  rw [step, getOrLoad, h.get_eq]
  cases stored with
  | none => rfl
  | some value => rfl

/-! ## The journal tells what became of the cache -/

/-- An insert touches the cache once, under the key of the value. -/
theorem cache_insert (s : Shelf κ ν) (value : ν) (holder : Option String) :
    (s.insert keyOf value holder).2.cache = s.cache.touch keyOf (.put (s.insert keyOf value holder).1) :=
  cache_hold _ _ _

variable {kept : Shared ν → Prop}

/-- **The touches of an operation lead from the cache before it to the cache after it.** -/
theorem leads_step (hkept : ∀ v, kept v → s.alive v.serial = true) (op : Op κ ν) :
    WeakCache.Leads keyOf kept s.cache (op.touches (s.step keyOf op).2) (s.step keyOf op).1.cache := by
  -- A lookup in vain is a touch that fits: what the cache has under the key is dead, hence not among the kept.
  have hfits {key : κ} (hmiss : s.Misses key) : s.cache.Fits kept (.look key none) := by
    intro v hlookup hv
    have hdead := hmiss.dead v hlookup
    rw [hkept v hv] at hdead
    nomatch hdead
  -- Reading alone, which a load does as well when there is something to find.
  have hget (key : κ) (holder : Option String) :
      WeakCache.Leads keyOf kept s.cache [.look key (s.step keyOf (.get key holder)).2.value]
        (s.step keyOf (.get key holder)).1.cache := by
    rcases s.misses_or_finds key with hmiss | ⟨v, hfound⟩
    · rw [step_get_of_misses hmiss]
      exact .one (hfits hmiss)
    · rw [step_get_of_finds hfound, cache_hold]
      exact .one hfound.mem
  cases op with
  | get key holder => exact hget key holder
  | insert value holder =>
    have hcache : (s.step keyOf (.insert value holder)).1.cache = _ := cache_insert s value holder
    rw [hcache]
    exact .one trivial
  | reinsert holder =>
    rw [step, reinsert]
    cases s.held.get? holder with
    | none => exact .nil _
    | some v => exact .one trivial
  | getOrLoad key stored holder =>
    rcases s.misses_or_finds key with hmiss | ⟨v, hfound⟩
    · rw [step_getOrLoad_of_misses hmiss]
      cases stored with
      | none => exact .one (hfits hmiss)
      | some value =>
        -- Two touches: the lookup in vain, and the value put in.
        refine .cons (hfits hmiss) ?_
        dsimp only
        rw [cache_insert]
        exact .one trivial
    · rw [step_getOrLoad_of_finds hfound]
      exact hget key holder
  | release holder => exact .nil _
  | clear => exact .one trivial

theorem capacity_step (keyOf : ν → κ) (s : Shelf κ ν) (op : Op κ ν) :
    (s.step keyOf op).1.cache.capacity = s.cache.capacity := by
  have hleads : WeakCache.Leads keyOf (fun _ => False) s.cache (op.touches (s.step keyOf op).2)
      (s.step keyOf op).1.cache := leads_step (fun _ hv => hv.elim) op
  exact hleads.capacity_eq

/-- **The touches of a run lead from the cache before it to the cache after it.** -/
theorem leads_run {ops : List (Op κ ν)}
    (hkept : ∀ v, kept v → ∀ k, (s.run keyOf (ops.take k)).1.alive v.serial = true) :
    WeakCache.Leads keyOf kept s.cache (s.journal keyOf ops) (s.run keyOf ops).1.cache := by
  induction ops generalizing s with
  | nil => exact .nil _
  | cons op ops ih =>
    have halive : ∀ v, kept v → s.alive v.serial = true := fun v hv => hkept v hv 0
    exact (leads_step halive op).append (ih fun v hv k => hkept v hv (k + 1))

end Shelf
end TextVault
