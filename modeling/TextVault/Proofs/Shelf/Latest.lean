import TextVault.Proofs.Shelf.Journal

/-
  The entries of a weak cache are what was put in last.

  Problem: an entry is a promise that looking its key up gives what was last put under it. Lookups reorder
  the entries and drop some, new values push old ones out or take their place, and a value may be put in
  under a key that nobody asked for.

  Program: `latest` reads off a journal what was last put under a key since everything was forgotten.

  Spec: `Sound` says of a cache and its journal that no key has two entries, that there are no more than the
  capacity, and that each is the latest of its key. A touch keeps it (`Sound.touch`), so a run does
  (`sound_of_run`).
-/
namespace TextVault

variable {κ ν : Type} [DecidableEq κ] (keyOf : ν → κ)

/-- What was last put under a key, after a touch. -/
def Touch.update (key : κ) (last : Option (Shared ν)) : Touch κ ν → Option (Shared ν)
  | look _ _ => last
  | put v => if keyOf v.value = key then some v else last
  | clear => none

/-- What was last put under a key since the last clearing. -/
def latest (key : κ) (journal : List (Touch κ ν)) : Option (Shared ν) :=
  journal.foldl (Touch.update keyOf key) none

variable {keyOf}

/-- Only the last touch of a journal decides what it changes. -/
theorem latest_concat (key : κ) (journal : List (Touch κ ν)) (t : Touch κ ν) :
    latest keyOf key (journal ++ [t]) = t.update keyOf key (latest keyOf key journal) := by
  rw [latest, List.foldl_append]
  rfl

/-- What was put under a key has that key. -/
theorem keyOf_of_latest {key : κ} {journal : List (Touch κ ν)} {v : Shared ν}
    (h : latest keyOf key journal = some v) : keyOf v.value = key := by
  -- What a touch leaves as the latest is of the key if what it finds as the latest is.
  have hfold (ts : List (Touch κ ν)) (last : Option (Shared ν))
      (hlast : ∀ w, last = some w → keyOf w.value = key)
      (hv : ts.foldl (Touch.update keyOf key) last = some v) : keyOf v.value = key := by
    induction ts generalizing last with
    | nil => exact hlast v hv
    | cons t ts ih =>
      refine ih _ (fun w hw => ?_) hv
      cases t with
      | look other found => exact hlast w hw
      | clear => nomatch hw
      | put u =>
        by_cases hu : keyOf u.value = key
        · rw [Touch.update, if_pos hu] at hw
          obtain rfl := Option.some.inj hw
          exact hu
        · rw [Touch.update, if_neg hu] at hw
          exact hlast w hw
  exact hfold journal none nofun h

/-! ## Entries -/

namespace WeakCache

variable {c d : WeakCache κ ν} {key : κ} {v : Shared ν} {e : κ × Shared ν}

theorem mem_others : e ∈ c.others key ↔ e ∈ c.entries ∧ e.1 ≠ key := by
  unfold others
  rw [List.mem_filter, decide_eq_true_eq]

/-- An entry of the cache after a write is the new one or one that was there, of another key. -/
theorem mem_put (h : e ∈ (c.put key v).entries) : e = (key, v) ∨ e ∈ c.others key :=
  List.mem_cons.mp (List.mem_of_mem_take h)

theorem nodup_others (h : (c.entries.map Prod.fst).Nodup) : ((c.others key).map Prod.fst).Nodup :=
  (List.Sublist.map Prod.fst List.filter_sublist).nodup h

theorem nodup_cons_others (h : (c.entries.map Prod.fst).Nodup) :
    (((key, v) :: c.others key).map Prod.fst).Nodup := by
  rw [List.map_cons, List.nodup_cons]
  refine ⟨fun hmem => ?_, nodup_others h⟩
  obtain ⟨e, he, hkey⟩ := List.mem_map.mp hmem
  exact (mem_others.mp he).2 hkey

/-- **A write never makes a second entry of a key**, since the entry of the key is taken out first. -/
theorem nodup_put (h : (c.entries.map Prod.fst).Nodup) : ((c.put key v).entries.map Prod.fst).Nodup :=
  (List.Sublist.map Prod.fst (List.take_sublist ..)).nodup (nodup_cons_others h)

/-! ## Soundness -/

/-- Each entry of a cache is the latest of its key, and there are neither too many nor two of a key. -/
structure Sound (keyOf : ν → κ) (c : WeakCache κ ν) (journal : List (Touch κ ν)) : Prop where
  nodup : (c.entries.map Prod.fst).Nodup
  size_le : c.size ≤ c.capacity
  latest : ∀ key v, (key, v) ∈ c.entries → TextVault.latest keyOf key journal = some v

namespace Sound

variable {kept : Shared ν → Prop} {journal ts : List (Touch κ ν)} {t : Touch κ ν}

/-- **A touch keeps the entries sound.** -/
theorem touch (h : c.Sound keyOf journal) (fits : c.Fits kept t) :
    (c.touch keyOf t).Sound keyOf (journal ++ [t]) := by
  cases t with
  | look key found =>
    cases found with
    | none =>
      refine ⟨nodup_others h.nodup, Nat.le_trans (length_remove c key) h.size_le, fun other w hw => ?_⟩
      rw [latest_concat]
      exact h.latest other w (mem_others.mp hw).1
    | some v =>
      refine ⟨nodup_put h.nodup, length_put c key v, fun other w hw => ?_⟩
      rw [latest_concat]
      -- What is found was an entry before.
      rcases mem_put hw with heq | hother
      · cases heq
        exact h.latest key v fits
      · exact h.latest other w (mem_others.mp hother).1
  | put v =>
    refine ⟨nodup_put h.nodup, length_put c _ v, fun other w hw => ?_⟩
    rw [latest_concat]
    rcases mem_put hw with heq | hother
    · cases heq
      exact if_pos rfl
    · obtain ⟨hmem, hne⟩ := mem_others.mp hother
      exact (if_neg (Ne.symm hne)).trans (h.latest other w hmem)
  | clear => exact ⟨List.nodup_nil, Nat.zero_le _, nofun⟩

/-- Touches keep the entries sound, one after another: what is there under a key was the last to be put there. -/
theorem leads (h : c.Sound keyOf journal) (hleads : Leads keyOf kept c ts d) : d.Sound keyOf (journal ++ ts) := by
  induction hleads generalizing journal with
  | nil c =>
    rw [List.append_nil]
    exact h
  | cons fits _ ih =>
    rw [List.append_cons]
    exact ih (h.touch fits)

end Sound
end WeakCache

namespace Shelf

/-- The touches of a run from an empty cache, if nobody keeps anything. -/
theorem leads_of_run (keyOf : ν → κ) (n : Nat) (ops : List (Op κ ν)) :
    WeakCache.Leads keyOf (fun _ => False) (ofCapacity n : Shelf κ ν).cache
      ((ofCapacity n).journal keyOf ops) ((ofCapacity n : Shelf κ ν).run keyOf ops).1.cache :=
  leads_run fun _ hv => hv.elim

/-- So they are in every run, from an empty cache on. -/
theorem sound_of_run (keyOf : ν → κ) (n : Nat) (ops : List (Op κ ν)) :
    ((ofCapacity n : Shelf κ ν).run keyOf ops).1.cache.Sound keyOf ((ofCapacity n).journal keyOf ops) := by
  have hempty : (ofCapacity n : Shelf κ ν).cache.Sound keyOf [] := ⟨List.nodup_nil, Nat.zero_le _, nofun⟩
  exact hempty.leads (leads_of_run keyOf n ops)

/-- And there is room for one entry at least. -/
theorem capacity_of_run (keyOf : ν → κ) (n : Nat) (ops : List (Op κ ν)) :
    ((ofCapacity n : Shelf κ ν).run keyOf ops).1.cache.capacity = max n 1 :=
  (leads_of_run keyOf n ops).capacity_eq

end Shelf
end TextVault
