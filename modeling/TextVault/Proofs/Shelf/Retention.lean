import Mathlib.Data.Finset.Card
import TextVault.Proofs.Shelf.Found

/-
  How long a weak cache keeps an entry.

  Problem: a value that somebody holds is found as long as its key is among those used last. Every lookup
  counts as a use of its key, one that finds nothing too; but only one that finds something, or a value put
  in, brings its key to the front.

  Program: `touchedSince` gives the keys of a journal since a touch of a given kind, `countOthers` counts those
  other than a given key, each once. `WeakCache.Near` says of an entry that all entries before it are of given
  keys.

  Spec: an entry has before it at most the other keys touched since its own was last found or put
  (`Retained.touch`), since each of them has one entry (`length_le_countOthers`). So it stays while these are
  fewer than fit (`retained_of_run`). Counted from a lookup that found nothing, they may be fewer and the entry
  gone (`not_retained_by_miss`).
-/
namespace TextVault

variable {κ ν : Type} [DecidableEq κ]

namespace Touch

variable (keyOf : ν → κ) (key : κ)

/-- A key is looked up, or something is put under it. -/
def isOf (t : Touch κ ν) : Bool := t.key? keyOf = some key

/-- A key is found, or something is put under it. -/
def reaches : Touch κ ν → Bool
  | look other found => other = key && found.isSome
  | put v => keyOf v.value = key
  | clear => false

/-- Everything is forgotten, or something is put under a key. -/
def displaces : Touch κ ν → Bool
  | look _ _ => false
  | put v => keyOf v.value = key
  | clear => true

end Touch

/-- The keys touched, some before and the others after it, counting anew after each touch of a kind. -/
def touchedSince (keyOf : ν → κ) (anew : Touch κ ν → Bool) (keys : List κ) (journal : List (Touch κ ν)) :
    List κ :=
  journal.foldl (fun keys t => if anew t then [] else keys ++ (t.key? keyOf).toList) keys

/-- How many of some keys are others than the given one. -/
def countOthers (key : κ) (keys : List κ) : Nat := (keys.toFinset.erase key).card

namespace WeakCache

/-- An entry that has only entries of the given keys before it. -/
def Near (c : WeakCache κ ν) (key : κ) (v : Shared ν) (keys : List κ) : Prop :=
  ∃ front back, c.entries = front ++ (key, v) :: back ∧ ∀ e ∈ front, e.1 ∈ keys ∧ e.1 ≠ key

variable {keyOf : ν → κ} {c d : WeakCache κ ν} {key other : κ} {v w : Shared ν} {keys : List κ}

/-- An entry with only entries of other keys before it is the one that a lookup finds. -/
theorem Near.lookup_eq (h : c.Near key v keys) : c.entries.lookup key = some v := by
  obtain ⟨front, back, hentries, hfront⟩ := h
  refine List.lookup_eq_some_iff.mpr ⟨front, back, hentries, fun e he => ?_⟩
  simpa using (hfront e he).2.symm

/-- Entries of different keys are no more than the keys. -/
theorem length_le_countOthers {front : List (κ × Shared ν)} (hnodup : (front.map Prod.fst).Nodup)
    (hfront : ∀ e ∈ front, e.1 ∈ keys ∧ e.1 ≠ key) : front.length ≤ countOthers key keys := by
  have hsub : (front.map Prod.fst).toFinset ⊆ keys.toFinset.erase key := by
    intro k hk
    obtain ⟨e, he, rfl⟩ := List.mem_map.mp (List.mem_toFinset.mp hk)
    exact Finset.mem_erase.mpr ⟨(hfront e he).2, List.mem_toFinset.mpr (hfront e he).1⟩
  calc front.length = (front.map Prod.fst).length := (List.length_map _).symm
    _ = (front.map Prod.fst).toFinset.card := (List.toFinset_card_of_nodup hnodup).symm
    _ ≤ countOthers key keys := Finset.card_le_card hsub

/-- More keys touched can only be more others. -/
theorem countOthers_le_append (key : κ) (keys more : List κ) :
    countOthers key keys ≤ countOthers key (keys ++ more) := by
  refine Finset.card_le_card (Finset.erase_subset_erase key fun k hk => ?_)
  exact List.mem_toFinset.mpr (List.mem_append_left more (List.mem_toFinset.mp hk))

/-- Taking out another key leaves the entry where it is, or nearer to the front. -/
theorem others_of_near (hne : other ≠ key) (h : c.Near key v keys) :
    ∃ front back, c.others other = front ++ (key, v) :: back ∧
      ∀ e ∈ front, (e.1 ∈ keys ∧ e.1 ≠ key) ∧ e.1 ≠ other := by
  obtain ⟨front, back, hentries, hfront⟩ := h
  refine ⟨front.filter fun e => e.1 ≠ other, back.filter fun e => e.1 ≠ other, ?_, fun e he => ?_⟩
  · unfold others
    rw [hentries, List.filter_append, List.filter_cons_of_pos (by simpa using hne.symm)]
  · obtain ⟨hmem, hother⟩ := List.mem_filter.mp he
    exact ⟨hfront e hmem, by simpa using hother⟩

/-- Another key that is not found does not come before an entry. -/
theorem Near.remove (hne : other ≠ key) (h : c.Near key v keys) :
    (c.remove other).Near key v (keys ++ [other]) := by
  obtain ⟨front, back, hothers, hfront⟩ := others_of_near hne h
  refine ⟨front, back, hothers, fun e he => ?_⟩
  obtain ⟨⟨hmem, hkey⟩, -⟩ := hfront e he
  exact ⟨List.mem_append_left _ hmem, hkey⟩

/-- **Another key that is found or put comes before an entry**, which stays if there is room for both. -/
theorem Near.put (hnodup : (c.entries.map Prod.fst).Nodup) (hne : other ≠ key) (h : c.Near key v keys)
    (hroom : countOthers key (keys ++ [other]) < c.capacity) :
    (c.put other w).Near key v (keys ++ [other]) := by
  obtain ⟨front, back, hothers, hfront⟩ := others_of_near hne h
  have hkeys : ∀ e ∈ (other, w) :: front, e.1 ∈ keys ++ [other] ∧ e.1 ≠ key := by
    intro e he
    rcases List.mem_cons.mp he with rfl | he
    · exact ⟨List.mem_append_right _ List.mem_cons_self, hne⟩
    · exact ⟨List.mem_append_left _ (hfront e he).1.1, (hfront e he).1.2⟩
  -- The entries before it are of different keys, so there are at most as many as other keys touched.
  have hdistinct : (((other, w) :: front).map Prod.fst).Nodup := by
    have hcons : (((other, w) :: c.others other).map Prod.fst).Nodup := nodup_cons_others hnodup
    rw [hothers, ← List.cons_append, List.map_append] at hcons
    exact (List.nodup_append.mp hcons).1
  have hlength : ((other, w) :: front).length < c.capacity :=
    Nat.lt_of_le_of_lt (length_le_countOthers hdistinct hkeys) hroom
  -- So the cut at the capacity comes behind the entry.
  obtain ⟨room, hcapacity⟩ : ∃ room, c.capacity - ((other, w) :: front).length = room + 1 :=
    ⟨_, (Nat.succ_pred_eq_of_pos (Nat.sub_pos_of_lt hlength)).symm⟩
  refine ⟨(other, w) :: front, back.take room, ?_, hkeys⟩
  show ((other, w) :: c.others other).take c.capacity = _
  rw [hothers, ← List.cons_append, List.take_append, List.take_of_length_le (Nat.le_of_lt hlength),
    hcapacity, List.take_succ_cons]

/-- What is found or put is first. -/
theorem near_put (c : WeakCache κ ν) (key : κ) (v : Shared ν) (h : 0 < c.capacity) :
    (c.put key v).Near key v [] := by
  obtain ⟨room, hcapacity⟩ := Nat.exists_eq_add_one_of_ne_zero (Nat.ne_of_gt h)
  refine ⟨[], (c.others key).take room, ?_, nofun⟩
  show ((key, v) :: c.others key).take c.capacity = _
  rw [hcapacity, List.take_succ_cons]
  rfl

/-- Something is the latest of its key, and if there is room for the other keys touched since it was found or
put, its entry has only these before it. -/
structure Retained (keyOf : ν → κ) (c : WeakCache κ ν) (journal : List (Touch κ ν)) (key : κ)
    (v : Shared ν) (keys : List κ) : Prop where
  sound : c.Sound keyOf journal
  latest : TextVault.latest keyOf key journal = some v
  capacity_pos : 0 < c.capacity
  near : countOthers key keys < c.capacity → c.Near key v keys

namespace Retained

variable {kept : Shared ν → Prop} {t : Touch κ ν} {journal ts : List (Touch κ ν)}

/-- **A touch retains an entry**, unless it forgets everything or puts something else under the key. -/
theorem touch (h : c.Retained keyOf journal key v keys) (hkept : kept v) (hfits : c.Fits kept t)
    (hstays : t.displaces keyOf key = false) :
    (c.touch keyOf t).Retained keyOf (journal ++ [t]) key v
      (touchedSince keyOf (Touch.reaches keyOf key) keys [t]) := by
  -- Only a touch of another key can push the entry back, and as long as there is room it stays near.
  have hother (other : κ) (w : Shared ν) (hne : other ≠ key)
      (hroom : countOthers key (keys ++ [other]) < c.capacity) :
      (c.put other w).Near key v (keys ++ [other]) :=
    (h.near (Nat.lt_of_le_of_lt (countOthers_le_append ..) hroom)).put h.sound.nodup hne hroom
  refine ⟨h.sound.touch hfits, ?_, capacity_touch keyOf c t ▸ h.capacity_pos, ?_⟩
  · -- It stays the latest, as nothing is put under its key.
    rw [latest_concat]
    cases t with
    | look other found => exact h.latest
    | put w => exact (if_neg (of_decide_eq_false hstays)).trans h.latest
    | clear => nomatch hstays
  · -- It stays near: counting starts anew where the key is reached, and goes on where another one is.
    rw [capacity_touch]
    unfold touchedSince
    rw [List.foldl_cons, List.foldl_nil]
    cases t with
    | clear => nomatch hstays
    | put w =>
      have hne := of_decide_eq_false hstays
      rw [Touch.reaches, decide_eq_false hne, if_neg Bool.false_ne_true]
      exact hother _ w hne
    | look other found =>
      cases found with
      | none =>
        rw [Touch.reaches, Option.isSome_none, Bool.and_false, if_neg Bool.false_ne_true]
        intro hroom
        have hnear := h.near (Nat.lt_of_le_of_lt (countOthers_le_append ..) hroom)
        by_cases hkey : other = key
        · -- The value is alive, so a lookup does not miss its entry.
          subst hkey
          exact absurd hkept (hfits v hnear.lookup_eq)
        · exact hnear.remove hkey
      | some w =>
        by_cases hkey : other = key
        · -- What is found is the latest of the key.
          subst hkey
          have hw := h.sound.latest other w hfits
          rw [h.latest] at hw
          obtain rfl := Option.some.inj hw
          rw [Touch.reaches, decide_eq_true rfl, Option.isSome_some, Bool.and_true, if_pos rfl]
          intro _
          exact near_put c other v h.capacity_pos
        · rw [Touch.reaches, decide_eq_false hkey, Bool.false_and, if_neg Bool.false_ne_true]
          exact hother other w hkey

/-- **A run of such touches retains it.** -/
theorem leads (h : c.Retained keyOf journal key v keys) (hkept : kept v) (hleads : Leads keyOf kept c ts d)
    (hstays : ∀ t ∈ ts, t.displaces keyOf key = false) :
    d.Retained keyOf (journal ++ ts) key v (touchedSince keyOf (Touch.reaches keyOf key) keys ts) := by
  induction hleads generalizing journal keys with
  | nil c =>
    rw [List.append_nil]
    exact h
  | cons fits _ ih =>
    rw [List.append_cons]
    exact ih (h.touch hkept fits (hstays _ List.mem_cons_self)) fun t ht =>
      hstays t (List.mem_cons_of_mem _ ht)

end Retained

end WeakCache

namespace Shelf

open Message

variable {keyOf : ν → κ} {s : Shelf κ ν} {op : Op κ ν} {v : Shared ν}

/-- A value that an operation puts in the cache and that stays: somebody holds it all the time, nothing else
is put under its key, nothing is forgotten, and fewer other keys than the limit are touched since its own was,
in the way given. -/
structure Stays (keyOf : ν → κ) (anew : κ → Touch κ ν → Bool) (limit : Nat) (s : Shelf κ ν) (op : Op κ ν)
    (after : List (Op κ ν)) (v : Shared ν) : Prop where
  put : .put v ∈ op.touches (s.step keyOf op).2
  held : ∀ k, ((s.step keyOf op).1.run keyOf (after.take k)).1.Holds v
  undisplaced : ∀ t ∈ (s.step keyOf op).1.journal keyOf after, t.displaces keyOf (keyOf v.value) = false
  few : countOthers (keyOf v.value) (touchedSince keyOf (anew (keyOf v.value)) []
    ((s.step keyOf op).1.journal keyOf after)) < limit

omit [DecidableEq κ] in
/-- What an operation puts in the cache is the last that it does there. -/
theorem touches_of_put {a : Answer ν} (h : .put v ∈ op.touches a) :
    ∃ ts, op.touches a = ts ++ [.put v] := by
  have hput (h : .put v ∈ (a.value.toList.map .put : List (Touch κ ν))) :
      (a.value.toList.map .put : List (Touch κ ν)) = [.put v] := by
    obtain ⟨w, hw, heq⟩ := List.mem_map.mp h
    cases heq
    rw [Option.mem_toList.mp hw]
    rfl
  cases op with
  | get key holder => nomatch List.mem_singleton.mp h
  | insert value holder => exact ⟨[], hput h⟩
  | reinsert holder => exact ⟨[], hput h⟩
  | getOrLoad key stored holder =>
    rw [Op.touches] at h ⊢
    by_cases hloads : a.loads = 0
    · rw [if_pos hloads] at h
      nomatch List.mem_singleton.mp h
    · rw [if_neg hloads] at h ⊢
      rcases List.mem_cons.mp h with heq | hmem
      · nomatch heq
      · rw [hput hmem]
        exact ⟨[.look key none], rfl⟩
  | release holder => nomatch h
  | clear => nomatch List.mem_singleton.mp h

/-- Right after it is put in the cache, a value is first. -/
theorem retained_of_put {journal : List (Touch κ ν)} (hsound : s.cache.Sound keyOf journal)
    (hpos : 0 < s.cache.capacity) (h : .put v ∈ op.touches (s.step keyOf op).2) :
    (s.step keyOf op).1.cache.Retained keyOf (journal ++ op.touches (s.step keyOf op).2)
      (keyOf v.value) v [] := by
  have hleads : WeakCache.Leads keyOf (fun _ => False) s.cache (op.touches (s.step keyOf op).2)
      (s.step keyOf op).1.cache := leads_step (fun _ hv => hv.elim) op
  have hcapacity := capacity_step keyOf s op
  obtain ⟨ts, hts⟩ := touches_of_put h
  refine ⟨hsound.leads hleads, ?_, hcapacity ▸ hpos, fun _ => ?_⟩
  · rw [hts, ← List.append_assoc, latest_concat]
    exact if_pos rfl
  · rw [hts] at hleads
    obtain ⟨c, hlast⟩ := hleads.exists_of_concat
    rw [hlast] at hcapacity ⊢
    exact c.near_put _ v (by rw [WeakCache.capacity_touch] at hcapacity; omega)

/-- **What stays is found**, in a cache with room for as many as the limit. -/
theorem finds_of_stays {journal : List (Touch κ ν)} {after : List (Op κ ν)}
    (hsound : s.cache.Sound keyOf journal) (hpos : 0 < s.cache.capacity)
    (h : Stays keyOf (Touch.reaches keyOf) s.cache.capacity s op after v) :
    ((s.step keyOf op).1.run keyOf after).1.Finds (keyOf v.value) v := by
  have hleads : WeakCache.Leads keyOf (v = ·) (s.step keyOf op).1.cache
      ((s.step keyOf op).1.journal keyOf after) ((s.step keyOf op).1.run keyOf after).1.cache :=
    leads_run fun w hw k => hw ▸ alive_of_holds (h.held k)
  have hretained := (retained_of_put hsound hpos h.put).leads rfl hleads h.undisplaced
  have hcapacity : ((s.step keyOf op).1.run keyOf after).1.cache.capacity = s.cache.capacity := by
    rw [hleads.capacity_eq, capacity_step]
  have hnear := hretained.near (hcapacity ▸ h.few)
  have hheld := h.held after.length
  rw [List.take_length] at hheld
  exact finds_of_lookup hnear.lookup_eq (alive_of_holds hheld)

/-- **A record that is held stays in the cache while fewer other keys are in use than fit.** If a record is put
in, is held by somebody ever since, nothing is put under its key and nothing forgotten, and there have been
fewer distinct other keys looked up or put than fit since its own was last found or put, then it is found
again, and loading it does not ask the store. In any case loading a key asks the store once if looking it up
would find nothing, and else does what looking up does; it gives what the store has, as a value of its own,
and if that is nothing it leaves no entry of the key and the others as they are. -/
theorem retained_of_run (n : Nat) :
    (∀ before op after r,
      let s := ((ofCapacity n).run Record.key before).1
      let later := ((s.step Record.key op).1.run Record.key after).1
      Stays Record.key (Touch.reaches Record.key) (max n 1) s op after r →
        (∀ holder, (later.step Record.key (.get r.value.key holder)).2 = ⟨some r, 0⟩) ∧
        ∀ stored holder,
          (later.step Record.key (.getOrLoad r.value.key stored holder)).2 = ⟨some r, 0⟩) ∧
    ∀ ops key stored holder,
      let s := ((ofCapacity n).run Record.key ops).1
      let looked := s.step Record.key (.get key holder)
      let loaded := s.step Record.key (.getOrLoad key stored holder)
      (looked.2.value ≠ none → loaded = looked ∧ loaded.2.loads = 0) ∧
      (looked.2.value = none →
        loaded.2 = ⟨stored.map fun value => ⟨s.made + 1, value⟩, 1⟩ ∧
        (stored = none → loaded.1.cache.entries = s.cache.entries.filter fun e => e.1 ≠ key)) := by
  constructor
  · -- What stays is found by a lookup of either kind, and then the store is not asked.
    intro before op after r s later hstays
    have hcapacity : s.cache.capacity = max n 1 := capacity_of_run Record.key n before
    have hpos : 0 < s.cache.capacity := by omega
    have hfinds : later.Finds r.value.key r :=
      finds_of_stays (sound_of_run Record.key n before) hpos (hcapacity ▸ hstays)
    refine ⟨fun holder => ?_, fun stored holder => ?_⟩
    · rw [step_get_of_finds hfinds]
    · rw [step_getOrLoad_of_finds hfinds, step_get_of_finds hfinds]
  · -- A lookup that may read the store differs from one that may not in case of a miss only.
    intro ops key stored holder s looked loaded
    rcases s.misses_or_finds key with hmiss | ⟨v, hfound⟩
    · have hlooked : looked = ({ s with cache := s.cache.remove key }, {}) := step_get_of_misses hmiss
      have hloaded : loaded = _ := step_getOrLoad_of_misses hmiss stored
      refine ⟨fun hsome => absurd (congrArg (·.2.value) hlooked) hsome, fun _ => ?_⟩
      rw [hloaded]
      cases stored with
      | none => exact ⟨rfl, fun _ => rfl⟩
      | some value => exact ⟨rfl, nofun⟩
    · have hlooked : looked = _ := step_get_of_finds hfound
      have hloaded : loaded = looked := step_getOrLoad_of_finds hfound stored
      refine ⟨fun _ => ⟨hloaded, ?_⟩, fun hnone => ?_⟩
      · rw [hloaded, hlooked]
      · rw [hlooked] at hnone
        nomatch hnone

/-! ### Instances -/

/-- A plain message. -/
def plainRecord (id : Int64) : Record :=
  Record.build {} ⟨.sms, id⟩ 1 ⟨20⟩ (-1) ⟨"hello", true⟩ 0 0 [] ⟨"+15550102000", none⟩

/-- Of three records in a cache for two, the first stays if it is looked up after the second was put in. -/
theorem retained_of_run_lookup :
    let op := .insert (plainRecord 1) (some "a")
    let after := [.insert (plainRecord 2) (some "b"), .get ⟨.sms, 1⟩ none, .insert (plainRecord 3) (some "c")]
    let later := ((ofCapacity 2).run Record.key (op :: after)).1
    Stays Record.key (Touch.reaches Record.key) 2 (ofCapacity 2) op after ⟨1, plainRecord 1⟩ ∧
      (later.step Record.key (.get ⟨.sms, 1⟩ none)).2 = ⟨some ⟨1, plainRecord 1⟩, 0⟩ := by
  intro op after later
  have hstays : Stays Record.key (Touch.reaches Record.key) 2 (ofCapacity 2) op after ⟨1, plainRecord 1⟩ := by
    constructor
    case put => decide +kernel
    case held =>
      intro k
      match k with
      | 0 => decide +kernel
      | 1 => decide +kernel
      | 2 => decide +kernel
      | k + 3 =>
        show Holds ((Shelf.run Record.key _ (_ :: _ :: _ :: [].take k)).1) _
        rw [List.take_nil]
        decide +kernel
    case undisplaced => decide +kernel
    case few => decide +kernel
  exact ⟨hstays, ((retained_of_run 2).1 [] op after ⟨1, plainRecord 1⟩ hstays).1 none⟩

/-- A lookup that finds nothing keeps nothing. The cache is for one record, the second took the place of the
first, and looking the first up does not bring it back, though no other key was in use since that lookup. -/
theorem not_retained_by_miss :
    ¬ ∀ n before op after r,
      let s := ((ofCapacity n).run Record.key before).1
      let later := ((s.step Record.key op).1.run Record.key after).1
      Stays Record.key (Touch.isOf Record.key) (max n 1) s op after r →
        (∀ holder, (later.step Record.key (.get r.value.key holder)).2 = ⟨some r, 0⟩) ∧
        ∀ stored holder,
          (later.step Record.key (.getOrLoad r.value.key stored holder)).2 = ⟨some r, 0⟩ := by
  intro h
  -- A second record takes the only place, and then the first one is asked for in vain. That lookup is counted as a
  -- touch of its key, but brings nothing back.
  have hfound := (h 1 [] (.insert (plainRecord 1) (some "a"))
    [.insert (plainRecord 2) (some "b"), .get ⟨.sms, 1⟩ none] ⟨1, plainRecord 1⟩ ?_).1 none
  · exact absurd (congrArg Answer.value hfound) (by decide +kernel)
  · constructor
    case put => decide +kernel
    case held =>
      intro k
      -- Somebody holds the first record all the time.
      match k with
      | 0 => decide +kernel
      | 1 => decide +kernel
      | k + 2 =>
        show Holds ((Shelf.run Record.key _ (_ :: _ :: [].take k)).1) _
        rw [List.take_nil]
        decide +kernel
    case undisplaced => decide +kernel
    case few => decide +kernel

end Shelf
end TextVault
