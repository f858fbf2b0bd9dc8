import TextVault.Proofs.Contact.Identity

/-
  Who is called, and how often.

  Problem: a listener is put on a contact through any of its copies, also through a group that holds several of
  them, and then it is called as often. It is taken off altogether, through any copy or any group that holds
  one, and equal numbers count for nothing.

  Program: the `registrations` of a session are its addings and removals, with the originals that the handles stood
  for at that time. `addedSince` counts how often a listener was put on an original since it was last taken
  off, and `standing` are the listeners of an original in order, each adding as often as it counted and unless a
  later removal took it back.

  Spec: one adding goes to the end and one removal takes away all (`standing_added`, `standing_removed`), so the
  count of the list is the sum (`count_standing`), and the persons have just these listeners (`listened_after`).
-/
namespace TextVault

namespace Directory

/-- A listener put on or taken off what a handle stands for. -/
inductive Registration where
  | added (l : ListenerId) (ks : List PersonId)
  | removed (l : ListenerId) (ks : List PersonId)

namespace Registration

/-- How often the listener is put on the original. -/
def times (l : ListenerId) (k : PersonId) : Registration → Nat
  | added m ks => if m = l then ks.count k else 0
  | removed .. => 0

/-- Whether the listener is taken off the original. -/
def covers (l : ListenerId) (k : PersonId) : Registration → Bool
  | added .. => false
  | removed m ks => decide (m = l ∧ k ∈ ks)

end Registration

/-- The listener and the originals that two handles stand for, if both are known. -/
def addressed? (past : List Op) (listener : String) (target : Target) : Option (ListenerId × List PersonId) := do
  return (← listenerOf? past listener, ← originals? past target)

/-- What an operation registers, if its handles are known. -/
def registration? (past : List Op) : Op → Option Registration
  | .listen listener target => (addressed? past listener target).map fun (l, ks) => .added l ks
  | .unlisten listener target => (addressed? past listener target).map fun (l, ks) => .removed l ks
  | _ => none

/-- The addings and removals of a session, in order. -/
def registrations : List Op → List Registration
  | [] => []
  | op :: past => registrations past ++ (registration? past op).toList

/-- How often the listener was put on the original since it was last taken off. -/
def addedSince (l : ListenerId) (k : PersonId) (rs : List Registration) : Nat :=
  ((rs.reverse.takeWhile fun r => !r.covers l k).map (·.times l k)).foldr (· + ·) 0

/-- The listeners of an original, in order: each adding counts unless a later removal took it back. -/
def standing (k : PersonId) : List Registration → List ListenerId
  | [] => []
  | .added l ks :: later =>
    (if later.any (·.covers l k) then [] else List.replicate (ks.count k) l) ++ standing k later
  | .removed .. :: later => standing k later

/-! ## The count -/

section Standing

variable (k : PersonId) (rs : List Registration) (l : ListenerId) (ks : List PersonId)

/-- An adding goes to the end. -/
theorem standing_added : standing k (rs ++ [.added l ks]) = standing k rs ++ List.replicate (ks.count k) l := by
  induction rs with
  | nil => exact List.append_nil _
  | cons r rs ih =>
    cases r with
    | added m js =>
      have hany : (rs ++ [Registration.added l ks]).any (·.covers m k) = rs.any (·.covers m k) := by
        rw [List.any_append]
        exact Bool.or_false _
      rw [List.cons_append, standing, hany, ih, standing, List.append_assoc]
    | removed m js => exact ih

/-- A removal takes away all that there is of the listener, if it covers the original. -/
theorem standing_removed :
    standing k (rs ++ [.removed l ks]) = if k ∈ ks then (standing k rs).filter (· != l) else standing k rs := by
  induction rs with
  | nil =>
    split
    · rfl
    · rfl
  | cons r rs ih =>
    cases r with
    | removed m js => exact ih
    | added m js =>
      have hany : (rs ++ [Registration.removed l ks]).any (·.covers m k) =
          (rs.any (·.covers m k) || decide (l = m ∧ k ∈ ks)) := by
        rw [List.any_append, List.any_cons, List.any_nil, Bool.or_false]
        rfl
      rw [List.cons_append, standing, hany, ih, standing]
      by_cases hk : k ∈ ks
      · rw [if_pos hk, if_pos hk, List.filter_append]
        congr 1
        -- What the adding put there stays, unless the removal is one of this listener.
        by_cases hm : l = m
        · simp [hm, hk]
        · have hstays : (List.replicate (js.count k) m).filter (· != l) = List.replicate (js.count k) m := by
            rw [List.filter_replicate, if_pos (bne_iff_ne.mpr (Ne.symm hm))]
          rw [decide_eq_false fun h => hm h.1, Bool.or_false]
          split
          · rfl
          · exact hstays.symm
      · rw [decide_eq_false fun h => hk h.2, Bool.or_false, if_neg hk, if_neg hk]

/-- Taking a listener out takes out all of its entries and no other's. -/
theorem count_filter_ne (as : List ListenerId) (l m : ListenerId) :
    (as.filter (· != m)).count l = if m = l then 0 else as.count l := by
  by_cases h : m = l
  · rw [if_pos h, h]
    exact List.count_eq_zero.mpr fun hmem => bne_iff_ne.mp (List.mem_filter.mp hmem).2 rfl
  · rw [if_neg h]
    exact List.count_filter (p := (· != m)) (bne_iff_ne.mpr (Ne.symm h))

/-- **A listener stands as often as it was added since it was last removed.** -/
theorem count_standing : (standing k rs).count l = addedSince l k rs := by
  -- The induction goes from the latest registration backwards, as the count since the last removal does.
  obtain ⟨rev, rfl⟩ : ∃ rev, rs = rev.reverse := ⟨rs.reverse, (List.reverse_reverse rs).symm⟩
  induction rev with
  | nil => rfl
  | cons r rev ih =>
    rw [addedSince, List.reverse_reverse] at ih ⊢
    rw [List.reverse_cons]
    cases r with
    | added m js =>
      rw [standing_added, List.count_append, ih, List.takeWhile_cons_of_pos rfl, List.map_cons, List.foldr_cons,
        List.count_replicate, Nat.add_comm]
      simp only [Registration.times, beq_iff_eq]
    | removed m js =>
      rw [standing_removed]
      -- A removal that covers the listener ends the count; any other leaves it as it is.
      by_cases hcovers : m = l ∧ k ∈ js
      · rw [if_pos hcovers.2, count_filter_ne, if_pos hcovers.1, List.takeWhile_cons_of_neg]
        · rfl
        · rw [Registration.covers, decide_eq_true hcovers]
          nofun
      · have hcount : (if k ∈ js then (standing k rev.reverse).filter (· != m) else standing k rev.reverse).count l =
            (standing k rev.reverse).count l := by
          split
          · next hk => rw [count_filter_ne, if_neg fun hm => hcovers ⟨hm, hk⟩]
          · rfl
        rw [hcount, ih, List.takeWhile_cons_of_pos, List.map_cons, List.foldr_cons]
        · exact (Nat.zero_add _).symm
        · rw [Registration.covers, decide_eq_false hcovers]
          rfl

end Standing

/-! ## What incidents do to those who listen -/

section Listeners

variable {persons : List Person} {ps ps' : People} {i k : PersonId} {p : Person} {name : Option String}

/-- Those who listen to a person, if there is such a person. -/
def listenersOf (persons : List Person) (k : PersonId) : Option (List ListenerId) :=
  persons[k]?.map Person.listeners

theorem listenersOf_modify {f : Person → Person} {g : List ListenerId → List ListenerId}
    (hf : ∀ p, (f p).listeners = g p.listeners) (persons : List Person) (i k : PersonId) :
    listenersOf (persons.modify i f) k = (listenersOf persons k).map fun ls => if i = k then g ls else ls := by
  rw [listenersOf, listenersOf]
  cases hp : persons[k]? with
  | none =>
    rw [List.getElem?_modify, hp]
    rfl
  | some p =>
    rw [getElem?_modify_of_some hp, Option.map_some, Option.map_some, Option.map_some, ← hf]
    split
    · rfl
    · rfl

/-- Listening to a list of persons adds one entry for each time a person is in it, behind the entries there are. -/
theorem listenersOf_listened (persons : List Person) (k : PersonId) (l : ListenerId) (ks : List PersonId) :
    listenersOf (actAll persons (ks.map (.listened · l))) k =
      (listenersOf persons k).map (· ++ List.replicate (ks.count k) l) := by
  induction ks generalizing persons with
  | nil =>
    show listenersOf persons k = (listenersOf persons k).map (· ++ [])
    simp only [List.append_nil, Option.map_id']
  | cons i ks ih =>
    show listenersOf (actAll (persons.modify i (·.listen l)) (ks.map (.listened · l))) k = _
    rw [ih, listenersOf_modify (g := (· ++ [l])) fun _ => rfl, Option.map_map, List.count_cons]
    congr 1
    funext ls
    by_cases h : i = k
    · simp [h, List.replicate_succ]
    · simp [h]

/-- Ceasing to listen takes all entries of the listener out, also where a person is in the list more than once. -/
theorem listenersOf_unlistened (persons : List Person) (k : PersonId) (l : ListenerId) (ks : List PersonId) :
    listenersOf (actAll persons (ks.map (.unlistened · l))) k =
      (listenersOf persons k).map fun ls => if k ∈ ks then ls.filter (· != l) else ls := by
  induction ks generalizing persons with
  | nil => exact (Option.map_id' (x := listenersOf persons k)).symm
  | cons i ks ih =>
    show listenersOf (actAll (persons.modify i (·.unlisten l)) (ks.map (.unlistened · l))) k = _
    rw [ih, listenersOf_modify (g := (·.filter (· != l))) fun _ => rfl, Option.map_map]
    congr 1
    funext ls
    -- Taking off twice is taking off once.
    by_cases h : i = k
    · simp [h]
    · simp [h, Ne.symm h]

/-- A contact just made has no listeners, and nobody else's change by it. -/
theorem listenersOf_created (persons : List Person) (c : Contact) (k : PersonId) :
    (listenersOf (persons ++ [⟨c, []⟩]) k).getD [] = (listenersOf persons k).getD [] := by
  rw [listenersOf, listenersOf]
  by_cases hk : k < persons.length
  · rw [List.getElem?_append_left hk]
  · rw [List.getElem?_append_right (Nat.le_of_not_lt hk), List.getElem?_eq_none (Nat.le_of_not_lt hk)]
    cases k - persons.length with
    | _ => rfl

/-- A renaming among listeners that ask for nothing registers and removes nobody. -/
theorem listenersOf_resolve_silent {depth : Nat} (h : People.resolve (fun _ => []) depth i name ps = some ps')
    (k : PersonId) : listenersOf ps'.persons k = listenersOf ps.persons k := by
  cases depth with
  | zero => cases h
  | succ depth =>
    cases hp : ps.persons[i]? with
    | none =>
      rw [People.resolve, People.resolveAt, hp] at h
      rw [Option.some.inj h]
    | some p =>
      obtain ⟨ps'', hresolve, hpersons, -⟩ := People.resolve_silent hp depth name
      obtain rfl := Option.some.inj (h.symm.trans hresolve)
      -- A naming writes the name and leaves the listeners alone.
      rw [hpersons, listenersOf_modify (f := (·.rename name)) (g := id) fun _ => rfl]
      simp only [id, ite_self, Option.map_id']

end Listeners

/-! ## Sessions -/

section Sessions

variable {past : List Op} {d : Directory} {k : PersonId} {depth : Nat}

/-- The persons have the listeners that the session registered. -/
def Listened (past : List Op) (d : Directory) : Prop :=
  ∀ k, (listenersOf d.people.persons k).getD [] = standing k (registrations past)

/-- Whom a registration speaks of has been made. -/
theorem lt_of_addressed? {listener : String} {target : Target} {l : ListenerId} {ks : List PersonId}
    (h : addressed? past listener target = some (l, ks)) : ∀ k ∈ ks, k < (creations past).length := by
  simp only [addressed?, Option.bind_eq_bind, Option.bind_eq_some_iff] at h
  obtain ⟨_, -, _, hks, h⟩ := h
  cases h
  exact lt_of_originals? hks

/-- What is done with a listener and originals is done with those that the two handles stand for. -/
theorem map_addressed? {α : Type} (hd : Faithful past d) (listener : String) (target : Target)
    (f : ListenerId → List PersonId → α) :
    ((d.listenerNames.get? listener).bind fun l => (d.members target).bind fun ks => some (f l ks)) =
      (addressed? past listener target).map fun (l, ks) => f l ks := by
  rw [hd.listener_eq, hd.members_eq, addressed?]
  cases listenerOf? past listener with
  | none => rfl
  | some l =>
    cases originals? past target with
    | _ => rfl

/-- Listening is noted once for each member of the target, and refused if a name stands for nothing. -/
theorem step?_listen (hd : Faithful past d) (conduct : Directory → Conduct) (listener : String) (target : Target) :
    d.step? conduct depth (.listen listener target) = (addressed? past listener target).map fun (l, ks) =>
      ({ d with people := d.people.noteAll (ks.map (.listened · l)) }, .done) := map_addressed? hd listener target _

theorem step?_unlisten (hd : Faithful past d) (conduct : Directory → Conduct) (listener : String) (target : Target) :
    d.step? conduct depth (.unlisten listener target) = (addressed? past listener target).map fun (l, ks) =>
      ({ d with people := d.people.noteAll (ks.map (.unlistened · l)) }, .done) := map_addressed? hd listener target _

namespace Listened

/-- What registers nothing and leaves the listeners alone. -/
theorem keep {op : Op} {d' : Directory} (h : Listened past d) (hop : registration? past op = none)
    (hpeople : ∀ k, (listenersOf d'.people.persons k).getD [] = (listenersOf d.people.persons k).getD []) :
    Listened (op :: past) d' := by
  intro k
  rw [registrations, hop, hpeople, h k]
  exact congrArg (standing k) (List.append_nil _).symm

/-- A registration adds to what stands, in the log and among the entries alike. -/
theorem listen (h : Listened past d) (hd : Faithful past d) (depth : Nat) (listener : String) (target : Target) :
    Listened (.listen listener target :: past) (d.stepBy silent depth (.listen listener target)).1 := by
  cases haddressed : addressed? past listener target with
  | none =>
    rw [stepBy_of_none (by rw [step?_listen hd, haddressed]; rfl)]
    exact h.keep (by rw [registration?, haddressed]; rfl) fun _ => rfl
  | some r =>
    obtain ⟨l, ks⟩ := r
    rw [stepBy_of_some (by rw [step?_listen hd, haddressed]; rfl)]
    intro k
    rw [registrations, registration?, haddressed, Option.map_some, Option.toList_some, standing_added, ← h k,
      noteAll_eq]
    show (listenersOf (actAll d.people.persons (ks.map (.listened · l))) k).getD [] = _
    rw [listenersOf_listened]
    cases hk : listenersOf d.people.persons k with
    | some ls => rfl
    | none =>
      -- Nobody is registered on somebody who is not there.
      have hnone : d.people.persons[k]? = none := Option.map_eq_none_iff.mp hk
      have hcount : ks.count k = 0 := by
        rw [List.count_eq_zero]
        intro hmem
        have hlt := lt_of_addressed? haddressed k hmem
        rw [← hd.length_persons] at hlt
        exact Nat.not_le_of_lt hlt (List.getElem?_eq_none_iff.mp hnone)
      rw [hcount]
      rfl

/-- A removal takes from both, and takes all of it. -/
theorem unlisten (h : Listened past d) (hd : Faithful past d) (depth : Nat) (listener : String) (target : Target) :
    Listened (.unlisten listener target :: past) (d.stepBy silent depth (.unlisten listener target)).1 := by
  cases haddressed : addressed? past listener target with
  | none =>
    rw [stepBy_of_none (by rw [step?_unlisten hd, haddressed]; rfl)]
    exact h.keep (by rw [registration?, haddressed]; rfl) fun _ => rfl
  | some r =>
    obtain ⟨l, ks⟩ := r
    rw [stepBy_of_some (by rw [step?_unlisten hd, haddressed]; rfl)]
    intro k
    rw [registrations, registration?, haddressed, Option.map_some, Option.toList_some, standing_removed, ← h k,
      noteAll_eq]
    show (listenersOf (actAll d.people.persons (ks.map (.unlistened · l))) k).getD [] = _
    rw [listenersOf_unlistened]
    cases listenersOf d.people.persons k with
    | some ls => rfl
    | none => exact (ite_self _).symm

/-- **What stands of the registrations is what the entries say**, operation by operation. -/
theorem step (h : Listened past d) (hd : Faithful past d) (depth : Nat) (op : Op) :
    Listened (op :: past) (d.stepBy silent depth op).1 := by
  cases op with
  | create as number name => exact h.keep rfl (listenersOf_created d.people.persons ⟨number, name⟩)
  | resolve contact name =>
    refine stepBy_cases (fun _ => h.keep rfl fun _ => rfl) fun d' a hstep => ?_
    simp only [step?, Option.bind_eq_bind, Option.bind_eq_some_iff] at hstep
    obtain ⟨i, -, people, hpeople, hstep⟩ := hstep
    cases hstep
    exact h.keep rfl fun k => by rw [listenersOf_resolve_silent hpeople]
  | listen listener target => exact h.listen hd depth listener target
  | unlisten listener target => exact h.unlisten hd depth listener target
  | _ => exact h.keep rfl fun k => by rw [(follows_stepBy silent depth d _).people_eq rfl]

end Listened

/-- So it is after a whole session. -/
theorem listened_after (depth : Nat) (past : List Op) : Listened past (after silent depth past) := by
  induction past with
  | nil => exact fun _ => rfl
  | cons op past ih => exact ih.step (faithful_after silent depth past) depth op

/-- A renaming through the handle calls these listeners of the original, in this order and nobody else, and each sees
the new name. -/
def Calls (conduct : Directory → Conduct) (depth : Nat) (past : List Op) (contact : String) (k : PersonId)
    (told : List ListenerId) : Prop :=
  ∀ name, let d := after conduct (depth + 1) past
    ∃ c people, (creations past)[k]? = some c ∧
      d.stepBy conduct (depth + 1) (.resolve contact name) =
        ({ d with people }, .called (told.map fun l => (d.listenerName l, ⟨c.number, name⟩))) ∧
      people.log = d.people.log ++ .named k name told 0 :: told.map (.called k · ⟨c.number, name⟩ 0)

/-- And a renaming calls just those who stand, each as often and in the order in which it registered. -/
theorem calls_standing (depth : Nat) {contact : String} (hk : originals? past (.contact contact) = some [k]) :
    Calls silent depth past contact k (standing k (registrations past)) := by
  intro name d
  have hd : Faithful past d := faithful_after silent (depth + 1) past
  obtain ⟨p, hp, hshown⟩ := hd.person (lt_of_originals? hk k (List.mem_singleton_self k))
  obtain ⟨c, hc, hcontact⟩ := Option.map_eq_some_iff.mp hshown
  have hnumber : p.contact.number = c.number := by
    rw [← hcontact]
    rfl
  have htold : p.listeners = standing k (registrations past) := by
    have hlistened := listened_after (depth + 1) past k
    rw [listenersOf, hp] at hlistened
    exact hlistened
  -- Listeners that ask for nothing are called one after another, in the order of their registration.
  obtain ⟨people, hpeople, -, hlog⟩ := People.resolve_silent hp depth name
  rw [hnumber, htold] at hlog
  refine ⟨c, people, hc, stepBy_of_some ?_, hlog⟩
  -- The reply tells of the calls by name, each with the contact as it is now.
  have hcalled : (people.since d.people).filterMap d.call? =
      (standing k (registrations past)).map fun l => (d.listenerName l, ⟨c.number, name⟩) := by
    rw [People.since, hlog, List.drop_left, List.filterMap_cons_none rfl, List.filterMap_map]
    exact congrFun (List.filterMap_eq_map (f := fun l => (d.listenerName l, _))) _
  have hdone : People.resolve (silent d) (depth + 1) k name d.people = some people := hpeople
  rw [← hcalled]
  simp only [step?, hd.contactName hk, Option.bind_eq_bind, Option.bind_some, hdone]
  rfl

/-- Quiet listeners are called as those are that ask for nothing. -/
theorem Calls.asks {depth : Nat} {contact : String} {told : List ListenerId}
    (h : Calls silent depth past contact k told) (hquiet : ∀ x ∈ introduced past, x.reaction = .quiet) :
    Calls asks depth past contact k told := by
  intro name
  obtain ⟨c, people, hc, hcalls, hlog⟩ := h name
  rw [← stepBy_congr (asks_after_of_quiet (depth + 1) hquiet), ← after_asks_of_quiet (depth + 1) hquiet] at hcalls
  rw [← after_asks_of_quiet (depth + 1) hquiet] at hlog
  exact ⟨c, people, hc, hcalls, hlog⟩

/-- **Listeners are called as often as they were put on, and no more once they are taken off.** A renaming through any
handle of an original calls just those who stand on it, in the order of their registration; each as often as the
original was in what it was put on, since it was last taken off anything that the original was in. So one
removal takes away all of it, and what the original is not in has no say, whatever the numbers are. -/
theorem calls_of_registrations (depth : Nat) {contact : String} (hk : originals? past (.contact contact) = some [k]) :
    let told := standing k (registrations past)
    Calls silent depth past contact k told ∧
    ((∀ x ∈ introduced past, x.reaction = .quiet) → Calls asks depth past contact k told) ∧
    (∀ l, told.count l = addedSince l k (registrations past)) ∧
    ∀ listener target l ks, addressed? past listener target = some (l, ks) →
      (k ∈ ks → Calls silent depth (.unlisten listener target :: past) contact k (told.filter (· != l))) ∧
      (k ∉ ks → Calls silent depth (.unlisten listener target :: past) contact k told ∧
        Calls silent depth (.listen listener target :: past) contact k told) := by
  intro told
  have hcalls : Calls silent depth past contact k told := calls_standing depth hk
  refine ⟨hcalls, hcalls.asks, (count_standing k (registrations past) ·), fun listener target l ks h => ?_⟩
  have hunlisten : Calls silent depth (.unlisten listener target :: past) contact k _ := calls_standing depth hk
  have hlisten : Calls silent depth (.listen listener target :: past) contact k _ := calls_standing depth hk
  have hremoved : registration? past (.unlisten listener target) = some (.removed l ks) := by
    rw [registration?, h, Option.map_some]
  have hadded : registration? past (.listen listener target) = some (.added l ks) := by
    rw [registration?, h, Option.map_some]
  -- The last registration is the one in question, so the standing ones are those of before with it applied.
  rw [registrations, hremoved, Option.toList_some, standing_removed] at hunlisten
  rw [registrations, hadded, Option.toList_some, standing_added] at hlisten
  refine ⟨fun hmem => ?_, fun hmem => ⟨?_, ?_⟩⟩
  · rwa [if_pos hmem] at hunlisten
  · rwa [if_neg hmem] at hunlisten
  · rwa [List.count_eq_zero.mpr hmem, List.replicate_zero, List.append_nil] at hlisten

/-- The first of two contacts of one number is put into a group twice; it is listened to in the group and through a
copy. -/
theorem calls_of_registrations_group :
    let past : List Op := [.listen "x" (.contact "copy"), .copy "a" "copy", .listen "x" (.group "all"),
      .group "all" ["a", "b", "a"], .listener "x" .quiet, .create "b" "1" none, .create "a" "1" none]
    originals? past (.contact "copy") = some [0] ∧ addedSince 0 0 (registrations past) = 3 ∧
    Calls asks 0 past "copy" 0 [0, 0, 0] ∧ Calls silent 0 (.unlisten "x" (.contact "a") :: past) "copy" 0 [] ∧
    Calls silent 0 (.unlisten "x" (.contact "b") :: past) "copy" 0 [0, 0, 0] := by
  intro past
  have hk : originals? past (.contact "copy") = some [0] := rfl
  obtain ⟨-, hquiet, hcount, hnext⟩ := calls_of_registrations 0 hk
  refine ⟨hk, ?_, hquiet ?_, ?_, ?_⟩
  · rw [← hcount]
    rfl
  · intro x hx
    rw [List.mem_singleton.mp (hx : x ∈ [⟨"x", .quiet⟩])]
  · exact (hnext "x" (.contact "a") 0 [0] rfl).1 (by decide)
  · exact ((hnext "x" (.contact "b") 0 [1] rfl).2 (by decide)).1

end Sessions

end Directory

end TextVault
