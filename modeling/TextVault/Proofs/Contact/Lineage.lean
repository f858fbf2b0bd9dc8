import TextVault.Contact.Directory
import TextVault.Proofs.Contact.Resolving

/-
  Which originals the handles stand for.

  Problem: contacts are copied, put into groups, taken out of them, and groups are copied and joined. Every
  handle stands for contacts that were made once, whatever it is called and however it was come by.

  Program: a session is a list of operations, latest first, and `after` is what it leaves. `creations` are the
  contacts that it makes, each known by its place. An operation gives at most one handle (`Op.gives?`), and a
  handle stands for what it was last given (`originals?`). None of these looks at a directory.

  Spec: the directory goes by them (`Faithful`): its handles stand for those originals, its persons are the
  creations, and its log tells what became of them. A step does what its operation says (`follows_stepBy`)
  and so keeps that (`Faithful.step`); every session does (`faithful_after`).
-/
namespace TextVault

namespace Directory

/-! ## Sessions -/

/-- The contact that an operation makes. -/
def Op.created? : Op → Option Contact
  | create _ number name => some ⟨number, name⟩
  | _ => none

/-- The listener that an operation brings in. -/
def Op.listener? : Op → Option Listener
  | listener as reaction => some ⟨as, reaction⟩
  | _ => none

/-- The handle that an operation gives, with the originals it stands for: by what the handles stood for before,
and by how many contacts there were. -/
def Op.gives? (before : Target → Option (List PersonId)) (count : Nat) : Op → Option (Target × List PersonId)
  | create as _ _ => some (.contact as, [count])
  | copy source as => do
    return (.contact as, ← before (.contact source))
  | member g place as => do
    let ks ← before (.group g)
    return (.contact as, [← ks[place]?])
  | group as of => do
    return (.group as, ← of.mapM fun name => (before (.contact name)).bind List.head?)
  | copyGroup source as => do
    return (.group as, ← before (.group source))
  | append g other => do
    return (.group g, (← before (.group g)) ++ (← before (.group other)))
  | _ => none

/-- A handle given anew stands for what it is given, the others for what they did. -/
def rebind (before : Target → Option (List PersonId)) (given? : Option (Target × List PersonId)) (t : Target) :
    Option (List PersonId) :=
  match given? with
  | some (given, ks) => if t = given then some ks else before t
  | none => before t

/-- The contacts made so far, in order. -/
def creations : List Op → List Contact
  | [] => []
  | op :: past => creations past ++ op.created?.toList

/-- The originals that a handle stands for. -/
def originals? : List Op → Target → Option (List PersonId)
  | [] => fun _ => none
  | op :: past => rebind (originals? past) (op.gives? (originals? past) (creations past).length)

/-- The listeners brought in so far, in order. -/
def introduced : List Op → List Listener
  | [] => []
  | op :: past => introduced past ++ op.listener?.toList

/-- The listener of a name: the last one that was brought in under it. -/
def listenerOf? : List Op → String → Option ListenerId
  | [], _ => none
  | op :: past, name =>
    if op.listener?.map Listener.name = some name then some (introduced past).length else listenerOf? past name

/-- The directory that a session leaves; the last operation comes first. -/
def after (conduct : Directory → Conduct) (depth : Nat) : List Op → Directory
  | [] => {}
  | op :: past => ((after conduct depth past).stepBy conduct depth op).1

/-! ## Steps -/

/-- What happens to the persons is noted as it happens: an operation that makes a contact makes just that one, and
only a renaming names anybody. -/
def Op.Notes (op : Op) (ps ps' : People) : Prop :=
  ∃ es, Grows ps es ps' ∧ es.filterMap Incident.created? = op.created?.toList ∧
    ((∀ contact name, op ≠ .resolve contact name) → ∀ e ∈ es, ∀ i, e.naming? i = none)

/-- Whether an operation does something to the persons. -/
def Op.isPersonal : Op → Bool
  | create .. | resolve .. | listen .. | unlisten .. => true
  | _ => false

/-- `Follows op d d'`: the operation leads from `d` to `d'`. The handle that it gives is given, the listener that it
brings in is brought in, and what happens to the persons, if anything does, is noted. -/
structure Follows (op : Op) (d d' : Directory) : Prop where
  members_eq : ∀ t, d'.members t = rebind d.members (op.gives? d.members d.people.persons.length) t
  people_eq : op.isPersonal = false → d'.people = d.people
  notes : op.Notes d.people d'.people
  listeners_eq : d'.listeners = d.listeners ++ op.listener?.toList
  listener_eq : ∀ name, d'.listenerNames.get? name =
    if op.listener?.map Listener.name = some name then some d.listeners.length else d.listenerNames.get? name

section Steps

variable {conduct : Directory → Conduct} {depth : Nat} {d d' : Directory} {op : Op} {a : Answer}

theorem stepBy_of_some (h : d.step? conduct depth op = some (d', a)) : d.stepBy conduct depth op = (d', a) := by
  rw [stepBy, h, Option.getD_some]

/-- One that cannot be done is refused and changes nothing. -/
theorem stepBy_of_none (h : d.step? conduct depth op = none) : d.stepBy conduct depth op = (d, .refused) := by
  rw [stepBy, h, Option.getD_none]

/-- What an operation leaves, said of a refusal and of an answer. -/
theorem stepBy_cases {P : Directory → Prop} (hrefused : d.step? conduct depth op = none → P d)
    (hdone : ∀ d' a, d.step? conduct depth op = some (d', a) → P d') : P (d.stepBy conduct depth op).1 := by
  cases h : d.step? conduct depth op with
  | none =>
    rw [stepBy_of_none h]
    exact hrefused h
  | some r =>
    rw [stepBy_of_some h]
    exact hdone r.1 r.2 h

theorem notes_refl {ps : People} (h : op.created? = none) : op.Notes ps ps :=
  ⟨[], .refl ps, by rw [h]; rfl, fun _ => nofun⟩

/-- Incidents that only change who listens can be noted at any time. -/
theorem notes_noteAll {incident : PersonId → Incident} (hop : op.created? = none)
    (h : ∀ i, ∃ l, incident i = .listened i l ∨ incident i = .unlistened i l) (ids : List PersonId) (ps : People) :
    op.Notes ps (ps.noteAll (ids.map incident)) := by
  -- No such incident says anything about who there is or what it is called, so it fits any persons.
  have hall : ∀ e ∈ ids.map incident,
      (∀ persons, e.Fits persons) ∧ e.created? = none ∧ ∀ i, e.naming? i = none := by
    intro e he
    obtain ⟨i, -, rfl⟩ := List.mem_map.mp he
    obtain ⟨l, h | h⟩ := h i
    · rw [h]
      exact ⟨fun _ => trivial, rfl, fun _ => rfl⟩
    · rw [h]
      exact ⟨fun _ => trivial, rfl, fun _ => rfl⟩
  refine ⟨ids.map incident, .noteAll (fun e he => (hall e he).1) ps, ?_, fun _ e he => (hall e he).2.2⟩
  rw [hop]
  exact List.filterMap_eq_nil_iff.mpr fun e he => (hall e he).2.1

/-- **What a renaming notes are namings, calls and what listeners do**, but nobody is made. -/
theorem notes_resolve {k : PersonId} {name : Option String} {ps ps' : People} {c : Conduct} {contact : String}
    (h : People.resolve c depth k name ps = some ps') : (Op.resolve contact name).Notes ps ps' := by
  rcases People.renames_of_resolveAt h with ⟨-, rfl⟩ | ⟨p, es, hp, htells⟩
  · exact notes_refl rfl
  · refine ⟨_, (Grows.named hp name 0).trans htells.grows, ?_, fun hop => absurd rfl (hop contact name)⟩
    exact List.filterMap_eq_nil_iff.mpr (List.forall_mem_cons.mpr ⟨rfl, htells.created?_eq_none⟩)

/-- A new name of a contact stands for its person, and every other name for whom it stood for. -/
theorem members_setContact (d : Directory) (people : People) (as : String) (i : PersonId) (t : Target) :
    ({ d with people, contactNames := d.contactNames.set as i } : Directory).members t =
      rebind d.members (some (.contact as, [i])) t := by
  cases t with
  | contact name =>
    rw [members, Named.get?_set, rebind]
    by_cases h : name = as
    · rw [if_pos h, if_pos (congrArg Target.contact h), Option.map_some]
    · rw [if_neg h, if_neg fun heq => h (Target.contact.inj heq), members]
  | group name => rfl

theorem members_setGroup (d : Directory) (as : String) (ids : List PersonId) (t : Target) :
    ({ d with groupNames := d.groupNames.set as ids } : Directory).members t =
      rebind d.members (some (.group as, ids)) t := by
  cases t with
  | contact name => rfl
  | group name =>
    rw [members, Named.get?_set, rebind]
    by_cases h : name = as
    · rw [if_pos h, if_pos (congrArg Target.group h)]
    · rw [if_neg h, if_neg fun heq => h (Target.group.inj heq), members]

/-- A contact is a target with one member, which can be had back from it. -/
theorem head?_members (d : Directory) (name : String) :
    (d.members (.contact name)).bind List.head? = d.contactNames.get? name := by
  rw [members]
  cases d.contactNames.get? name with
  | _ => rfl

namespace Follows

/-- An operation that brings in nobody leaves the listeners alone. -/
theorem of_listeners (hop : op.listener? = none)
    (hmembers : ∀ t, d'.members t = rebind d.members (op.gives? d.members d.people.persons.length) t)
    (hpeople : op.isPersonal = false → d'.people = d.people) (hnotes : op.Notes d.people d'.people)
    (hlisteners : d'.listeners = d.listeners) (hnames : d'.listenerNames = d.listenerNames) : Follows op d d' where
  members_eq := hmembers
  people_eq := hpeople
  notes := hnotes
  listeners_eq := by
    rw [hop, hlisteners]
    exact (List.append_nil _).symm
  listener_eq name := by rw [hop, Option.map_none, if_neg nofun, hnames]

/-- An operation that is refused, or that only gives an answer. -/
theorem refl (hop : op.listener? = none ∧ op.created? = none)
    (hgives : op.gives? d.members d.people.persons.length = none) : Follows op d d :=
  of_listeners hop.1 (fun t => by rw [hgives]; rfl) (fun _ => rfl) (notes_refl hop.2) rfl rfl

/-- An operation that does something to the persons and gives no handle. -/
theorem people {people : People} (hop : op.listener? = none ∧ op.isPersonal = true) (hnotes : op.Notes d.people people)
    (hgives : op.gives? d.members d.people.persons.length = none) : Follows op d { d with people } :=
  of_listeners hop.1 (fun t => by rw [hgives]; cases t with | _ => rfl) (fun h => absurd h (by rw [hop.2]; nofun))
    hnotes rfl rfl

/-- An operation that gives a handle for a contact, if there is one to give. -/
theorem setContact (as : String) (i? : Option PersonId) (hop : op.listener? = none ∧ op.created? = none)
    (hstep : d.step? conduct depth op =
      i?.map fun i => ({ d with contactNames := d.contactNames.set as i }, .done))
    (hgives : op.gives? d.members d.people.persons.length = i?.map fun i => (.contact as, [i])) :
    Follows op d (d.stepBy conduct depth op).1 := by
  cases i? with
  | none =>
    rw [stepBy_of_none hstep]
    exact .refl hop hgives
  | some i =>
    rw [stepBy_of_some hstep]
    refine of_listeners hop.1 (fun t => ?_) (fun _ => rfl) (notes_refl hop.2) rfl rfl
    rw [hgives]
    exact members_setContact d d.people as i t

/-- An operation that gives a handle for a group, if there is one to give. -/
theorem setGroup (as : String) (ids? : Option (List PersonId)) (hop : op.listener? = none ∧ op.created? = none)
    (hstep : d.step? conduct depth op =
      ids?.map fun ids => ({ d with groupNames := d.groupNames.set as ids }, .done))
    (hgives : op.gives? d.members d.people.persons.length = ids?.map fun ids => (.group as, ids)) :
    Follows op d (d.stepBy conduct depth op).1 := by
  cases ids? with
  | none =>
    rw [stepBy_of_none hstep]
    exact .refl hop hgives
  | some ids =>
    rw [stepBy_of_some hstep]
    refine of_listeners hop.1 (fun t => ?_) (fun _ => rfl) (notes_refl hop.2) rfl rfl
    rw [hgives]
    exact members_setGroup d as ids t

end Follows

/-- **A step does what its operation says.** -/
theorem follows_stepBy (conduct : Directory → Conduct) (depth : Nat) (d : Directory) (op : Op) :
    Follows op d (d.stepBy conduct depth op).1 := by
  cases op with
  -- What names a contact or a group goes by what the sources of the name stand for, so there one lemma per kind of
  -- name is enough.
  | create as number name =>
    refine .of_listeners rfl (members_setContact d _ as d.people.persons.length) nofun ?_ rfl rfl
    refine ⟨[.created ⟨number, name⟩], .note trivial, rfl, fun _ => ?_⟩
    exact List.forall_mem_cons.mpr ⟨fun _ => rfl, nofun⟩
  | copy source as =>
    refine .setContact as (d.contactNames.get? source) ⟨rfl, rfl⟩ Option.map_eq_bind.symm ?_
    rw [Op.gives?, members]
    cases d.contactNames.get? source with
    | _ => rfl
  | member g place as =>
    refine .setContact as ((d.groupNames.get? g).bind (·[place]?)) ⟨rfl, rfl⟩ ?_ ?_
    · rw [Option.map_eq_bind, Option.bind_assoc]
      rfl
    · rw [Option.map_eq_bind, Option.bind_assoc]
      rfl
  | group as names =>
    have hnames : (fun name => (d.members (.contact name)).bind List.head?) = d.contactNames.get? :=
      funext d.head?_members
    refine .setGroup as (names.mapM d.contactNames.get?) ⟨rfl, rfl⟩ Option.map_eq_bind.symm ?_
    rw [Op.gives?, hnames]
    exact Option.map_eq_bind.symm
  | copyGroup source as =>
    exact .setGroup as (d.groupNames.get? source) ⟨rfl, rfl⟩ Option.map_eq_bind.symm Option.map_eq_bind.symm
  | append g other =>
    refine .setGroup g ((d.groupNames.get? g).bind fun ids => (d.groupNames.get? other).map (ids ++ ·)) ⟨rfl, rfl⟩
      ?_ ?_
    · simp only [Option.map_eq_bind, Option.bind_assoc]
      rfl
    · simp only [Option.map_eq_bind, Option.bind_assoc]
      rfl
  -- A listener is nobody's contact, so all targets stay; the number of the new one is how many there were.
  | listener as reaction =>
    refine ⟨fun t => ?_, fun _ => rfl, notes_refl rfl, rfl, fun name => ?_⟩
    · cases t with
      | _ => rfl
    · show (d.listenerNames.set as d.listeners.length).get? name = if some as = some name then _ else _
      rw [Named.get?_set]
      by_cases h : name = as
      · rw [if_pos h, if_pos (congrArg some h.symm)]
      · rw [if_neg h, if_neg fun heq => h (Option.some.inj heq).symm]
  -- What is refused leaves the directory as it is, so from here on only the other case has something to show.
  | resolve contact name =>
    refine stepBy_cases (fun _ => .refl ⟨rfl, rfl⟩ rfl) fun d' a h => ?_
    simp only [step?, Option.bind_eq_bind, Option.bind_eq_some_iff] at h
    obtain ⟨_, -, people, hpeople, h⟩ := h
    cases h
    exact .people ⟨rfl, rfl⟩ (notes_resolve hpeople) rfl
  | listen listener target =>
    refine stepBy_cases (fun _ => .refl ⟨rfl, rfl⟩ rfl) fun d' a h => ?_
    simp only [step?, Option.bind_eq_bind, Option.bind_eq_some_iff] at h
    obtain ⟨l, -, ids, -, h⟩ := h
    cases h
    exact .people ⟨rfl, rfl⟩ (notes_noteAll rfl (fun _ => ⟨l, .inl rfl⟩) ids d.people) rfl
  | unlisten listener target =>
    refine stepBy_cases (fun _ => .refl ⟨rfl, rfl⟩ rfl) fun d' a h => ?_
    simp only [step?, Option.bind_eq_bind, Option.bind_eq_some_iff] at h
    obtain ⟨l, -, ids, -, h⟩ := h
    cases h
    exact .people ⟨rfl, rfl⟩ (notes_noteAll rfl (fun _ => ⟨l, .inr rfl⟩) ids d.people) rfl
  -- Answers leave no trace.
  | look | lookGroup =>
    refine stepBy_cases (fun _ => .refl ⟨rfl, rfl⟩ rfl) fun d' a h => ?_
    simp only [step?, Option.bind_eq_bind, Option.bind_eq_some_iff] at h
    obtain ⟨_, -, h⟩ := h
    cases h
    exact .refl ⟨rfl, rfl⟩ rfl
  | same | sameGroup =>
    refine stepBy_cases (fun _ => .refl ⟨rfl, rfl⟩ rfl) fun d' a h => ?_
    simp only [step?, Option.bind_eq_bind, Option.bind_eq_some_iff] at h
    obtain ⟨_, -, _, -, h⟩ := h
    cases h
    exact .refl ⟨rfl, rfl⟩ rfl

end Steps

/-! ## Sessions -/

/-- The handles stand for their originals, which are the contacts that the session made, and the log tells all that
became of those. -/
structure Faithful (past : List Op) (d : Directory) : Prop where
  members_eq : d.members = originals? past
  grows : Grows {} d.people.log d.people
  created_eq : d.people.log.filterMap Incident.created? = creations past
  listeners_eq : d.listeners = introduced past
  listener_eq : d.listenerNames.get? = listenerOf? past

namespace Faithful

variable {past : List Op} {op : Op} {d d' : Directory}

/-- There are as many persons as the session has made contacts. -/
theorem length_persons (h : Faithful past d) : d.people.persons.length = (creations past).length := by
  rw [h.grows.persons_eq, length_actAll, h.created_eq]
  exact Nat.zero_add _

/-- **Every operation keeps to the originals**: what the directory gains is what the session says of them. -/
theorem step (h : Faithful past d) (hstep : Follows op d d') : Faithful (op :: past) d' := by
  obtain ⟨es, hgrows, hcreated, -⟩ := hstep.notes
  refine ⟨funext fun t => ?_, ?_, ?_, ?_, funext fun name => ?_⟩
  · rw [hstep.members_eq, h.length_persons, h.members_eq]
    rfl
  · -- The log grows by what the operation notes, and this is truthful of the persons that the log has led to.
    rw [hgrows.log_eq]
    exact h.grows.trans hgrows
  · rw [hgrows.log_eq, List.filterMap_append, h.created_eq, hcreated]
    rfl
  · rw [hstep.listeners_eq, h.listeners_eq]
    rfl
  · rw [hstep.listener_eq, h.listeners_eq, h.listener_eq]
    rfl

end Faithful

/-- **Whatever a session does, and whatever the listeners do meanwhile**, the handles stand for their originals. -/
theorem faithful_after (conduct : Directory → Conduct) (depth : Nat) (past : List Op) :
    Faithful past (after conduct depth past) := by
  induction past with
  | nil => exact ⟨funext fun t => by cases t with | _ => rfl, .refl {}, rfl, rfl, rfl⟩
  | cons op past ih => exact ih.step (follows_stepBy conduct depth _ op)

/-! ## Originals -/

/-- What such a list holds comes from one of the elements. -/
theorem exists_of_mem_mapM {α β : Type} {f : α → Option β} {as : List α} {bs : List β} {b : β}
    (h : as.mapM f = some bs) (hb : b ∈ bs) : ∃ a, f a = some b := by
  induction as generalizing bs with
  | nil =>
    obtain rfl := Option.some.inj h
    cases hb
  | cons a as ih =>
    simp only [List.mapM_cons, Option.bind_eq_bind, Option.bind_eq_some_iff] at h
    obtain ⟨first, hfirst, rest, hrest, h⟩ := h
    obtain rfl := Option.some.inj h
    rcases List.mem_cons.mp hb with rfl | hb
    · exact ⟨a, hfirst⟩
    · exact ih hrest hb

/-- What an operation gives a name was there before or is made by it, so the originals that are spoken of exist. -/
theorem lt_of_gives? {before : Target → Option (List PersonId)} {count : Nat} {op : Op} {t : Target}
    {ks : List PersonId} (hbefore : ∀ t ks, before t = some ks → ∀ k ∈ ks, k < count)
    (h : op.gives? before count = some (t, ks)) : ∀ k ∈ ks, k < count + op.created?.toList.length := by
  intro k hk
  cases op with
  | create as number name =>
    cases h
    rw [List.mem_singleton.mp hk]
    exact Nat.lt_succ_self count
  -- All other operations hand on what some name stood for before.
  | copy source as | copyGroup source as =>
    simp only [Op.gives?, Option.bind_eq_bind, Option.bind_eq_some_iff] at h
    obtain ⟨ks', hks', h⟩ := h
    cases h
    exact hbefore _ _ hks' k hk
  | member g place as =>
    simp only [Op.gives?, Option.bind_eq_bind, Option.bind_eq_some_iff] at h
    obtain ⟨ks', hks', i, hi, h⟩ := h
    cases h
    rw [List.mem_singleton.mp hk]
    exact hbefore _ _ hks' i (List.mem_of_getElem? hi)
  | group as names =>
    simp only [Op.gives?, Option.bind_eq_bind, Option.bind_eq_some_iff] at h
    obtain ⟨ks', hks', h⟩ := h
    cases h
    obtain ⟨name, hname⟩ := exists_of_mem_mapM hks' hk
    obtain ⟨named, hnamed, hhead⟩ := Option.bind_eq_some_iff.mp hname
    exact hbefore _ _ hnamed k (List.mem_of_head? hhead)
  | append g other =>
    simp only [Op.gives?, Option.bind_eq_bind, Option.bind_eq_some_iff] at h
    obtain ⟨ks', hks', more, hmore, h⟩ := h
    cases h
    rcases List.mem_append.mp hk with hk | hk
    · exact hbefore _ _ hks' k hk
    · exact hbefore _ _ hmore k hk
  | _ => cases h

/-- A name stands for what it was given just now, or for what it stood for before. -/
theorem of_rebind {before : Target → Option (List PersonId)} {given? : Option (Target × List PersonId)} {t : Target}
    {ks : List PersonId} (h : rebind before given? t = some ks) : given? = some (t, ks) ∨ before t = some ks := by
  unfold rebind at h
  split at h
  · split at h
    · next ht =>
      rw [ht, Option.some.inj h]
      exact .inl rfl
    · exact .inr h
  · exact .inr h

/-- **Handles stand only for contacts that were made.** -/
theorem lt_of_originals? {past : List Op} {t : Target} {ks : List PersonId} (h : originals? past t = some ks) :
    ∀ k ∈ ks, k < (creations past).length := by
  induction past generalizing t ks with
  | nil => cases h
  | cons op past ih =>
    rw [creations, List.length_append]
    rcases of_rebind h with h | h
    · exact lt_of_gives? (fun _ _ => ih) h
    · exact fun k hk => Nat.lt_add_right _ (ih h k hk)

end Directory

end TextVault
