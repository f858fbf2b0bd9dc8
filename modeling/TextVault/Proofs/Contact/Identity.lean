import TextVault.Proofs.Contact.Levels

/-
  A contact is one and the same in all its copies.

  Problem: equality of contacts goes by numbers, sharing of names by originals. Two contacts with one number may
  have different names, and a copy in a group that was copied long ago still has to show what is looked up now.

  Program: `Identity` is what the answers of a directory are after a session: those to a look come from the
  contact as it was made and from what the log tells of its original, those to a comparison from the numbers
  alone. `NamedAs` is what a renaming leaves.

  Spec: that is so after every session (`identity_after`), as the handles stand for their originals
  (`Faithful`) and the log gives the contact of every original (`Faithful.contact`). A renaming that can come to
  an end does so with levels enough (`exists_levels_of_renames`), and what it leaves is shown by all handles of
  the original (`Faithful.namedAs`).
-/
namespace TextVault

/-- Groups are compared by their numbers, one by one. -/
theorem Group.same_eq (g h : Group) : g.same h = decide (g.map Contact.number = h.map Contact.number) := by
  induction g generalizing h with
  | nil =>
    cases h with
    | _ => simp [Group.same]
  | cons a g ih =>
    cases h with
    | nil => simp [Group.same]
    | cons b h =>
      rw [Group.same, Contact.same, ih]
      simp [Bool.beq_eq_decide_eq]

namespace Directory

/-- An original as the session made it, with the name that it was last given. -/
def shown (past : List Op) (log : List Incident) (k : PersonId) : Option Contact :=
  (creations past)[k]?.map (·.named k log)

/-- The numbers of the contacts that a handle stands for. -/
def numbers? (past : List Op) (t : Target) : Option (List (Option String)) :=
  (originals? past t).map (·.map fun k => (creations past)[k]?.map Contact.number)

/-- Whether two handles stand for contacts of the same numbers. -/
def sameNumbers (past : List Op) (t u : Target) : Answer :=
  match numbers? past t, numbers? past u with
  | some ms, some ns => .truth (decide (ms = ns))
  | _, _ => .refused

/-- What is left when an original has been named: the naming is noted for those who listen, they are told and do what
they ask for, and all handles of the original show the name, unless a listener renames it again, and no other handle
does. -/
def NamedAs (conduct : Directory → Conduct) (past : List Op) (d : Directory) (k : PersonId) (name : Option String)
    (d' : Directory) : Prop :=
  ∃ (p : Person) (inner : List Incident), d.people.persons[k]? = some p ∧
    d'.people.log = d.people.log ++ .named k name p.listeners 0 :: inner ∧
    Tells (conduct d) 0 k [] p.listeners (d.people.note (.named k name p.listeners 0)) inner d'.people ∧
    ∀ depth other j, originals? past (.contact other) = some [j] → ∃ c : Contact,
      d.stepBy conduct depth (.look other) = (d, .contact c) ∧
      d'.stepBy conduct depth (.look other) =
        (d', .contact ((if j = k then { c with name } else c).named j inner))

/-- What the handles show and how they compare after a session, whatever its listeners did and however many levels of
renaming are allowed from then on. -/
structure Identity (conduct : Directory → Conduct) (past : List Op) (d : Directory) : Prop where
  /-- All originals are contacts that the session made, so that the next one made is none of them. -/
  made : ∀ t ks, originals? past t = some ks → ∀ k ∈ ks, k < (creations past).length
  /-- A contact is shown as it was made, with the name that its original was last given. -/
  look_eq : ∀ depth name k, originals? past (.contact name) = some [k] → ∃ c,
    d.stepBy conduct depth (.look name) = (d, .contact c) ∧ shown past d.people.log k = some c
  /-- So is every member of a group. -/
  lookGroup_eq : ∀ depth name ks, originals? past (.group name) = some ks → ∃ g : Group,
    d.stepBy conduct depth (.lookGroup name) = (d, .group g) ∧ ks.map (shown past d.people.log) = g.map some
  /-- Inside of the listeners it is the same, with the name of that moment. -/
  seen_eq : ∀ before e after k seen, d.people.log = before ++ e :: after → e.seen? k = some seen →
    shown past before k = some seen
  /-- Contacts are the same if their numbers are. -/
  same_eq : ∀ depth a b,
    d.stepBy conduct depth (.same a b) = (d, sameNumbers past (.contact a) (.contact b))
  /-- Groups are the same if their numbers are, one by one. -/
  sameGroup_eq : ∀ depth a b,
    d.stepBy conduct depth (.sameGroup a b) = (d, sameNumbers past (.group a) (.group b))
  /-- A renaming does its work, or has not come to an end within the levels allowed. -/
  resolve_eq : ∀ depth contact name k, originals? past (.contact contact) = some [k] →
    let r := d.stepBy conduct depth (.resolve contact name)
    (r = (d, .refused) ∧ People.resolve (conduct d) depth k name d.people = none) ∨
      NamedAs conduct past d k name r.1
  /-- Whatever the listeners ask for, a renaming that can come to an end does so, with levels enough. -/
  resolves : ∀ contact name k, originals? past (.contact contact) = some [k] →
    ∃ p, d.people.persons[k]? = some p ∧ ∀ inner people,
      Tells (conduct d) 0 k [] p.listeners (d.people.note (.named k name p.listeners 0)) inner people →
      ∃ enough, ∀ more, d.stepBy conduct (enough + more) (.resolve contact name) =
        ({ d with people }, .called ((people.since d.people).filterMap d.call?))
  /-- Among listeners that ask for nothing one level is enough, and then all handles of the original show the name, and
  no other handle does. -/
  resolves_silent : conduct d = silent d → ∀ depth contact name k, originals? past (.contact contact) = some [k] →
    let r := d.stepBy conduct (depth + 1) (.resolve contact name)
    r.2 ≠ .refused ∧ ∀ depth other j, originals? past (.contact other) = some [j] → ∃ c : Contact,
      d.stepBy conduct depth (.look other) = (d, .contact c) ∧
      r.1.stepBy conduct depth (.look other) = (r.1, .contact (if j = k then { c with name } else c))
  /-- No renaming changes an answer about equality. -/
  resolve_same : ∀ depth contact name, let d' := (d.stepBy conduct depth (.resolve contact name)).1
    ∀ a b, (d'.stepBy conduct depth (.same a b)).2 = (d.stepBy conduct depth (.same a b)).2 ∧
      (d'.stepBy conduct depth (.sameGroup a b)).2 = (d.stepBy conduct depth (.sameGroup a b)).2
  /-- Nothing but a renaming names anybody. -/
  naming?_eq : ∀ depth op, (∀ contact name, op ≠ .resolve contact name) → ∃ es,
    (d.stepBy conduct depth op).1.people.log = d.people.log ++ es ∧ ∀ e ∈ es, ∀ k, e.naming? k = none
  /-- A group that another is appended to keeps its members and has those of the other behind them; nobody else
  notices. -/
  append_eq : ∀ depth g other ks more, originals? past (.group g) = some ks →
    originals? past (.group other) = some more → ∃ d',
      d.stepBy conduct depth (.append g other) = (d', .done) ∧ d'.people = d.people ∧
      d'.members (.group g) = some (ks ++ more) ∧ ∀ t, t ≠ .group g → d'.members t = d.members t

/-! ## What the originals look like -/

/-- Namings that go on one after another name in this order, so the last one stands. -/
theorem named_append (c : Contact) (i : PersonId) (es fs : List Incident) :
    c.named i (es ++ fs) = (c.named i es).named i fs := by
  induction es generalizing c with
  | nil => rfl
  | cons e es ih => rw [List.cons_append, named_cons, ih, named_cons]

/-- A naming of an original and what follows, as any original shows it. -/
theorem shown_named (past : List Op) (log inner : List Incident) (j k : PersonId) (name : Option String)
    (told : List ListenerId) (level : Nat) : shown past (log ++ .named k name told level :: inner) j =
      (shown past log j).map fun c => (if j = k then { c with name } else c).named j inner := by
  rw [shown, shown, Option.map_map]
  congr 1
  funext c
  rw [named_append, named_cons, Incident.naming?, Function.comp]
  by_cases h : j = k
  · rw [if_pos h, if_pos h.symm]
    rfl
  · rw [if_neg h, if_neg fun heq => h heq.symm]
    rfl

theorem creations_of_not_created {op : Op} (h : op.created? = none) (past : List Op) :
    creations (op :: past) = creations past := by
  rw [creations, h]
  exact List.append_nil _

/-- A renaming touches no number, so what is compared by numbers stays equal or different. -/
theorem sameNumbers_resolve (past : List Op) (contact : String) (name : Option String) (t u : Target) :
    sameNumbers (.resolve contact name :: past) t u = sameNumbers past t u := by
  have hnumbers : ∀ t, numbers? (.resolve contact name :: past) t = numbers? past t := by
    intro t
    rw [numbers?, creations_of_not_created rfl]
    rfl
  rw [sameNumbers, hnumbers, hnumbers, sameNumbers]

/-- Where each element has an image, none is lost in the list of the images. -/
theorem map_some_filterMap {α β : Type} {f : α → Option β} {as : List α} (h : ∀ a ∈ as, (f a).isSome) :
    (as.filterMap f).map some = as.map f := by
  induction as with
  | nil => rfl
  | cons a as ih =>
    obtain ⟨ha, has⟩ := List.forall_mem_cons.mp h
    obtain ⟨b, hb⟩ := Option.isSome_iff_exists.mp ha
    rw [List.filterMap_cons_some hb, List.map_cons, List.map_cons, ih has, hb]

namespace Faithful

variable {conduct : Directory → Conduct} {depth : Nat} {past : List Op} {d : Directory} {name : String}
  {k : PersonId} {ks js : List PersonId} {t u : Target}

/-- **The log gives the contact of every original.** -/
theorem contact (h : Faithful past d) (k : PersonId) :
    d.people.persons[k]?.map Person.contact = shown past d.people.log k := by
  have hcontact := contact_of_log h.grows.truthful k
  rw [contactIn, h.created_eq] at hcontact
  rw [h.grows.persons_eq]
  exact hcontact

/-- A name of a contact stands in the directory for the original that the session gave it. -/
theorem contactName (h : Faithful past d) (hk : originals? past (.contact name) = some [k]) :
    d.contactNames.get? name = some k := by
  rw [← h.members_eq, members, Option.map_eq_some_iff] at hk
  obtain ⟨i, hi, heq⟩ := hk
  rw [hi, List.singleton_inj.mp heq]

theorem groupName (h : Faithful past d) (hks : originals? past (.group name) = some ks) :
    d.groupNames.get? name = some ks := by
  rw [← h.members_eq] at hks
  exact hks

/-- Who is behind a handle is there. -/
theorem person (h : Faithful past d) (hk : k < (creations past).length) :
    ∃ p, d.people.persons[k]? = some p ∧ shown past d.people.log k = some p.contact := by
  have hp : d.people.persons[k]? = some _ := List.getElem?_eq_getElem (h.length_persons ▸ hk)
  refine ⟨_, hp, ?_⟩
  rw [← h.contact, hp]
  rfl

/-- What a group shows is what the log shows of each of its originals, and none is missing. -/
theorem contactsOf_eq (h : Faithful past d) (hks : ∀ k ∈ ks, k < (creations past).length) :
    ks.map (shown past d.people.log) = (d.contactsOf ks).map some := by
  have hcontacts : (fun k => d.people.persons[k]?.map Person.contact) = shown past d.people.log := funext h.contact
  rw [contactsOf, hcontacts, map_some_filterMap]
  intro k hk
  obtain ⟨p, -, hshown⟩ := h.person (hks k hk)
  rw [hshown]
  rfl

/-- **Names have no say in the numbers.** -/
theorem numbers_eq (h : Faithful past d) (hks : ∀ k ∈ ks, k < (creations past).length) :
    (ks.map fun k => (creations past)[k]?.map Contact.number) = ((d.contactsOf ks).map Contact.number).map some := by
  have hnumber : ∀ k, (shown past d.people.log k).map Contact.number = (creations past)[k]?.map Contact.number := by
    intro k
    rw [shown, Option.map_map]
    rfl
  calc (ks.map fun k => (creations past)[k]?.map Contact.number)
      = (ks.map (shown past d.people.log)).map (Option.map Contact.number) := by
        rw [← funext hnumber, List.map_map]
        rfl
    _ = ((d.contactsOf ks).map some).map (Option.map Contact.number) := by rw [h.contactsOf_eq hks]
    _ = ((d.contactsOf ks).map Contact.number).map some := by
        rw [List.map_map, List.map_map]
        rfl

/-- Comparing what is shown is comparing the numbers. -/
theorem sameNumbers_eq (h : Faithful past d) (ht : originals? past t = some ks) (hu : originals? past u = some js) :
    sameNumbers past t u = .truth (Group.same (d.contactsOf ks) (d.contactsOf js)) := by
  have hks : ∀ k ∈ ks, k < (creations past).length := lt_of_originals? ht
  have hjs : ∀ k ∈ js, k < (creations past).length := lt_of_originals? hu
  rw [sameNumbers, numbers?, numbers?, ht, hu, Option.map_some, Option.map_some, h.numbers_eq hks, h.numbers_eq hjs,
    Group.same_eq]
  have hinj : ((d.contactsOf ks).map Contact.number).map some = ((d.contactsOf js).map Contact.number).map some ↔
      (d.contactsOf ks).map Contact.number = (d.contactsOf js).map Contact.number :=
    List.map_inj_right fun _ _ => Option.some.inj
  exact congrArg Answer.truth (decide_eq_decide.mpr hinj)

/-- A look shows what the log tells of the original, and leaves the directory alone. -/
theorem look (h : Faithful past d) (conduct : Directory → Conduct) (depth : Nat)
    (hk : originals? past (.contact name) = some [k]) : ∃ c,
    d.stepBy conduct depth (.look name) = (d, .contact c) ∧ shown past d.people.log k = some c := by
  obtain ⟨p, hp, hshown⟩ := h.person (lt_of_originals? hk k (List.mem_singleton_self k))
  refine ⟨p.contact, stepBy_of_some ?_, hshown⟩
  simp only [step?, person?, h.contactName hk, Option.bind_eq_bind, Option.bind_some, hp]
  rfl

/-! ## The answers -/

/-- A name that the session never gave stands for nobody, and one that it gave stands for a person. -/
theorem contact? (h : Faithful past d) (name : String) :
    (originals? past (.contact name) = none ∧ d.person? name = none) ∨
    ∃ k p, originals? past (.contact name) = some [k] ∧ d.person? name = some p ∧
      d.contactsOf [k] = [p.contact] := by
  rw [← h.members_eq, members, person?]
  cases hname : d.contactNames.get? name with
  | none => exact .inl ⟨rfl, rfl⟩
  | some k =>
    have hk : originals? past (.contact name) = some [k] := by
      rw [← h.members_eq, members, hname]
      rfl
    obtain ⟨p, hp, -⟩ := h.person (lt_of_originals? hk k (List.mem_singleton_self k))
    refine .inr ⟨k, p, rfl, hp, ?_⟩
    rw [contactsOf, List.filterMap_cons, hp]
    rfl

/-- A group shows the originals that the session put in it. -/
theorem group? (h : Faithful past d) (name : String) :
    d.group? name = (originals? past (.group name)).map d.contactsOf := by
  rw [← h.members_eq]
  rfl

/-- Two contacts are compared by the numbers they were made with. -/
theorem same (h : Faithful past d) (a b : String) :
    d.stepBy conduct depth (.same a b) = (d, sameNumbers past (.contact a) (.contact b)) := by
  rcases h.contact? a with ⟨ha, hpa⟩ | ⟨j, p, ha, hpa, hp⟩
  · rw [stepBy_of_none (by rw [step?, hpa]; rfl), sameNumbers, numbers?, ha]
    rfl
  · rcases h.contact? b with ⟨hb, hpb⟩ | ⟨k, q, hb, hpb, hq⟩
    · rw [stepBy_of_none (by rw [step?, hpa, hpb]; rfl), sameNumbers, numbers?, numbers?, ha, hb]
      rfl
    · rw [stepBy_of_some (by rw [step?, hpa, hpb]; rfl), h.sameNumbers_eq ha hb, hp, hq, Group.same, Group.same,
        Bool.and_true]

/-- Two groups are compared by the numbers of their members, each as often as it is one. -/
theorem sameGroup (h : Faithful past d) (a b : String) :
    d.stepBy conduct depth (.sameGroup a b) = (d, sameNumbers past (.group a) (.group b)) := by
  cases ha : originals? past (.group a) with
  | none =>
    rw [stepBy_of_none (by rw [step?, h.group?, ha]; rfl), sameNumbers, numbers?, ha]
    rfl
  | some ks =>
    cases hb : originals? past (.group b) with
    | none =>
      rw [stepBy_of_none (by rw [step?, h.group?, h.group?, ha, hb]; rfl), sameNumbers, numbers?, numbers?, ha, hb]
      rfl
    | some js => rw [stepBy_of_some (by rw [step?, h.group?, h.group?, ha, hb]; rfl), h.sameNumbers_eq ha hb]

/-- A renaming through a handle is one of the original that the handle stands for. -/
theorem renames_eq (h : Faithful past d) (hk : originals? past (.contact name) = some [k]) (new : Option String) :
    (Op.resolve name new).renames? d.members = some (k, new) := by
  rw [h.members_eq, Op.renames?, hk]
  rfl

/-- Whoever a handle stands for can be renamed; what comes of it is noted, and the handles show it. -/
theorem namedAs (h : Faithful past d) {contact : String} {new : Option String} {people : People}
    (hk : originals? past (.contact contact) = some [k]) (hrename : Renames (conduct d) 0 k new d.people people)
    (hafter : Faithful (.resolve contact new :: past) { d with people }) :
    NamedAs conduct past d k new { d with people } := by
  obtain ⟨p, inner, hp, hlog, htells⟩ := h.log_of_renames (h.renames_eq hk new) hrename
  refine ⟨p, inner, hp, hlog, htells, fun depth other j hj => ?_⟩
  obtain ⟨c, hlook, hc⟩ := h.look conduct depth hj
  obtain ⟨c', hlook', hc'⟩ := hafter.look conduct depth hj
  refine ⟨c, hlook, ?_⟩
  rw [hlog, shown_named, shown, creations_of_not_created rfl, ← shown, hc] at hc'
  rw [hlook', ← Option.some.inj hc']

/-- A renaming does its work, or runs out of levels. -/
theorem resolve (h : Faithful past d) (depth : Nat) {contact : String} (new : Option String)
    (hk : originals? past (.contact contact) = some [k]) :
    let r := d.stepBy conduct depth (.resolve contact new)
    (r = (d, .refused) ∧ People.resolve (conduct d) depth k new d.people = none) ∨
      NamedAs conduct past d k new r.1 := by
  intro r
  have hafter := h.step (follows_stepBy conduct depth d (.resolve contact new))
  cases hpeople : People.resolve (conduct d) depth k new d.people with
  | none => exact .inl ⟨stepBy_of_none (by simp [step?, h.contactName hk, hpeople]), rfl⟩
  | some people =>
    have hr : r = ({ d with people }, .called ((people.since d.people).filterMap d.call?)) :=
      stepBy_of_resolve (h.renames_eq hk new) hpeople
    refine .inr ?_
    rw [hr]
    refine h.namedAs hk (People.renames_of_resolveAt hpeople) ?_
    rw [show d.stepBy conduct depth (.resolve contact new) = r from rfl, hr] at hafter
    exact hafter

/-- Among listeners that ask for nothing a renaming does its work on the first level, and nobody renames again. -/
theorem resolve_silent (h : Faithful past d) (hsilent : conduct d = silent d) (depth : Nat) {contact : String}
    (new : Option String) (hk : originals? past (.contact contact) = some [k]) :
    let r := d.stepBy conduct (depth + 1) (.resolve contact new)
    r.2 ≠ .refused ∧ ∀ depth other j, originals? past (.contact other) = some [j] → ∃ c : Contact,
      d.stepBy conduct depth (.look other) = (d, .contact c) ∧
      r.1.stepBy conduct depth (.look other) = (r.1, .contact (if j = k then { c with name := new } else c)) := by
  intro r
  obtain ⟨p, hp⟩ := h.exists_person (h.renames_eq hk new)
  obtain ⟨people, hpeople, -⟩ := People.resolve_silent hp depth new
  have hresolve : People.resolve (conduct d) (depth + 1) k new d.people = some people := by
    rw [hsilent]
    exact hpeople
  have hr : r = ({ d with people }, .called ((people.since d.people).filterMap d.call?)) :=
    stepBy_of_resolve (h.renames_eq hk new) hresolve
  constructor
  · rw [hr]
    nofun
  · -- Listeners that ask for nothing rename nobody, so only the person named shows something new.
    intro depth' other j hj
    have hended : _ ∨ NamedAs conduct past d k new r.1 := h.resolve (depth + 1) new hk
    rcases hended with ⟨-, hnone⟩ | ⟨p', inner, -, -, htells, hlooks⟩
    · rw [hresolve] at hnone
      cases hnone
    · obtain ⟨c, hlook, hlook'⟩ := hlooks depth' other j hj
      rw [hsilent] at htells
      rw [named_of_none (htells.naming?_of_silent rfl j)] at hlook'
      exact ⟨c, hlook, hlook'⟩

/-- **So it is in every directory that goes by its originals.** -/
theorem identity (h : Faithful past d) (conduct : Directory → Conduct) : Identity conduct past d where
  made _ _ := lt_of_originals?
  look_eq depth _ _ := h.look conduct depth
  lookGroup_eq depth name ks hks := by
    refine ⟨d.contactsOf ks, stepBy_of_some ?_, h.contactsOf_eq (lt_of_originals? hks)⟩
    rw [step?, h.group?, hks]
    rfl
  seen_eq before e after k seen hlog he := by
    have htruthful := h.grows.truthful
    rw [hlog] at htruthful
    -- The log is truthful, so what was seen is a contact that its prefix had created.
    obtain ⟨c, hc, hseen⟩ := Option.map_eq_some_iff.mp (htruthful.seen_eq he)
    have hlt : k < (before.filterMap Incident.created?).length := (List.getElem?_eq_some_iff.mp hc).1
    rw [shown, ← h.created_eq, hlog, List.filterMap_append, List.getElem?_append_left hlt, hc, Option.map_some, hseen]
  same_eq _ := h.same
  sameGroup_eq _ := h.sameGroup
  resolve_eq depth _ name _ := h.resolve depth name
  resolves contact name k hk := by
    have hop := h.renames_eq hk name
    obtain ⟨p, hp⟩ := h.exists_person hop
    exact ⟨p, hp, fun inner people htells => exists_levels_of_renames hop (.inr ⟨p, inner, hp, htells⟩)⟩
  resolves_silent hsilent depth _ name _ := h.resolve_silent hsilent depth name
  resolve_same depth contact name a b := by
    -- A renaming is one more operation, so the directory after it is faithful to the longer past.
    have hafter := h.step (follows_stepBy conduct depth d (.resolve contact name))
    rw [hafter.same, hafter.sameGroup, h.same, h.sameGroup]
    exact ⟨sameNumbers_resolve past contact name _ _, sameNumbers_resolve past contact name _ _⟩
  naming?_eq depth op hop := by
    obtain ⟨es, hgrows, -, hnaming⟩ := (follows_stepBy conduct depth d op).notes
    exact ⟨es, hgrows.log_eq, hnaming hop⟩
  append_eq depth g other ks more hks hmore := by
    refine ⟨{ d with groupNames := d.groupNames.set g (ks ++ more) },
      stepBy_of_some (by rw [step?, h.groupName hks, h.groupName hmore]; rfl), rfl, ?_, fun t ht => ?_⟩
    · rw [members_setGroup, rebind, if_pos rfl]
    · rw [members_setGroup, rebind, if_neg ht]

end Faithful

/-- **A contact keeps its number, and its copies share its name with each other and with nobody else.** So it is after
every session under any limit of levels. A session whose renamings all come to an end is gone through as it goes by
itself, with levels enough, and outside of the listeners it is just the session that names: what it renames, in
order. Where listeners ask for nothing, one level is enough, and every contact has the name that the session last gave
its original. -/
theorem identity_after (conduct : Directory → Conduct) (past : List Op) :
    (∀ depth, Identity conduct past (after conduct depth past)) ∧
    (∀ d, Reaches conduct past d →
      (∃ enough, ∀ more, after conduct (enough + more) past = d) ∧ Identity conduct past d ∧
      d.people.log.filterMap Incident.outer? = renamings past) ∧
    ∀ depth, let d := after silent (depth + 1) past
      Reaches silent past d ∧
      ((∀ x ∈ introduced past, x.reaction = .quiet) → after asks (depth + 1) past = d) ∧
      ∀ k, shown past d.people.log k = (creations past)[k]?.map fun c =>
        { c with name := ((renamings past).filterMap (namingOf? k)).getLast?.getD c.name } := by
  refine ⟨fun depth => (faithful_after conduct depth past).identity conduct, fun d hreaches => ?_, fun depth => ?_⟩
  · exact ⟨hreaches.exists_levels, hreaches.faithful.identity conduct, hreaches.outer_eq⟩
  · have hreaches : Reaches silent past (after silent (depth + 1) past) := reaches_silent depth past
    refine ⟨hreaches, after_asks_of_quiet (depth + 1), fun k => ?_⟩
    rw [shown, ← hreaches.namings_silent]
    rfl

/-- Two contacts of one number and a copy of the first, which is looked up. A listener of the first renames it in turn,
so its copies end up with that name, also in a group that was copied before; they still compare equal to the second.
If the listener stays quiet, they have the name that was looked up. -/
theorem identity_after_renamed :
    let made (reaction : Reaction) : List Op := [.listen "x" (.contact "a"), .listener "x" reaction,
      .copyGroup "all" "kept", .group "all" ["a", "b"], .copy "a" "copy", .create "b" "1" none, .create "a" "1" none]
    let past := .resolve "copy" (some "Ann") :: made (.rename "Bob")
    let quiet := .resolve "copy" (some "Ann") :: made .quiet
    let d := after asks 2 past
    Reaches asks past d ∧ (∃ enough, ∀ more, after asks (enough + more) past = d) ∧
    d.people.log.filterMap Incident.outer? = [(0, some "Ann")] ∧
    (∃ g : Group, d.stepBy asks 2 (.lookGroup "kept") = (d, .group g) ∧
      g.map some = [some ⟨"1", some "Bob"⟩, some ⟨"1", none⟩]) ∧
    d.stepBy asks 2 (.same "copy" "b") = (d, .truth true) ∧
    (∀ x ∈ introduced quiet, x.reaction = .quiet) ∧ after asks 1 quiet = after silent 1 quiet ∧
    shown quiet (after asks 1 quiet).people.log 0 = some ⟨"1", some "Ann"⟩ := by
  intro made past quiet d
  have hmade : Reaches asks (made (.rename "Bob")) (after asks 0 (made (.rename "Bob"))) :=
    .other (.other (.other (.other (.other (.other (.other .start rfl) rfl) rfl) rfl) rfl) rfl) rfl
  let before := after asks 0 (made (.rename "Bob"))
  -- The listener of the person asks for another name when it is called, and is content with the second call.
  have hrun : People.resolve (asks before) 2 0 (some "Ann") before.people = some d.people := by
    decide +kernel
  have hreaches : Reaches asks past d := .rename hmade rfl (People.renames_of_resolveAt hrun)
  have hquiet : ∀ x ∈ introduced quiet, x.reaction = .quiet := by
    intro x hx
    rw [List.mem_singleton.mp (hx : x ∈ [⟨"x", .quiet⟩])]
  obtain ⟨hlevels, hidentity, houter⟩ := (identity_after asks past).2.1 d hreaches
  obtain ⟨g, hlook, hg⟩ := hidentity.lookGroup_eq 2 "kept" [0, 1] rfl
  obtain ⟨-, hasks, hshown⟩ := (identity_after asks quiet).2.2 0
  refine ⟨hreaches, hlevels, houter, ⟨g, hlook, hg.symm⟩, hidentity.same_eq 2 "copy" "b", hquiet, hasks hquiet, ?_⟩
  rw [hasks hquiet]
  exact hshown 0

end Directory

end TextVault
