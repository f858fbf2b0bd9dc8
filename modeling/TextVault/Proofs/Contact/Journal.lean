import TextVault.Contact.Person

/-
  Persons, read from what has happened.

  Problem: a contact is seen through many handles and at many moments, also while its name is being told, and
  what is seen has to be the name of that moment.

  Program: `actAll` is what incidents make of the persons, `Truthful` says that each of them is noted as it was,
  and `contactIn` reads a contact from the log: as it was created, with the name that it was last given.

  Spec: an incident changes a contact if it is a naming of that very person, and no other contact
  (`contact_act`), so the log gives every contact (`contact_actAll`, `contact_of_log`), and what is seen at
  any moment is what the log gives up to there (`Truthful.seen_eq`).
-/
namespace TextVault

namespace Incident

/-- The contact that an incident makes, if it makes one. -/
def created? : Incident → Option Contact
  | created contact => some contact
  | _ => none

/-- The name that a person is given. -/
def naming? (i : PersonId) : Incident → Option (Option String)
  | named j name _ _ => if j = i then some name else none
  | _ => none

/-- The contact of a person, as a listener sees it. -/
def seen? (i : PersonId) : Incident → Option Contact
  | called j _ seen _ | looked j seen => if j = i then some seen else none
  | _ => none

/-- An incident is noted as it was: those to be told are those who listen, and what is seen is the contact. -/
def Fits (persons : List Person) : Incident → Prop
  | named i _ told _ => ∃ p, persons[i]? = some p ∧ p.listeners = told
  | called i _ seen _ | looked i seen => ∃ p, persons[i]? = some p ∧ p.contact = seen
  | created _ | listened .. | unlistened .. => True

end Incident

/-- What incidents make of the persons, one after another. -/
def actAll (persons : List Person) (es : List Incident) : List Person := es.foldl Incident.act persons

/-- Each incident is noted as it was when it happened. -/
def Truthful : List Person → List Incident → Prop
  | _, [] => True
  | persons, e :: es => e.Fits persons ∧ Truthful (e.act persons) es

/-- `Grows ps es ps'`: the incidents happen to the persons, and each is noted as it was. -/
structure Grows (ps : People) (es : List Incident) (ps' : People) : Prop where
  log_eq : ps'.log = ps.log ++ es
  persons_eq : ps'.persons = actAll ps.persons es
  truthful : Truthful ps.persons es

/-- The name that a person was last given, if it was given one. -/
def lastNaming? (i : PersonId) (log : List Incident) : Option (Option String) :=
  (log.filterMap (Incident.naming? i)).getLast?

/-- A contact with the name that it was last given, or its own. -/
def Contact.named (c : Contact) (i : PersonId) (log : List Incident) : Contact :=
  { c with name := (lastNaming? i log).getD c.name }

/-- A contact by the log: as the person was created, with the name that it was last given. -/
def contactIn (log : List Incident) (i : PersonId) : Option Contact :=
  (log.filterMap Incident.created?)[i]?.map (·.named i log)

variable {persons : List Person} {p : Person} {e : Incident} {es fs log : List Incident} {i : PersonId}

/-! ## What incidents leave -/

theorem actAll_append (persons : List Person) (es fs : List Incident) :
    actAll persons (es ++ fs) = actAll (actAll persons es) fs := List.foldl_append

/-- Whoever is created is one person more. -/
theorem length_act (persons : List Person) (e : Incident) :
    (e.act persons).length = persons.length + e.created?.toList.length := by
  cases e with
  | created contact => exact List.length_append
  | listened | unlistened | named => exact List.length_modify _ _ _
  | called | looked => rfl

/-- There are as many persons as were made: nobody is ever taken away. -/
theorem length_actAll (persons : List Person) (es : List Incident) :
    (actAll persons es).length = persons.length + (es.filterMap Incident.created?).length := by
  induction es generalizing persons with
  | nil => rfl
  | cons e es ih =>
    show (actAll (e.act persons) es).length = _
    rw [ih, length_act, List.filterMap_cons]
    cases e.created? with
    | none => rfl
    | some c => simp only [Option.toList_some, List.length_cons, List.length_nil]; omega

/-- Persons are never forgotten. -/
theorem length_le_actAll (persons : List Person) (es : List Incident) :
    persons.length ≤ (actAll persons es).length := by
  rw [length_actAll]
  exact Nat.le_add_right _ _

/-- A log is truthful if its first part is, and the rest is about the persons that the first part leaves behind. -/
theorem truthful_append :
    Truthful persons (es ++ fs) ↔ Truthful persons es ∧ Truthful (actAll persons es) fs := by
  induction es generalizing persons with
  | nil => exact (and_iff_right trivial).symm
  | cons e es ih =>
    show e.Fits persons ∧ Truthful (e.act persons) (es ++ fs) ↔ _
    rw [ih, ← and_assoc]
    exact Iff.rfl

/-- Noting incidents is letting them happen and writing them down. -/
theorem noteAll_eq (ps : People) (es : List Incident) : ps.noteAll es = ⟨actAll ps.persons es, ps.log ++ es⟩ := by
  induction es generalizing ps with
  | nil =>
    rw [List.append_nil]
    rfl
  | cons e es ih =>
    show (ps.note e).noteAll es = _
    rw [ih, People.note, List.append_assoc]
    rfl

/-- Calls change nobody. -/
theorem actAll_called (persons : List Person) (i : PersonId) (c : Contact) (level : Nat) (ls : List ListenerId) :
    actAll persons (ls.map (.called i · c level)) = persons := by
  induction ls with
  | nil => rfl
  | cons l ls ih => exact ih

namespace Grows

variable {ps mid ps' : People}

theorem refl (ps : People) : Grows ps [] ps := ⟨(List.append_nil _).symm, rfl, trivial⟩

/-- What happens in two stretches is added one after the other. -/
theorem trans (h : Grows ps es mid) (h' : Grows mid fs ps') : Grows ps (es ++ fs) ps' where
  log_eq := by rw [h'.log_eq, h.log_eq, List.append_assoc]
  persons_eq := by rw [h'.persons_eq, h.persons_eq, actAll_append]
  truthful := by
    rw [truthful_append, ← h.persons_eq]
    exact ⟨h.truthful, h'.truthful⟩

/-- An incident that fits the persons may be noted. -/
theorem note (h : e.Fits ps.persons) : Grows ps [e] (ps.note e) := ⟨rfl, rfl, h, trivial⟩

theorem named (hp : ps.persons[i]? = some p) (name : Option String) (level : Nat) :
    Grows ps [.named i name p.listeners level] (ps.note (.named i name p.listeners level)) := note ⟨p, hp, rfl⟩

theorem called (hp : ps.persons[i]? = some p) (l : ListenerId) (level : Nat) :
    Grows ps [.called i l p.contact level] (ps.note (.called i l p.contact level)) := note ⟨p, hp, rfl⟩

/-- What fits whatever the persons are can be noted at any time. -/
theorem noteAll (h : ∀ e ∈ es, ∀ persons, e.Fits persons) (ps : People) : Grows ps es (ps.noteAll es) := by
  induction es generalizing ps with
  | nil => exact refl ps
  | cons e es ih =>
    obtain ⟨he, hes⟩ := List.forall_mem_cons.mp h
    exact (note (he ps.persons)).trans (ih hes (ps.note e))

end Grows

/-! ## Contacts -/

/-- The first naming is only the name that later ones start from. -/
theorem named_cons (c : Contact) (i : PersonId) (e : Incident) (es : List Incident) :
    c.named i (e :: es) = ({ c with name := (e.naming? i).getD c.name } : Contact).named i es := by
  rw [Contact.named, Contact.named, lastNaming?, lastNaming?]
  cases hname : e.naming? i with
  | none =>
    rw [List.filterMap_cons_none hname]
    rfl
  | some name =>
    rw [List.filterMap_cons_some hname, List.getLast?_cons]
    rfl

/-- Incidents that name somebody else leave a contact's name alone. -/
theorem named_of_none {c : Contact} (h : ∀ e ∈ es, e.naming? i = none) : c.named i es = c := by
  have hnone : es.filterMap (Incident.naming? i) = [] := List.filterMap_eq_nil_iff.mpr h
  rw [Contact.named, lastNaming?, hnone]
  rfl

/-- A change of one person leaves the others what they are, and nobody appears or goes. -/
theorem getElem?_modify_of_some (hp : persons[i]? = some p) (j : PersonId) (f : Person → Person) :
    (persons.modify j f)[i]? = some (if j = i then f p else p) := by
  rw [List.getElem?_modify, hp]
  rfl

/-- **Only a naming changes a contact**, and only that of the person named. -/
theorem contact_act (hp : persons[i]? = some p) (e : Incident) :
    ∃ q, (e.act persons)[i]? = some q ∧
      q.contact = { p.contact with name := (e.naming? i).getD p.contact.name } := by
  cases e with
  | created contact =>
    obtain ⟨hlt, -⟩ := List.getElem?_eq_some_iff.mp hp
    exact ⟨p, by rw [Incident.act, List.getElem?_append_left hlt, hp], rfl⟩
  | listened j l | unlistened j l =>
    refine ⟨_, getElem?_modify_of_some hp j _, ?_⟩
    split
    · rfl
    · rfl
  | named j name told level =>
    refine ⟨_, getElem?_modify_of_some hp j _, ?_⟩
    rw [Incident.naming?]
    split
    · rfl
    · rfl
  | called | looked => exact ⟨p, hp, rfl⟩

/-- **A contact keeps its number, and has the name that it was last given.** -/
theorem contact_actAll (hp : persons[i]? = some p) (es : List Incident) :
    ∃ q, (actAll persons es)[i]? = some q ∧ q.contact = p.contact.named i es := by
  induction es generalizing persons p with
  | nil => exact ⟨p, hp, rfl⟩
  | cons e es ih =>
    obtain ⟨mid, hmid, hcontact⟩ := contact_act hp e
    obtain ⟨q, hq, hname⟩ := ih hmid
    refine ⟨q, hq, ?_⟩
    rw [hname, hcontact, named_cons]

/-- Nobody is named who is not there. -/
theorem naming?_of_fits (h : e.Fits persons) (hp : persons[i]? = none) : e.naming? i = none := by
  cases e with
  | named j name told level =>
    obtain ⟨q, hq, -⟩ := h
    refine if_neg fun hj => ?_
    rw [hj, hp] at hq
    cases hq
  | _ => rfl

/-- **The log gives the contacts of all persons**, those that were there and those that it creates. -/
theorem contact_of_truthful (h : Truthful persons log) (i : PersonId) :
    (actAll persons log)[i]?.map Person.contact =
      (persons.map Person.contact ++ log.filterMap Incident.created?)[i]?.map (·.named i log) := by
  induction log generalizing persons with
  | nil =>
    rw [List.filterMap_nil, List.append_nil, List.getElem?_map]
    exact (Option.map_id' (x := persons[i]?.map Person.contact)).symm
  | cons e log ih =>
    obtain ⟨hfits, htruthful⟩ := h
    show (actAll (e.act persons) log)[i]?.map _ = _
    rw [ih htruthful]
    -- Whoever is there is there after the incident; the others are still to be created, or are just now.
    cases hp : persons[i]? with
    | some p =>
      obtain ⟨q, hq, hcontact⟩ := contact_act hp e
      have hbefore : (persons.map Person.contact)[i]? = some p.contact := by
        rw [List.getElem?_map, hp]
        rfl
      have hafter : ((e.act persons).map Person.contact)[i]? = some q.contact := by
        rw [List.getElem?_map, hq]
        rfl
      rw [List.getElem?_append_left (List.getElem?_eq_some_iff.mp hafter).1, hafter,
        List.getElem?_append_left (List.getElem?_eq_some_iff.mp hbefore).1, hbefore, Option.map_some,
        Option.map_some, named_cons, hcontact]
    | none =>
      have hnaming := naming?_of_fits hfits hp
      have hnamed : ∀ c : Contact, c.named i (e :: log) = c.named i log := by
        intro c
        rw [named_cons, hnaming]
        rfl
      simp only [hnamed]
      cases hcreated : e.created? with
      | some c =>
        cases e with
        | created contact =>
          obtain rfl := Option.some.inj hcreated
          rw [List.filterMap_cons_some hcreated, Incident.act, List.map_append, List.append_assoc]
          rfl
        | _ => cases hcreated
      | none =>
        have hlength : (e.act persons).length = persons.length := by rw [length_act, hcreated]; rfl
        have hle : persons.length ≤ i := List.getElem?_eq_none_iff.mp hp
        rw [List.filterMap_cons_none hcreated, List.getElem?_append_right (by simpa [hlength] using hle),
          List.getElem?_append_right (by simpa using hle), List.length_map, List.length_map, hlength]

/-- **A contact is as it was created, with the name that it was last given.** -/
theorem contact_of_log (h : Truthful [] log) (i : PersonId) :
    (actAll [] log)[i]?.map Person.contact = contactIn log i := contact_of_truthful h i

/-- **What is seen at any moment is the contact of that moment.** -/
theorem Truthful.seen_eq {before after : List Incident} {seen : Contact}
    (h : Truthful [] (before ++ e :: after)) (he : e.seen? i = some seen) : contactIn before i = some seen := by
  obtain ⟨hbefore, hfits, -⟩ := truthful_append.mp h
  rw [← contact_of_log hbefore]
  cases e with
  | called j l shown level | looked j shown =>
    obtain ⟨hj, hshown⟩ := Option.ite_none_right_eq_some.mp he
    obtain rfl := Option.some.inj hshown
    obtain ⟨p, hp, hcontact⟩ := hfits
    rw [hj] at hp
    rw [hp, Option.map_some, hcontact]
  | _ => cases he

end TextVault
