import TextVault.Proofs.Contact.Lineage

/-
  Sessions whose renamings come to an end.

  Problem: how many levels of renaming are allowed is a matter of the directory, while those who use it only know
  that a renaming is over when it is over. A listener may rename in turn, and how deep that goes cannot be told
  beforehand. A session has to come to the same end under any limit that is not too small for it.

  Program: `Reaches` goes through a session without a count of levels: each renaming goes on until it is over.
  `Op.renames?` is whom an operation renames and how, and `renamings` are those of a whole session.

  Spec: with levels enough the directory goes through the session in just that way (`Reaches.exists_levels`), and
  listeners that ask for nothing are content with one level (`reaches_silent`). The log tells the renamings of the
  session to whoever sees nothing else in it (`Reaches.filterMap_log`): what it names outside of all listeners is
  what the session renamed, in order (`outer_eq`), and among listeners that ask for nothing this is all that is
  named (`namings_silent`).
-/
namespace TextVault

/-- A naming that goes on inside of no other renaming: whom it names, and how. -/
def Incident.outer? : Incident → Option (PersonId × Option String)
  | named i name _ 0 => some (i, name)
  | _ => none

/-- How a person is named, if it is this one that is named. -/
def namingOf? (k : PersonId) (naming : PersonId × Option String) : Option (Option String) :=
  if naming.1 = k then some naming.2 else none

/-- Whatever goes on inside of a renaming is none of the session's own namings. -/
theorem Incident.outer?_of_isInside {e : Incident} (h : e.IsInside 0) : e.outer? = none := by
  cases e with
  | named i name told level =>
    cases level with
    | zero => exact absurd h (Nat.lt_irrefl 0)
    | succ level => rfl
  | _ => rfl

/-- Neither is what names nobody. -/
theorem Incident.outer?_of_naming?_none {e : Incident} (h : ∀ i, e.naming? i = none) : e.outer? = none := by
  cases e with
  | named i name told level =>
    have hi := h i
    rw [Incident.naming?, if_pos rfl] at hi
    cases hi
  | _ => rfl

namespace Directory

/-- Listeners that ask for nothing. -/
def silent : Directory → Conduct := fun _ _ => []

/-- Whom an operation renames and how, by what the handles stand for. -/
def Op.renames? (before : Target → Option (List PersonId)) : Op → Option (PersonId × Option String)
  | resolve contact name => ((before (.contact contact)).bind List.head?).map (·, name)
  | _ => none

/-- The renamings of a session, in order. -/
def renamings : List Op → List (PersonId × Option String)
  | [] => []
  | op :: past => renamings past ++ (op.renames? (originals? past)).toList

/-- `Reaches conduct past d`: each renaming of the session goes on until it is over, and then the directory is `d`. -/
inductive Reaches (conduct : Directory → Conduct) : List Op → Directory → Prop
  | start : Reaches conduct [] {}
  | rename {past : List Op} {d : Directory} {op : Op} {k : PersonId} {name : Option String} {people : People}
      (h : Reaches conduct past d) (hop : op.renames? d.members = some (k, name))
      (hrename : Renames (conduct d) 0 k name d.people people) : Reaches conduct (op :: past) { d with people }
  /-- What renames nobody needs no levels. -/
  | other {past : List Op} {d : Directory} {op : Op} (h : Reaches conduct past d)
      (hop : op.renames? d.members = none) : Reaches conduct (op :: past) (d.stepBy conduct 0 op).1

/-! ## Steps -/

section Steps

variable {conduct : Directory → Conduct} {d : Directory} {op : Op} {k : PersonId} {name : Option String}
  {people : People}

/-- An operation that renames somebody is a renaming through a handle of that person. -/
theorem Op.renames?_eq_some_iff :
    op.renames? d.members = some (k, name) ↔
      ∃ contact, op = .resolve contact name ∧ d.contactNames.get? contact = some k := by
  constructor
  · intro h
    cases op with
    | resolve contact named =>
      rw [renames?, head?_members, Option.map_eq_some_iff] at h
      obtain ⟨i, hi, heq⟩ := h
      obtain ⟨rfl, rfl⟩ := Prod.mk.inj heq
      exact ⟨contact, rfl, hi⟩
    | _ => cases h
  · rintro ⟨contact, rfl, hk⟩
    rw [renames?, head?_members, hk, Option.map_some]

/-- A renaming that is over is answered with its calls. -/
theorem stepBy_of_resolve {depth : Nat} (hop : op.renames? d.members = some (k, name))
    (h : People.resolve (conduct d) depth k name d.people = some people) :
    d.stepBy conduct depth op =
      ({ d with people }, .called ((people.since d.people).filterMap d.call?)) := by
  obtain ⟨contact, rfl, hk⟩ := Op.renames?_eq_some_iff.mp hop
  apply stepBy_of_some
  simp only [step?, hk, Option.bind_eq_bind, Option.bind_some, h]
  rfl

/-- The limit of levels has no say in what renames nobody. -/
theorem stepBy_of_renames_none (hop : op.renames? d.members = none) (depth : Nat) :
    d.stepBy conduct depth op = d.stepBy conduct 0 op := by
  cases op with
  | resolve contact name =>
    rw [Op.renames?, head?_members, Option.map_eq_none_iff] at hop
    rw [stepBy_of_none (by rw [step?, hop]; rfl), stepBy_of_none (by rw [step?, hop]; rfl)]
  | _ => rfl

/-- What renames nobody names nobody. -/
theorem exists_log_of_renames_none (conduct : Directory → Conduct) (hop : op.renames? d.members = none) (depth : Nat) :
    ∃ es, (d.stepBy conduct depth op).1.people.log = d.people.log ++ es ∧
      ∀ e ∈ es, ∀ i, e.naming? i = none := by
  by_cases hresolve : ∃ contact name, op = .resolve contact name
  · obtain ⟨contact, name, rfl⟩ := hresolve
    rw [Op.renames?, head?_members, Option.map_eq_none_iff] at hop
    rw [stepBy_of_none (by rw [step?, hop]; rfl)]
    exact ⟨[], (List.append_nil _).symm, fun _ he => absurd he List.not_mem_nil⟩
  · obtain ⟨es, hgrows, -, hnaming⟩ := (follows_stepBy conduct depth d op).notes
    exact ⟨es, hgrows.log_eq, hnaming fun contact name heq => hresolve ⟨contact, name, heq⟩⟩

/-- **A renaming that has a run comes to an end in that way**, with levels enough. -/
theorem exists_levels_of_renames (hop : op.renames? d.members = some (k, name))
    (h : Renames (conduct d) 0 k name d.people people) : ∃ enough, ∀ more,
      d.stepBy conduct (enough + more) op =
        ({ d with people }, .called ((people.since d.people).filterMap d.call?)) := by
  obtain ⟨enough, hresolve⟩ := People.exists_resolveAt_iff.mpr h
  exact ⟨enough, fun more => stepBy_of_resolve hop (People.resolveAt_add hresolve more)⟩

end Steps

/-! ## Whole sessions -/

section Sessions

variable {conduct : Directory → Conduct} {past : List Op} {d : Directory} {op : Op} {k : PersonId}
  {name : Option String}

/-- **Under any limit that is not too small, a session comes to the end that it comes to by itself.** -/
theorem Reaches.exists_levels (h : Reaches conduct past d) :
    ∃ enough, ∀ more, after conduct (enough + more) past = d := by
  induction h with
  | start => exact ⟨0, fun _ => rfl⟩
  | @rename past d op k name people h hop hrename ih =>
    obtain ⟨before, hbefore⟩ := ih
    obtain ⟨enough, hstep⟩ := exists_levels_of_renames hop hrename
    -- Enough for what came before and for this renaming together.
    refine ⟨before + enough, fun more => ?_⟩
    have hd : after conduct (before + enough + more) past = d := by
      rw [Nat.add_assoc]
      exact hbefore _
    rw [after, hd, Nat.add_comm before, Nat.add_assoc, hstep]
  | @other past d op h hop ih =>
    obtain ⟨enough, hbefore⟩ := ih
    refine ⟨enough, fun more => ?_⟩
    rw [after, hbefore, stepBy_of_renames_none hop]

/-- A directory that is reached goes by its originals: it is one that some limit of levels leads to. -/
theorem Reaches.faithful (h : Reaches conduct past d) : Faithful past d := by
  obtain ⟨enough, hlevels⟩ := h.exists_levels
  rw [← hlevels 0]
  exact faithful_after conduct _ past

/-- Who is renamed is somebody who was made. -/
theorem Faithful.exists_person (h : Faithful past d) (hop : op.renames? d.members = some (k, name)) :
    ∃ p, d.people.persons[k]? = some p := by
  obtain ⟨contact, rfl, hk⟩ := Op.renames?_eq_some_iff.mp hop
  have hmembers : originals? past (.contact contact) = some [k] := by
    rw [← h.members_eq, members, hk, Option.map_some]
  have hlt : k < d.people.persons.length := by
    rw [h.length_persons]
    exact lt_of_originals? hmembers k (List.mem_singleton_self k)
  exact ⟨_, List.getElem?_eq_getElem hlt⟩

/-- What a renaming adds to the log: its naming, and what happens inside of it. -/
theorem Faithful.log_of_renames {people : People} (h : Faithful past d)
    (hop : op.renames? d.members = some (k, name)) (hrename : Renames (conduct d) 0 k name d.people people) :
    ∃ (p : Person) (es : List Incident), d.people.persons[k]? = some p ∧
      people.log = d.people.log ++ .named k name p.listeners 0 :: es ∧
      Tells (conduct d) 0 k [] p.listeners (d.people.note (.named k name p.listeners 0)) es people := by
  obtain ⟨p, hp⟩ := h.exists_person hop
  rcases hrename with ⟨hnone, -⟩ | ⟨p', es, hp', htells⟩
  · rw [hp] at hnone
    cases hnone
  · refine ⟨p', es, hp', ?_, htells⟩
    rw [htells.grows.log_eq]
    exact List.append_assoc _ _ _

/-- A view of the log that sees nothing of what names nobody, nor of what happens inside of a renaming, shows the
renamings of the session one after another. -/
theorem Reaches.filterMap_log {β : Type} {view : Incident → Option β} {shows : PersonId × Option String → Option β}
    (h : Reaches conduct past d) (hnamed : ∀ k name told, view (.named k name told 0) = shows (k, name))
    (hblind : ∀ e : Incident, (∀ i, e.naming? i = none) → view e = none)
    (hinside : ∀ (d : Directory) (k : PersonId) (listeners : List ListenerId) (ps ps' : People) (es : List Incident),
      Tells (conduct d) 0 k [] listeners ps es ps' → ∀ e ∈ es, view e = none) :
    d.people.log.filterMap view = (renamings past).filterMap shows := by
  induction h with
  | start => rfl
  | @rename past d op k name people h hop hrename ih =>
    obtain ⟨p, es, -, hlog, htells⟩ := h.faithful.log_of_renames hop hrename
    have hnone : es.filterMap view = [] := List.filterMap_eq_nil_iff.mpr (hinside _ _ _ _ _ _ htells)
    -- Of the renaming only the naming itself is seen.
    have hview : (Incident.named k name p.listeners 0 :: es).filterMap view = [(k, name)].filterMap shows := by
      rw [List.filterMap_cons, List.filterMap_cons, hnone, hnamed, List.filterMap_nil]
    rw [h.faithful.members_eq] at hop
    rw [hlog, List.filterMap_append, ih, hview, renamings, hop, Option.toList_some, List.filterMap_append]
  | @other past d op h hop ih =>
    obtain ⟨es, hlog, hnaming⟩ := exists_log_of_renames_none conduct hop 0
    have hnone : es.filterMap view = [] :=
      List.filterMap_eq_nil_iff.mpr fun e he => hblind e (hnaming e he)
    rw [h.faithful.members_eq] at hop
    rw [hlog, List.filterMap_append, ih, hnone, List.append_nil, renamings, hop, Option.toList_none, List.append_nil]

/-- **What is named outside of all listeners is what the session renames**, in order. -/
theorem Reaches.outer_eq (h : Reaches conduct past d) :
    d.people.log.filterMap Incident.outer? = renamings past := by
  have hinside : ∀ (d : Directory) k listeners ps ps' es, Tells (conduct d) 0 k [] listeners ps es ps' →
      ∀ e ∈ es, e.outer? = none := by
    intro d k listeners ps ps' es htells e he
    exact Incident.outer?_of_isInside (htells.isInside (Nat.le_refl 0) e he)
  calc d.people.log.filterMap Incident.outer?
      = (renamings past).filterMap some :=
        h.filterMap_log (fun _ _ _ => rfl) (fun _ => Incident.outer?_of_naming?_none) hinside
    _ = renamings past := List.filterMap_some

/-! ## Listeners that ask for nothing -/

/-- **A session among listeners that ask for nothing needs one level.** -/
theorem reaches_silent (depth : Nat) (past : List Op) : Reaches silent past (after silent (depth + 1) past) := by
  induction past with
  | nil => exact .start
  | cons op past ih =>
    rw [after]
    cases hop : op.renames? (after silent (depth + 1) past).members with
    | none =>
      rw [stepBy_of_renames_none hop]
      exact .other ih hop
    | some naming =>
      obtain ⟨k, name⟩ := naming
      obtain ⟨p, hp⟩ := ih.faithful.exists_person hop
      -- One level is enough where no listener asks for anything.
      obtain ⟨people, hresolve, -⟩ := People.resolve_silent hp depth name
      have hstep : (after silent (depth + 1) past).stepBy silent (depth + 1) op = _ := stepBy_of_resolve hop hresolve
      rw [hstep]
      exact .rename ih hop (People.renames_of_resolveAt hresolve)

/-- **Among listeners that ask for nothing, nobody is named but by the session.** -/
theorem Reaches.namings_silent (h : Reaches silent past d) (k : PersonId) :
    d.people.log.filterMap (Incident.naming? k) = (renamings past).filterMap (namingOf? k) := by
  refine h.filterMap_log (fun _ _ _ => rfl) (fun _ hnaming => hnaming k) ?_
  intro d j listeners ps ps' es htells
  exact htells.naming?_of_silent rfl k

/-- Listeners whose reaction is to stay quiet ask for nothing. -/
theorem asks_of_quiet (h : ∀ x ∈ d.listeners, x.reaction = .quiet) : asks d = silent d := by
  funext log
  show asks d log = []
  rw [asks]
  split
  · next l _ _ _ =>
    cases hl : d.listeners[l]? with
    | none => rfl
    | some x =>
      rw [Option.map_some, h x (List.mem_of_getElem? hl)]
  · rfl

/-- Only what is asked of the listeners now has a say in a step. -/
theorem stepBy_congr {conduct conduct' : Directory → Conduct} (h : conduct d = conduct' d) (depth : Nat) (op : Op) :
    d.stepBy conduct depth op = d.stepBy conduct' depth op := by
  cases op with
  | resolve contact name => rw [stepBy, stepBy, step?, step?, h]
  | _ => rfl

/-- The directory of a session of quiet listeners asks for nothing at any time, since nobody but the session adds
listeners. -/
theorem asks_after_of_quiet (depth : Nat) (h : ∀ x ∈ introduced past, x.reaction = .quiet) :
    asks (after silent depth past) = silent (after silent depth past) :=
  asks_of_quiet fun x hx => h x ((faithful_after silent depth past).listeners_eq ▸ hx)

/-- **A session of quiet listeners** is the same as one of listeners that ask for nothing. -/
theorem after_asks_of_quiet (depth : Nat) (h : ∀ x ∈ introduced past, x.reaction = .quiet) :
    after asks depth past = after silent depth past := by
  induction past with
  | nil => rfl
  | cons op past ih =>
    have hearlier : ∀ x ∈ introduced past, x.reaction = .quiet := fun x hx => h x (List.mem_append_left _ hx)
    rw [after, after, ih hearlier, stepBy_congr (asks_after_of_quiet depth hearlier)]

end Sessions

end Directory

end TextVault
