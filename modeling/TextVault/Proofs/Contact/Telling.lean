import TextVault.Proofs.Contact.Journal

/-
  Telling listeners who change what is told.

  Problem: whoever is told of a name may listen, unlisten, look and rename, so the list of those to be told
  changes while it is gone through, and one telling goes on inside of another with a name of its own.

  Program: `Tells` is the telling of some listeners by a renaming: a call, then what the one called asks for, which is
  an incident or a whole telling of the next level, and then the next call. `roundCalls` are the calls of one level
  up to the next naming of that level, and `Complete` says that each naming has its round behind it.

  Spec: an inner telling keeps off the levels above it (`Tells.roundCalls_append_of_lt`) and leaves no calls for
  those below (`Tells.roundCalls_of_lt`), so the rounds do not mix and all of them are complete (`Tells.complete`).
  Every incident is noted as it was (`Tells.grows`), so those who are called behind the last naming see the
  name that stays (`sight_of_lastNaming`).
-/
namespace TextVault

/-- What a listener sees of a person when it is called. -/
def Incident.sight? (i : PersonId) (l : ListenerId) : Incident → Option Contact
  | called j k seen _ => if j = i ∧ k = l then some seen else none
  | _ => none

/-- An incident inside a renaming of that level: its own calls and all of deeper levels, but no naming of its level. -/
def Incident.IsInside (level : Nat) : Incident → Prop
  | named _ _ _ m => level < m
  | called _ _ _ m => level ≤ m
  | _ => True

/-- The calls of one level, up to the next naming of that level. -/
def roundCalls (level : Nat) : List Incident → List (PersonId × ListenerId)
  | [] => []
  | .named _ _ _ m :: es => if m = level then [] else roundCalls level es
  | .called i l _ m :: es => if m = level then (i, l) :: roundCalls level es else roundCalls level es
  | .created _ :: es | .listened .. :: es | .unlistened .. :: es | .looked .. :: es => roundCalls level es

/-- Each naming has its round behind it: those to be told are called, in order, and nobody else. -/
def Complete : List Incident → Prop
  | [] => True
  | .named i _ told level :: es => roundCalls level es = told.map (i, ·) ∧ Complete es
  | .created _ :: es | .listened .. :: es | .unlistened .. :: es | .looked .. :: es | .called .. :: es =>
    Complete es

/-- What a request brings about by itself, without a renaming. -/
inductive Brings (ps : People) : Request → Incident → Prop
  | listened (j : PersonId) (l : ListenerId) : Brings ps (.listen j l) (.listened j l)
  | unlistened (j : PersonId) (l : ListenerId) : Brings ps (.unlisten j l) (.unlistened j l)
  | looked {j : PersonId} {q : Person} (hq : ps.persons[j]? = some q) : Brings ps (.look j) (.looked j q.contact)

/-- A request that is about nobody. -/
inductive Misses (ps : People) : Request → Prop
  | look {j : PersonId} (hq : ps.persons[j]? = none) : Misses ps (.look j)
  | rename {j : PersonId} {name : Option String} (hq : ps.persons[j]? = none) : Misses ps (.rename j name)

/-- `Tells conduct level i requests pending ps es ps'`: the renaming of person `i` at that level does what the listener
called last still asks for, and then tells the pending listeners, each of which asks for what the conduct says;
`es` is what happens meanwhile. -/
inductive Tells (conduct : Conduct) :
    Nat → PersonId → List Request → List ListenerId → People → List Incident → People → Prop
  | done {level : Nat} {i : PersonId} {ps : People} : Tells conduct level i [] [] ps [] ps
  | call {level : Nat} {i : PersonId} {l : ListenerId} {pending : List ListenerId} {ps ps' : People}
      {es : List Incident} {p : Person} (hp : ps.persons[i]? = some p)
      (h : Tells conduct level i (conduct (ps.log ++ [.called i l p.contact level])) pending
        (ps.note (.called i l p.contact level)) es ps') :
      Tells conduct level i [] (l :: pending) ps (.called i l p.contact level :: es) ps'
  | bring {level : Nat} {i : PersonId} {request : Request} {requests : List Request} {pending : List ListenerId}
      {ps ps' : People} {e : Incident} {es : List Incident} (he : Brings ps request e)
      (h : Tells conduct level i requests pending (ps.note e) es ps') :
      Tells conduct level i (request :: requests) pending ps (e :: es) ps'
  | miss {level : Nat} {i : PersonId} {request : Request} {requests : List Request} {pending : List ListenerId}
      {ps ps' : People} {es : List Incident} (hmiss : Misses ps request)
      (h : Tells conduct level i requests pending ps es ps') :
      Tells conduct level i (request :: requests) pending ps es ps'
  | rename {level : Nat} {i j : PersonId} {name : Option String} {requests : List Request}
      {pending : List ListenerId} {ps mid ps' : People} {inner es : List Incident} {q : Person}
      (hq : ps.persons[j]? = some q)
      (hinner : Tells conduct (level + 1) j [] q.listeners (ps.note (.named j name q.listeners (level + 1))) inner mid)
      (h : Tells conduct level i requests pending mid es ps') :
      Tells conduct level i (.rename j name :: requests) pending ps
        (.named j name q.listeners (level + 1) :: (inner ++ es)) ps'

/-! ## Incidents -/

section Incidents

variable {ps : People} {request : Request} {e : Incident} {es fs : List Incident} {level : Nat}

/-- What a request brings about is about persons that there are. -/
theorem Brings.fits (h : Brings ps request e) : e.Fits ps.persons := by
  cases h with
  | listened => trivial
  | unlistened => trivial
  | looked hq => exact ⟨_, hq, rfl⟩

theorem Brings.created?_eq_none (h : Brings ps request e) : e.created? = none := by
  cases h with
  | _ => rfl

/-- It names nobody itself, so it is not a renaming of any level. -/
theorem Brings.isInside (h : Brings ps request e) (level : Nat) : e.IsInside level := by
  cases h with
  | _ => trivial

theorem Brings.roundCalls_cons (h : Brings ps request e) (level : Nat) (es : List Incident) :
    roundCalls level (e :: es) = roundCalls level es := by
  cases h with
  | _ => rfl

/-- Nor does it leave a round open. -/
theorem Brings.complete_cons (h : Brings ps request e) : Complete (e :: es) = Complete es := by
  cases h with
  | _ => rfl

/-- What has no call of a level before a naming of it adds nothing to a round. -/
theorem roundCalls_append_of_nil (h : roundCalls level fs = []) (es : List Incident) :
    roundCalls level (es ++ fs) = roundCalls level es := by
  induction es with
  | nil => exact h
  | cons e es ih =>
    cases e with
    | named j name told m =>
      rw [List.cons_append, roundCalls, roundCalls, ih]
    | called j l seen m =>
      rw [List.cons_append, roundCalls, roundCalls, ih]
    | _ => exact ih

end Incidents

/-! ## What a telling notes -/

namespace Tells

variable {conduct : Conduct} {level m : Nat} {i : PersonId} {requests : List Request} {pending : List ListenerId}
  {ps ps' : People} {es : List Incident}

/-- **Everything is noted as it was.** -/
theorem grows (h : Tells conduct level i requests pending ps es ps') : Grows ps es ps' := by
  induction h with
  | done => exact .refl _
  | call hp _ ih => exact (Grows.called hp _ _).trans ih
  | bring he _ ih => exact (Grows.note he.fits).trans ih
  | miss _ _ ih => exact ih
  | rename hq _ _ ihinner ih => exact (Grows.named hq _ _).trans (ihinner.trans ih)

/-- A telling makes no new contacts. -/
theorem created?_eq_none (h : Tells conduct level i requests pending ps es ps') : ∀ e ∈ es, e.created? = none := by
  induction h with
  | done => exact nofun
  | call _ _ ih => exact List.forall_mem_cons.mpr ⟨rfl, ih⟩
  | bring he _ ih => exact List.forall_mem_cons.mpr ⟨he.created?_eq_none, ih⟩
  | miss _ _ ih => exact ih
  | rename _ _ _ ihinner ih =>
    refine List.forall_mem_cons.mpr ⟨rfl, fun e he => ?_⟩
    rcases List.mem_append.mp he with he | he
    · exact ihinner e he
    · exact ih e he

/-- Listeners that ask for nothing name nobody. -/
theorem naming?_of_silent (h : Tells (fun _ => []) level i requests pending ps es ps') (hnone : requests = [])
    (k : PersonId) : ∀ e ∈ es, e.naming? k = none := by
  induction h with
  | done => exact nofun
  | call _ _ ih => exact List.forall_mem_cons.mpr ⟨rfl, ih rfl⟩
  | bring | miss | rename => cases hnone

/-! ## Rounds -/

/-- A telling goes on inside of its renaming. -/
theorem isInside (h : Tells conduct level i requests pending ps es ps') (hm : m ≤ level) :
    ∀ e ∈ es, e.IsInside m := by
  induction h with
  | done => exact nofun
  | call _ _ ih => exact List.forall_mem_cons.mpr ⟨hm, ih hm⟩
  | bring he _ ih => exact List.forall_mem_cons.mpr ⟨he.isInside m, ih hm⟩
  | miss _ _ ih => exact ih hm
  | rename _ _ _ ihinner ih =>
    refine List.forall_mem_cons.mpr ⟨Nat.lt_succ_of_le hm, fun e he => ?_⟩
    rcases List.mem_append.mp he with he | he
    · exact ihinner (Nat.le_succ_of_le hm) e he
    · exact ih hm e he

/-- A telling keeps off the levels above its own. -/
theorem roundCalls_append_of_lt (h : Tells conduct level i requests pending ps es ps') (hm : m < level)
    (fs : List Incident) : roundCalls m (es ++ fs) = roundCalls m fs := by
  induction h generalizing fs with
  | done => rfl
  | call _ _ ih =>
    rw [List.cons_append, roundCalls, if_neg (by omega)]
    exact ih hm fs
  | bring he _ ih =>
    rw [List.cons_append, he.roundCalls_cons]
    exact ih hm fs
  | miss _ _ ih => exact ih hm fs
  | rename _ _ _ ihinner ih =>
    rw [List.cons_append, roundCalls, if_neg (by omega), List.append_assoc, ihinner (by omega)]
    exact ih hm fs

/-- A telling leaves no calls of the levels below but behind a naming of theirs. -/
theorem roundCalls_of_lt (h : Tells conduct level i requests pending ps es ps') (hm : level < m) :
    roundCalls m es = [] := by
  induction h with
  | done => rfl
  | call _ _ ih =>
    rw [roundCalls, if_neg (by omega)]
    exact ih hm
  | bring he _ ih =>
    rw [he.roundCalls_cons]
    exact ih hm
  | miss _ _ ih => exact ih hm
  | @rename level _ _ _ _ _ _ _ _ _ _ _ _ _ _ ihinner ih =>
    rw [roundCalls]
    -- A round of the level sought stops at the next naming of that level; one deeper has none of its calls.
    by_cases hnext : level + 1 = m
    · rw [if_pos hnext]
    · rw [if_neg hnext, roundCalls_append_of_nil (ih hm)]
      exact ihinner (by omega)

/-- **The calls that a telling makes itself** go to those it is to tell, in order. -/
theorem roundCalls_eq (h : Tells conduct level i requests pending ps es ps') :
    roundCalls level es = pending.map (i, ·) := by
  induction h with
  | done => rfl
  | call _ _ ih =>
    rw [roundCalls, if_pos rfl, ih]
    rfl
  | bring he _ ih =>
    rw [he.roundCalls_cons]
    exact ih
  | miss _ _ ih => exact ih
  | rename _ hinner _ _ ih =>
    rw [roundCalls, if_neg (by omega), hinner.roundCalls_append_of_lt (by omega)]
    exact ih

/-- A telling completes the rounds inside of it, whatever comes behind that keeps to levels above. -/
theorem complete_append (h : Tells conduct level i requests pending ps es ps') {fs : List Incident} (hfs : Complete fs)
    (hnone : ∀ m, level < m → roundCalls m fs = []) : Complete (es ++ fs) := by
  induction h generalizing fs with
  | done => exact hfs
  | call _ _ ih => exact ih hfs hnone
  | bring he _ ih =>
    rw [List.cons_append, he.complete_cons]
    exact ih hfs hnone
  | miss _ _ ih => exact ih hfs hnone
  | @rename level _ _ _ _ _ _ _ _ _ es _ _ hinner h ihinner ih =>
    -- Behind an inner renaming, the rest of this round makes no calls of a deeper level.
    have hrest : ∀ m, level < m → roundCalls m (es ++ fs) = [] := by
      intro m hm
      rw [roundCalls_append_of_nil (hnone m hm)]
      exact h.roundCalls_of_lt hm
    rw [List.cons_append, List.append_assoc, Complete]
    constructor
    · -- The round the renaming asked for is over before this round goes on.
      rw [roundCalls_append_of_nil (hrest _ (Nat.lt_succ_self level)), hinner.roundCalls_eq]
    · exact ihinner (ih hfs hnone) fun m hm => hrest m (Nat.lt_of_succ_lt hm)

/-- **Every round that is begun is gone through to its end**, also those that listeners begin inside of it. -/
theorem complete (h : Tells conduct level i requests pending ps es ps') : Complete es := by
  have hcomplete : Complete (es ++ []) := h.complete_append trivial fun _ _ => rfl
  rwa [List.append_nil] at hcomplete

end Tells

/-! ## The last naming -/

section LastNaming

variable {i : PersonId} {name : Option String} {level : Nat}

/-- Behind the last naming of a person there is no other. -/
theorem exists_lastNaming {log : List Incident} (h : lastNaming? i log = some name) :
    ∃ before told m after, log = before ++ .named i name told m :: after ∧ ∀ e ∈ after, e.naming? i = none := by
  obtain ⟨names, hnames⟩ := List.getLast?_eq_some_iff.mp h
  obtain ⟨front, back, rfl, -, hback⟩ := List.filterMap_eq_append_iff.mp hnames
  obtain ⟨before, e, after, rfl, -, he, hafter⟩ := List.filterMap_eq_cons_iff.mp hback
  cases e with
  | named j name' told m =>
    obtain ⟨rfl, hname⟩ := Option.ite_none_right_eq_some.mp he
    obtain rfl := Option.some.inj hname
    exact ⟨front ++ before, told, m, after, (List.append_assoc _ _ _).symm, List.filterMap_eq_nil_iff.mp hafter⟩
  | _ => cases he

/-- Of a complete log every end is complete as well, since a round closes behind where it opens. -/
theorem complete_of_append {es fs : List Incident} (h : Complete (es ++ fs)) : Complete fs := by
  induction es with
  | nil => exact h
  | cons e es ih =>
    cases e with
    | named => exact ih h.2
    | _ => exact ih h

/-- A call in a round is a call. -/
theorem exists_called_of_mem_roundCalls {es : List Incident} {l : ListenerId} (h : (i, l) ∈ roundCalls level es) :
    ∃ seen, .called i l seen level ∈ es := by
  induction es with
  | nil => cases h
  | cons e es ih =>
    have hrest : (i, l) ∈ roundCalls level es → ∃ seen, .called i l seen level ∈ e :: es := by
      intro hmem
      obtain ⟨seen, hseen⟩ := ih hmem
      exact ⟨seen, List.mem_cons_of_mem e hseen⟩
    cases e with
    | named j n told m =>
      rw [roundCalls] at h
      split at h
      · cases h
      · exact hrest h
    | called j k seen m =>
      rw [roundCalls] at h
      split at h
      · next hm =>
        rcases List.mem_cons.mp h with heq | hmem
        · obtain ⟨rfl, rfl⟩ := Prod.mk.inj heq
          exact ⟨seen, by rw [hm]; exact List.mem_cons_self⟩
        · exact hrest hmem
      · exact hrest h
    | _ => exact hrest h

/-- **Who is told of the last name is left with it.** Behind the last naming of a person everyone who listened then is
called, and the last thing it sees of the person is what stays. -/
theorem sight_of_lastNaming {persons : List Person} {before after : List Incident} {told : List ListenerId}
    {m : Nat} (htruthful : Truthful persons (before ++ .named i name told m :: after))
    (hcomplete : Complete (before ++ .named i name told m :: after)) (hlast : ∀ e ∈ after, e.naming? i = none) :
    ∃ q, (actAll persons (before ++ .named i name told m :: after))[i]? = some q ∧ q.contact.name = name ∧
      ∀ l ∈ told, (after.filterMap (Incident.sight? i l)).getLast? = some q.contact := by
  obtain ⟨-, ⟨p, hp, -⟩, hafter⟩ := truthful_append.mp htruthful
  obtain ⟨mid, hmid, hcontact⟩ := contact_act hp (.named i name told m)
  -- After the last naming nothing renames the person, so the contact stays as that naming left it.
  obtain ⟨q, hq, hstays⟩ := contact_actAll hmid after
  rw [named_of_none hlast, hcontact] at hstays
  -- Completeness: the round of this naming calls exactly those who were registered when it was made.
  have hround : roundCalls m after = told.map (i, ·) := (complete_of_append hcomplete).1
  refine ⟨q, by rw [actAll_append]; exact hq, ?_, fun l hl => ?_⟩
  · rw [hstays]
    show (Incident.naming? i (.named i name told m)).getD _ = name
    rw [Incident.naming?, if_pos rfl]
    rfl
  · -- There is a call, and every call shows the same.
    have hshown : ∀ seen ∈ after.filterMap (Incident.sight? i l), seen = q.contact := by
      intro seen hseen
      obtain ⟨e, he, hsight⟩ := List.mem_filterMap.mp hseen
      obtain ⟨front, back, rfl⟩ := List.append_of_mem he
      obtain ⟨-, hfits, -⟩ := truthful_append.mp hafter
      -- A call saw the contact as it was at that moment, and it is the same contact until the end.
      cases e with
      | called j k shown level =>
        obtain ⟨⟨rfl, rfl⟩, heq⟩ := Option.ite_none_right_eq_some.mp hsight
        obtain rfl := Option.some.inj heq
        obtain ⟨r, hr, hshown⟩ := hfits
        obtain ⟨r', hr', hkept⟩ := contact_actAll hmid front
        have heq : r = r' := Option.some.inj (hr.symm.trans hr')
        rw [named_of_none fun e he => hlast e (List.mem_append_left _ he)] at hkept
        rw [← hshown, heq, hkept, hstays, hcontact]
      | _ => cases hsight
    have hcalled : (i, l) ∈ roundCalls m after := by
      rw [hround]
      exact List.mem_map_of_mem hl
    obtain ⟨seen, hseen⟩ := exists_called_of_mem_roundCalls hcalled
    have hmem : seen ∈ after.filterMap (Incident.sight? i l) :=
      List.mem_filterMap.mpr ⟨_, hseen, if_pos ⟨rfl, rfl⟩⟩
    cases hsights : (after.filterMap (Incident.sight? i l)).getLast? with
    | none =>
      rw [List.getLast?_eq_none_iff.mp hsights] at hmem
      cases hmem
    | some last => rw [hshown last (List.mem_of_getLast? hsights)]

end LastNaming

end TextVault
