import TextVault.Proofs.Contact.Telling

/-
  Everybody is told, and of the last name.

  Problem: a renaming sets the name, calls its listeners one after another and does whatever each asks for,
  renamings of its own included. It is defined by the levels that are left, which say nothing about the
  listeners.

  Program: `Renames` is what a renaming does, without any count of levels: nobody is there, or the name is set and
  those who listen then are told.

  Spec: that is what `resolveAt` does if it comes to an end, by induction on the levels and along the lists of
  listeners and requests (`renames_of_resolveAt`). More levels make no difference (`resolveAt_add`), and there are
  levels enough for everything that comes to an end (`exists_resolveAt_iff`).
-/
namespace TextVault

/-- Nobody is there to be renamed, or the name is set and those who listen then are told. -/
def Renames (conduct : Conduct) (level : Nat) (i : PersonId) (name : Option String) (ps ps' : People) : Prop :=
  (ps.persons[i]? = none ∧ ps' = ps) ∨
  ∃ p es, ps.persons[i]? = some p ∧
    Tells conduct level i [] p.listeners (ps.note (.named i name p.listeners level)) es ps'

namespace People

section Resolving

variable {conduct : Conduct} {level depth : Nat} {i : PersonId} {name : Option String} {ps mid ps' : People}
  {resolve : PersonId → Option String → People → Option People}

/-- What a listener asks for is done before the telling goes on. -/
theorem tells_of_perform {request : Request} (hresolve : ∀ j name ps mid, resolve j name ps = some mid →
      Renames conduct (level + 1) j name ps mid) (h : perform resolve ps request = some mid) :
    ∃ asked, ∀ requests pending es ps', Tells conduct level i requests pending mid es ps' →
      Tells conduct level i (request :: requests) pending ps (asked ++ es) ps' := by
  cases request with
  | listen j l =>
    obtain rfl := Option.some.inj h
    exact ⟨[.listened j l], fun _ _ _ _ => .bring (.listened j l)⟩
  | unlisten j l =>
    obtain rfl := Option.some.inj h
    exact ⟨[.unlistened j l], fun _ _ _ _ => .bring (.unlistened j l)⟩
  | look j =>
    obtain rfl := Option.some.inj h
    rw [look]
    cases hq : ps.persons[j]? with
    | none => exact ⟨[], fun _ _ _ _ => .miss (.look hq)⟩
    | some q => exact ⟨[.looked j q.contact], fun _ _ _ _ => .bring (.looked hq)⟩
  | rename j name =>
    rcases hresolve j name ps mid h with ⟨hq, rfl⟩ | ⟨q, inner, hq, hinner⟩
    · exact ⟨[], fun _ _ _ _ => .miss (.rename hq)⟩
    · exact ⟨.named j name q.listeners (level + 1) :: inner, fun _ _ _ _ => .rename hq hinner⟩

/-- What a listener asks for is told one request after the other, and a renaming that it asks for is a run of the next
level. -/
theorem tells_of_requests {requests : List Request} (hresolve : ∀ j name ps mid, resolve j name ps = some mid →
      Renames conduct (level + 1) j name ps mid) (h : requests.foldlM (perform resolve) ps = some mid) :
    ∃ asked, ∀ pending es ps', Tells conduct level i [] pending mid es ps' →
      Tells conduct level i requests pending ps (asked ++ es) ps' := by
  induction requests generalizing ps with
  | nil =>
    obtain rfl := Option.some.inj h
    exact ⟨[], fun _ _ _ h => h⟩
  | cons request requests ih =>
    rw [List.foldlM_cons, Option.bind_eq_bind, Option.bind_eq_some_iff] at h
    obtain ⟨next, hnext, h⟩ := h
    obtain ⟨asked, hasked⟩ := tells_of_perform (i := i) hresolve hnext
    obtain ⟨more, hmore⟩ := ih h
    refine ⟨asked ++ more, fun pending es ps' htells => ?_⟩
    rw [List.append_assoc]
    exact hasked _ _ _ _ (hmore _ _ _ htells)

/-- The listeners are told one after another. -/
theorem tells_of_listeners {ls : List ListenerId} (hresolve : ∀ j name ps mid, resolve j name ps = some mid →
      Renames conduct (level + 1) j name ps mid) (hi : i < ps.persons.length)
    (h : ls.foldlM (notify conduct level resolve i) ps = some ps') : ∃ es, Tells conduct level i [] ls ps es ps' := by
  induction ls generalizing ps with
  | nil =>
    obtain rfl := Option.some.inj h
    exact ⟨[], .done⟩
  | cons l ls ih =>
    rw [List.foldlM_cons, Option.bind_eq_bind, Option.bind_eq_some_iff] at h
    obtain ⟨mid, hnotify, h⟩ := h
    have hp : ps.persons[i]? = some ps.persons[i] := List.getElem?_eq_getElem hi
    rw [notify, hp] at hnotify
    obtain ⟨asked, hasked⟩ := tells_of_requests (i := i) hresolve hnotify
    -- Nobody is forgotten while the listener goes on, so the person is there for the next one.
    have hmid : i < mid.persons.length := by
      rw [(hasked [] [] mid .done).grows.persons_eq]
      exact Nat.lt_of_lt_of_le hi (length_le_actAll _ _)
    obtain ⟨es, htells⟩ := ih hmid h
    exact ⟨_, .call hp (hasked _ _ _ htells)⟩

/-- **A renaming is a telling**, whatever the listeners do. -/
theorem renames_of_resolveAt (h : resolveAt conduct depth level i name ps = some ps') :
    Renames conduct level i name ps ps' := by
  induction depth generalizing level i name ps ps' with
  | zero => cases h
  | succ depth ih =>
    rw [resolveAt] at h
    cases hp : ps.persons[i]? with
    | none =>
      rw [hp] at h
      exact .inl ⟨hp, (Option.some.inj h).symm⟩
    | some p =>
      rw [hp] at h
      -- The person is still there once the naming is noted.
      have hi : i < (ps.note (.named i name p.listeners level)).persons.length := by
        have hlt : i < ps.persons.length := (List.getElem?_eq_some_iff.mp hp).1
        exact Nat.lt_of_lt_of_le hlt (length_le_actAll ps.persons [.named i name p.listeners level])
      obtain ⟨es, htells⟩ := tells_of_listeners (fun _ _ _ _ => ih) hi h
      exact .inr ⟨p, es, hp, htells⟩

/-! ## Levels enough -/

/-- A fold that comes to an end comes to the same one with a step that can do more. -/
theorem foldlM_mono {α β : Type} {f g : β → α → Option β} (hfg : ∀ b a c, f b a = some c → g b a = some c)
    {as : List α} {b c : β} (h : as.foldlM f b = some c) : as.foldlM g b = some c := by
  induction as generalizing b with
  | nil => exact h
  | cons a as ih =>
    rw [List.foldlM_cons, Option.bind_eq_bind, Option.bind_eq_some_iff] at h ⊢
    obtain ⟨mid, hmid, h⟩ := h
    exact ⟨mid, hfg b a mid hmid, ih h⟩

section Mono

variable {f g : PersonId → Option String → People → Option People}

theorem perform_mono (hfg : ∀ j name ps mid, f j name ps = some mid → g j name ps = some mid) {request : Request}
    (h : perform f ps request = some mid) : perform g ps request = some mid := by
  cases request with
  | listen | unlisten | look => exact h
  | rename j name => exact hfg j name ps mid h

/-- And so does the round of all listeners. -/
theorem notify_mono (hfg : ∀ j name ps mid, f j name ps = some mid → g j name ps = some mid) {l : ListenerId}
    (h : notify conduct level f i ps l = some mid) : notify conduct level g i ps l = some mid := by
  rw [notify] at h ⊢
  cases hp : ps.persons[i]? with
  | none =>
    rw [hp] at h
    exact h
  | some p =>
    rw [hp] at h
    exact foldlM_mono (fun _ _ _ => perform_mono hfg) h

end Mono

/-- **How many levels are allowed has no say in what comes of a renaming**, if it comes to an end. -/
theorem resolveAt_add (h : resolveAt conduct depth level i name ps = some ps') (more : Nat) :
    resolveAt conduct (depth + more) level i name ps = some ps' := by
  induction depth generalizing level i name ps ps' with
  | zero => cases h
  | succ depth ih =>
    rw [Nat.add_right_comm, resolveAt]
    rw [resolveAt] at h
    cases hp : ps.persons[i]? with
    | none =>
      rw [hp] at h
      exact h
    | some p =>
      rw [hp] at h
      -- Every inner renaming came to an end with fewer levels, so with more it does the same.
      exact foldlM_mono (fun _ _ _ => notify_mono fun _ _ _ _ => ih) h

/-- With levels enough for all of it, the requests are done and the pending listeners told. -/
def Finishes (conduct : Conduct) (depth level : Nat) (i : PersonId) (requests : List Request)
    (pending : List ListenerId) (ps ps' : People) : Prop :=
  ∃ mid, requests.foldlM (perform (resolveAt conduct depth (level + 1))) ps = some mid ∧
    pending.foldlM (notify conduct level (resolveAt conduct depth (level + 1)) i) mid = some ps'

/-- **More levels change nothing** about what has come to its end. -/
theorem Finishes.add {requests : List Request} {pending : List ListenerId}
    (h : Finishes conduct depth level i requests pending ps ps') (more : Nat) :
    Finishes conduct (depth + more) level i requests pending ps ps' := by
  obtain ⟨mid, hrequests, hpending⟩ := h
  have hadd : ∀ j name ps mid, resolveAt conduct depth (level + 1) j name ps = some mid →
      resolveAt conduct (depth + more) (level + 1) j name ps = some mid := fun _ _ _ _ h => resolveAt_add h more
  exact ⟨mid, foldlM_mono (fun _ _ _ => perform_mono hadd) hrequests,
    foldlM_mono (fun _ _ _ => notify_mono hadd) hpending⟩

/-- Whatever has a run comes to an end with some limit of levels, by induction on the run: the limits of its parts are
covered by their sum. -/
theorem exists_finishes_of_tells {requests : List Request} {pending : List ListenerId} {es : List Incident}
    (h : Tells conduct level i requests pending ps es ps') :
    ∃ depth, Finishes conduct depth level i requests pending ps ps' := by
  induction h with
  | done => exact ⟨0, _, rfl, rfl⟩
  | call hp _ ih =>
    obtain ⟨depth, mid, hrequests, hpending⟩ := ih
    refine ⟨depth, _, rfl, ?_⟩
    rw [List.foldlM_cons, notify, hp]
    exact Option.bind_eq_some_iff.mpr ⟨mid, hrequests, hpending⟩
  | @bring _ _ _ _ _ ps _ e _ he _ ih =>
    obtain ⟨depth, mid, hrequests, hpending⟩ := ih
    refine ⟨depth, mid, Option.bind_eq_some_iff.mpr ⟨ps.note e, ?_, hrequests⟩, hpending⟩
    cases he with
    | listened | unlistened => rfl
    | looked hq => rw [perform, look, hq]
  | @miss _ _ _ _ _ ps _ _ hmiss _ ih =>
    -- Even for a person who is not there the renaming takes a level.
    obtain ⟨depth, hfinishes⟩ := ih
    obtain ⟨mid, hrequests, hpending⟩ := hfinishes.add 1
    refine ⟨depth + 1, mid, Option.bind_eq_some_iff.mpr ⟨ps, ?_, hrequests⟩, hpending⟩
    cases hmiss with
    | look hq => rw [perform, look, hq]
    | rename hq => rw [perform, resolveAt, hq]
  | @rename _ _ _ _ _ _ ps mid _ _ _ _ hq _ _ ihinner ih =>
    obtain ⟨inner, hinner⟩ := ihinner
    obtain ⟨depth, hfinishes⟩ := ih
    obtain ⟨_, hnone, hlisteners⟩ := hinner.add depth
    obtain rfl := Option.some.inj hnone
    obtain ⟨next, hrequests, hpending⟩ := hfinishes.add (inner + 1)
    refine ⟨depth + (inner + 1), next, Option.bind_eq_some_iff.mpr ⟨mid, ?_, hrequests⟩, hpending⟩
    rw [← Nat.add_assoc, Nat.add_comm depth inner, perform, resolveAt, hq]
    exact hlisteners

/-- **A renaming comes to an end exactly if it has a run**, and then as in that run. -/
theorem exists_resolveAt_iff : (∃ depth, resolveAt conduct depth level i name ps = some ps') ↔
    Renames conduct level i name ps ps' := by
  constructor
  · rintro ⟨depth, h⟩
    exact renames_of_resolveAt h
  · rintro (⟨hp, rfl⟩ | ⟨p, es, hp, htells⟩)
    · refine ⟨1, ?_⟩
      rw [resolveAt, hp]
    · obtain ⟨depth, mid, hnone, hpending⟩ := exists_finishes_of_tells htells
      obtain rfl := Option.some.inj hnone
      refine ⟨depth + 1, ?_⟩
      rw [resolveAt, hp]
      exact hpending

end Resolving

/-! ## Listeners that ask for nothing -/

section Silent

variable {i : PersonId} {p : Person} {ps : People}

/-- Listeners that ask for nothing are called one after another, and that is all. -/
theorem foldlM_notify_silent {resolve : PersonId → Option String → People → Option People} {level : Nat}
    (hp : ps.persons[i]? = some p) (ls : List ListenerId) :
    ls.foldlM (notify (fun _ => []) level resolve i) ps =
      some (ps.noteAll (ls.map (.called i · p.contact level))) := by
  induction ls generalizing ps with
  | nil => rfl
  | cons l ls ih =>
    have hnotify : notify (fun _ => []) level resolve i ps l = some (ps.note (.called i l p.contact level)) := by
      rw [notify, hp]
      rfl
    rw [List.foldlM_cons, hnotify]
    exact ih hp

/-- **A renaming among listeners that ask for nothing** calls those who listen, in order, and that is all. One level
is enough for it. -/
theorem resolve_silent (hp : ps.persons[i]? = some p) (depth : Nat) (name : Option String) :
    ∃ ps', resolve (fun _ => []) (depth + 1) i name ps = some ps' ∧
      ps'.persons = ps.persons.modify i (·.rename name) ∧
      ps'.log =
        ps.log ++ .named i name p.listeners 0 :: p.listeners.map (.called i · ⟨p.contact.number, name⟩ 0) := by
  have hnamed : (ps.note (.named i name p.listeners 0)).persons[i]? = some (p.rename name) := by
    show (ps.persons.modify i (·.rename name))[i]? = _
    rw [getElem?_modify_of_some hp, if_pos rfl]
  refine ⟨⟨ps.persons.modify i (·.rename name), ps.log ++ _⟩, ?_, rfl, rfl⟩
  rw [resolve, resolveAt, hp]
  refine (foldlM_notify_silent hnamed p.listeners).trans ?_
  rw [noteAll_eq, actAll_called, note, List.append_assoc]
  rfl

end Silent

/-- **Everybody is told, and of the last name.** Whatever the listeners do, a renaming that comes to an end calls those
who listened when it set the name, in order and as often as they were registered, and nobody else; so does every
renaming inside of it. Whoever is called does what it asks for before the next one is called. When it is over,
everyone who listened to a person when that was last named has been called since, and what it last saw is the
contact with the name that stays. All that can come to an end in this way does, with levels enough. -/
theorem told_of_resolve {conduct : Conduct} {level : Nat} {i : PersonId} {name : Option String} {ps : People}
    {p : Person} (hp : ps.persons[i]? = some p) :
    (∀ depth ps', resolveAt conduct depth level i name ps = some ps' →
      ∃ es, let all := .named i name p.listeners level :: es
        Tells conduct level i [] p.listeners (ps.note (.named i name p.listeners level)) es ps' ∧
        Grows ps all ps' ∧ (∀ e ∈ es, e.IsInside level) ∧ Complete all ∧
        ∀ j last, lastNaming? j all = some last → ∃ before told m after q,
          all = before ++ .named j last told m :: after ∧ (∀ e ∈ after, e.naming? j = none) ∧
          ps'.persons[j]? = some q ∧ q.contact.name = last ∧
          ∀ l ∈ told, (after.filterMap (Incident.sight? j l)).getLast? = some q.contact) ∧
    ∀ es ps', Tells conduct level i [] p.listeners (ps.note (.named i name p.listeners level)) es ps' →
      ∃ depth, ∀ more, resolveAt conduct (depth + more) level i name ps = some ps' := by
  constructor
  · intro depth ps' h
    -- The person is there, so a call that came to an end was a renaming with its round.
    rcases renames_of_resolveAt h with ⟨hnone, -⟩ | ⟨p', es, hp', htells⟩
    · rw [hp] at hnone
      cases hnone
    rw [hp] at hp'
    obtain rfl := Option.some.inj hp'
    have hgrows : Grows ps (.named i name p.listeners level :: es) ps' :=
      (Grows.named hp name level).trans htells.grows
    have hcomplete : Complete (.named i name p.listeners level :: es) := ⟨htells.roundCalls_eq, htells.complete⟩
    refine ⟨es, htells, hgrows, htells.isInside (Nat.le_refl level), hcomplete, fun j last hlast => ?_⟩
    obtain ⟨before, told, m, after, hsplit, hafter⟩ := exists_lastNaming hlast
    rw [hsplit] at hgrows hcomplete
    -- The log splits at the last naming, behind which every call shows the name it gave.
    obtain ⟨q, hq, hname, hsights⟩ := sight_of_lastNaming hgrows.truthful hcomplete hafter
    rw [← hgrows.persons_eq] at hq
    exact ⟨before, told, m, after, q, hsplit, hafter, hq, hname, hsights⟩
  · intro es ps' htells
    obtain ⟨depth, h⟩ := exists_resolveAt_iff.mpr (.inr ⟨p, es, hp, htells⟩)
    exact ⟨depth, resolveAt_add h⟩

/-- Listener 0 renames the contact once more, and when it sees the new name it takes listener 1 off and puts
listener 2 on. Listener 1 is registered twice; it is told four times all the same, and listener 2 not at all. -/
theorem told_of_resolve_inner :
    let conduct : Conduct := fun log =>
      match log.getLast? with
      | some (.called _ 0 seen _) =>
        if seen.name = some "B" then [.unlisten 0 1, .listen 0 2] else [.rename 0 (some "B")]
      | _ => []
    let p : Person := ⟨⟨"1", none⟩, [0, 1, 1]⟩
    let ps : People := ⟨[p], []⟩
    ∃ ps', ps.persons[0]? = some p ∧ resolveAt conduct 2 0 0 (some "A") ps = some ps' ∧
      ps'.persons = [⟨⟨"1", some "B"⟩, [0, 2]⟩] ∧ Complete ps'.log ∧
      roundCalls 0 (ps'.log.drop 1) = [(0, 0), (0, 1), (0, 1)] ∧
      ps'.log.filterMap (Incident.sight? 0 1) = List.replicate 4 ⟨"1", some "B"⟩ ∧
      ∃ before told m after, ps'.log = before ++ .named 0 (some "B") told m :: after ∧
        ∀ l ∈ told, (after.filterMap (Incident.sight? 0 l)).getLast? = some ⟨"1", some "B"⟩ := by
  intro conduct p ps
  have hp : ps.persons[0]? = some p := rfl
  refine ⟨_, hp, rfl, rfl, ?_⟩
  obtain ⟨es, -, ⟨hlog, -, -⟩, -, hcomplete, hlast⟩ :=
    (told_of_resolve hp).1 2 _ (rfl : resolveAt conduct 2 0 0 (some "A") ps = some _)
  have hall : .named 0 (some "A") p.listeners 0 :: es = ps.log ++ .named 0 (some "A") p.listeners 0 :: es := rfl
  obtain ⟨before, told, m, after, q, hsplit, -, hq, -, hsights⟩ :=
    hlast 0 (some "B") (by rw [hall, ← hlog]; rfl)
  obtain rfl := Option.some.inj hq
  refine ⟨?_, ?_, rfl, before, told, m, after, ?_, hsights⟩
  · rw [hlog]
    exact hcomplete
  · rw [hlog]
    exact hcomplete.1
  · rw [hlog]
    exact hsplit

end People

end TextVault
