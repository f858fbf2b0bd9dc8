import TextVault.Contact.Basic

/-
  Contacts whose names are looked up later.

  Problem: a name arrives after the contact is shown, and everyone who listens to the contact has to be
  told. A listener may answer by listening or unlistening, by looking at a contact, or by renaming one
  while the first telling still goes on.

  Program: an `Incident` is one thing that happens, and `People` are all persons with what has happened so
  far. `People.resolve` sets a name and then calls the listeners registered at that moment, in order. What
  a listener asks for (`Request`) is done before the next one is called; a renaming is a whole `resolve` of
  its own, one level deeper. Listeners that rename against each other never come to an end, so the levels
  are counted down and `none` means that they ran out.

  Spec: persons change by incidents only (`Incident.act`), and each is noted: a naming with those who are
  to be told of it, and a call with what the listener saw.
-/
namespace TextVault

/-- A listener is known by its number. -/
abbrev ListenerId := Nat

/-- A person is known by its number. -/
abbrev PersonId := Nat

/-- A contact with those who listen to it, one entry for each time they were added. -/
structure Person where
  contact : Contact
  listeners : List ListenerId := []
  deriving DecidableEq, Repr

namespace Person

/-- Registers a listener once more; a listener may be registered more than once and is then called more than once. -/
def listen (p : Person) (l : ListenerId) : Person := { p with listeners := p.listeners ++ [l] }

/-- Removes a listener altogether, however often it was added. -/
def unlisten (p : Person) (l : ListenerId) : Person :=
  { p with listeners := p.listeners.filter (· != l) }

/-- Gives a person another name, or none. -/
def rename (p : Person) (name : Option String) : Person :=
  { p with contact := { p.contact with name } }

end Person

/-- One thing that happens to a person, or is seen of it. -/
inductive Incident where
  | created (contact : Contact)
  | listened (i : PersonId) (l : ListenerId)
  | unlistened (i : PersonId) (l : ListenerId)
  /-- A name is set, for those to be told; `level` is how many renamings it happened inside of. -/
  | named (i : PersonId) (name : Option String) (told : List ListenerId) (level : Nat)
  /-- A listener is called by the renaming of that level, and sees the contact. -/
  | called (i : PersonId) (l : ListenerId) (seen : Contact) (level : Nat)
  /-- A listener looks at a contact. -/
  | looked (i : PersonId) (seen : Contact)
  deriving DecidableEq, Repr

/-- What an incident makes of the persons. -/
def Incident.act (persons : List Person) : Incident → List Person
  | created contact => persons ++ [⟨contact, []⟩]
  | listened i l => persons.modify i (·.listen l)
  | unlistened i l => persons.modify i (·.unlisten l)
  | named i name _ _ => persons.modify i (·.rename name)
  | called .. | looked .. => persons

/-- What a listener asks for while it is called. -/
inductive Request where
  | listen (i : PersonId) (l : ListenerId)
  | unlisten (i : PersonId) (l : ListenerId)
  | look (i : PersonId)
  | rename (i : PersonId) (name : Option String)
  deriving DecidableEq, Repr

/-- What the listeners do: what the one called last asks for, given all that has happened up to its call. A
listener that remembers, or that goes by what comes of its own requests, is one of these too, as all of
that follows from what has happened before. -/
abbrev Conduct := List Incident → List Request

/-- The persons, and all that has happened so far. -/
structure People where
  persons : List Person := []
  log : List Incident := []
  deriving DecidableEq, Repr

namespace People

/-- Lets an incident happen. -/
def note (ps : People) (e : Incident) : People := ⟨e.act ps.persons, ps.log ++ [e]⟩

/-- Lets incidents happen one after another. -/
def noteAll (ps : People) (es : List Incident) : People := es.foldl note ps

/-- What has happened since. -/
def since (ps earlier : People) : List Incident := ps.log.drop earlier.log.length

/-- Reads a person without doing anything to it. That it happened is all that the log keeps. -/
def look (ps : People) (i : PersonId) : People :=
  match ps.persons[i]? with
  | none => ps
  | some p => ps.note (.looked i p.contact)

/-- Does what a listener asks for; `resolve` is the renaming of the next level. -/
def perform (resolve : PersonId → Option String → People → Option People) (ps : People) :
    Request → Option People
  | .listen i l => some (ps.note (.listened i l))
  | .unlisten i l => some (ps.note (.unlistened i l))
  | .look i => some (ps.look i)
  | .rename i name => resolve i name ps

/-- Calls one listener and does what it asks for. -/
def notify (conduct : Conduct) (level : Nat)
    (resolve : PersonId → Option String → People → Option People) (i : PersonId) (ps : People)
    (l : ListenerId) : Option People :=
  match ps.persons[i]? with
  | none => some ps
  | some p =>
    let ps := ps.note (.called i l p.contact level)
    (conduct ps.log).foldlM (perform resolve) ps

/-- Sets a name and tells the listeners, as the renaming of some level. `depth` is how many levels are
still allowed, its own included. -/
def resolveAt (conduct : Conduct) :
    (depth level : Nat) → PersonId → Option String → People → Option People
  | 0, _, _, _, _ => none
  | depth + 1, level, i, name, ps =>
    match ps.persons[i]? with
    | none => some ps
    | some p =>
      p.listeners.foldlM (notify conduct level (resolveAt conduct depth (level + 1)) i)
        (ps.note (.named i name p.listeners level))

/-- Sets a name and tells the listeners, inside of no other renaming. -/
def resolve (conduct : Conduct) (depth : Nat) (i : PersonId) (name : Option String) (ps : People) :
    Option People := resolveAt conduct depth 0 i name ps

end People

end TextVault
