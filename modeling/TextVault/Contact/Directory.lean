import TextVault.Contact.Person
import TextVault.Named

/-
  A directory of contacts.

  Problem: contacts are handed around. A copy of a contact, alone or in a group, is the same contact:
  whoever learns its name or starts to listen does so for all copies. Contacts made separately stay
  apart, even with the same number.

  Program: the directory keeps each person once; names for contacts and groups point at persons. An
  `Op` is one thing a client does with names, and `Directory.step` does it and gives an answer. It is
  `stepBy` with the conduct of the listeners that the directory knows of.

  Spec: `stepBy` changes a person in `resolve`, `listen` and `unlisten` only, and in all of them every
  name that points at the person sees the change.
-/
namespace TextVault

/-- What a listener does when it is called; other listeners are given by name. -/
inductive Reaction where
  | quiet
  | unlisten (other : String)
  | listen (other : String)
  /-- Renames the contact, unless it has that name already. -/
  | rename (name : String)
  deriving DecidableEq, Repr

/-- A listener with the name under which its calls are told. -/
structure Listener where
  name : String
  reaction : Reaction
  deriving DecidableEq, Repr

/-- The persons, the listeners, and the names by which an operator speaks of contacts, groups and listeners. Two names
may stand for the same person, as copies of a contact do. -/
structure Directory where
  people : People := {}
  listeners : List Listener := []
  contactNames : Named PersonId := {}
  groupNames : Named (List PersonId) := {}
  listenerNames : Named ListenerId := {}

/-- A contact or a group, by name. -/
inductive Target where
  | contact (name : String)
  | group (name : String)
  deriving DecidableEq, Repr

namespace Directory

/-- What can be done with a directory. Contacts, groups and listeners are given by name. -/
inductive Op where
  | create (as number : String) (name : Option String)
  | copy (source as : String)
  /-- A copy of the contact that stands at a place of a group. -/
  | member (group : String) (place : Nat) (as : String)
  | look (contact : String)
  | resolve (contact : String) (name : Option String)
  | same (a b : String)
  | group (as : String) (of : List String)
  | copyGroup (source as : String)
  | append (group other : String)
  | sameGroup (a b : String)
  | lookGroup (group : String)
  | listener (as : String) (reaction : Reaction)
  | listen (listener : String) (target : Target)
  | unlisten (listener : String) (target : Target)
  deriving DecidableEq, Repr

/-- What an operation is answered with. -/
inductive Answer where
  | done
  | truth (b : Bool)
  | contact (c : Contact)
  | group (g : Group)
  /-- The calls of a renaming: the listener's name and what it saw. -/
  | called (calls : List (String × Contact))
  /-- A name that nothing has, or a renaming that does not come to an end. -/
  | refused
  deriving DecidableEq, Repr

/-! ## Looking up -/

/-- The person that a name stands for, if the name stands for any. -/
def person? (d : Directory) (contact : String) : Option Person := do
  d.people.persons[← d.contactNames.get? contact]?

/-- The contacts of a list of persons. -/
def contactsOf (d : Directory) (ids : List PersonId) : Group :=
  ids.filterMap fun i => d.people.persons[i]?.map (·.contact)

/-- What a group shows now: its members in order, each as it is by now. -/
def group? (d : Directory) (name : String) : Option Group :=
  (d.groupNames.get? name).map d.contactsOf

/-- The persons of a target, one entry for each time they are in it. -/
def members (d : Directory) : Target → Option (List PersonId)
  | .contact name => (d.contactNames.get? name).map ([·])
  | .group name => d.groupNames.get? name

/-! ## Listening -/

/-- What the listeners of the directory ask for. -/
def asks (d : Directory) : Conduct := fun log =>
  match log.getLast? with
  | some (.called i l seen _) =>
    match d.listeners[l]?.map Listener.reaction with
    | none | some .quiet => []
    | some (.unlisten other) => (d.listenerNames.get? other).toList.map (.unlisten i)
    | some (.listen other) => (d.listenerNames.get? other).toList.map (.listen i)
    -- A contact that shows the name already is left alone, so that the renaming comes to an end.
    | some (.rename name) => if seen.name = some name then [] else [.rename i (some name)]
  | _ => []

/-- How many levels of renaming a session allows. -/
def maxDepth : Nat := 1000

/-- A listener's name. -/
def listenerName (d : Directory) (l : ListenerId) : String :=
  (d.listeners[l]?.map (·.name)).getD ""

/-- A call with the listener's name and what it saw. -/
def call? (d : Directory) : Incident → Option (String × Contact)
  | .called _ l seen _ => some (d.listenerName l, seen)
  | _ => none

/-! ## Steps -/

/-- Does an operation, unless it names something that is not there. -/
def step? (conduct : Directory → Conduct) (depth : Nat) (d : Directory) : Op → Option (Directory × Answer)
  | .create as number name =>
    some ({ d with
      people := d.people.note (.created ⟨number, name⟩)
      contactNames := d.contactNames.set as d.people.persons.length }, .done)
  -- A copy is another name for the same person.
  | .copy source as => do
    let i ← d.contactNames.get? source
    return ({ d with contactNames := d.contactNames.set as i }, .done)
  | .member group place as => do
    let ids ← d.groupNames.get? group
    let i ← ids[place]?
    return ({ d with contactNames := d.contactNames.set as i }, .done)
  | .look contact => do
    return (d, .contact (← d.person? contact).contact)
  | .resolve contact name => do
    let i ← d.contactNames.get? contact
    let people ← People.resolve (conduct d) depth i name d.people
    return ({ d with people }, .called ((people.since d.people).filterMap d.call?))
  | .same a b => do
    return (d, .truth ((← d.person? a).contact.same (← d.person? b).contact))
  | .group as of => do
    let ids ← of.mapM d.contactNames.get?
    return ({ d with groupNames := d.groupNames.set as ids }, .done)
  | .copyGroup source as => do
    let ids ← d.groupNames.get? source
    return ({ d with groupNames := d.groupNames.set as ids }, .done)
  | .append group other => do
    let ids ← d.groupNames.get? group
    let more ← d.groupNames.get? other
    return ({ d with groupNames := d.groupNames.set group (ids ++ more) }, .done)
  | .sameGroup a b => do
    return (d, .truth (Group.same (← d.group? a) (← d.group? b)))
  | .lookGroup group => do
    return (d, .group (← d.group? group))
  | .listener as reaction =>
    some ({ d with
      listeners := d.listeners ++ [⟨as, reaction⟩]
      listenerNames := d.listenerNames.set as d.listeners.length }, .done)
  | .listen listener target => do
    let l ← d.listenerNames.get? listener
    let ids ← d.members target
    return ({ d with people := d.people.noteAll (ids.map (.listened · l)) }, .done)
  | .unlisten listener target => do
    let l ← d.listenerNames.get? listener
    let ids ← d.members target
    return ({ d with people := d.people.noteAll (ids.map (.unlistened · l)) }, .done)

/-- Does an operation, whatever the listeners do; one that cannot be done changes nothing. -/
def stepBy (conduct : Directory → Conduct) (depth : Nat) (d : Directory) (op : Op) : Directory × Answer :=
  (d.step? conduct depth op).getD (d, .refused)

/-- Does an operation with the listeners that the directory knows of. -/
def step (d : Directory) (op : Op) : Directory × Answer := d.stepBy asks maxDepth op

end Directory

end TextVault
