import TextVault.Bus.Subscription
import TextVault.Named

/-
  A bus with subscribers under names.

  Program: `Hall` is a bus, open until its last publisher is gone, with its subscribers by name. A name
  used again stands for the new subscriber, and the old one is gone.

  Spec: a receive changes the subscriber that asks and nothing else.
-/
namespace TextVault

/-- A bus with all that is known about its subscribers. -/
structure Hall where
  bus : Bus
  isOpen : Bool := true
  subscribers : Named Subscription := {}

namespace Hall

/-- What can happen to a bus and its subscribers. -/
inductive Op where
  | subscribe (as : String) (kind : Option EventKind)
  | unsubscribe (name : String)
  | publish (e : Event)
  | tryReceive (name : String)
  | poll (name : String)
  /-- The last publisher goes. -/
  | close
  deriving DecidableEq, Repr

/-- What an operation is answered with. -/
inductive Answer where
  | done
  /-- How many subscribers an event reached. -/
  | reached (count : Nat)
  | received (e : Option Event) (missed : Nat)
  | polled (p : Polled) (missed : Nat)
  /-- Nobody has the name. -/
  | refused
  deriving DecidableEq, Repr

/-- Does one operation. A subscriber that reads is put back under its name with the place it has come to; the others
are not touched. -/
def step (h : Hall) : Op → Hall × Answer
  | .subscribe as kind =>
    ({ h with subscribers := h.subscribers.set as (.start h.bus kind) }, .done)
  | .unsubscribe name => ({ h with subscribers := h.subscribers.erase name }, .done)
  | .publish e => ({ h with bus := h.bus.publish e }, .reached h.subscribers.entries.length)
  | .tryReceive name =>
    match h.subscribers.get? name with
    | none => (h, .refused)
    | some s =>
      let (e, s) := s.tryReceive h.bus
      ({ h with subscribers := h.subscribers.set name s }, .received e s.missed)
  | .poll name =>
    match h.subscribers.get? name with
    | none => (h, .refused)
    | some s =>
      let (p, s) := s.poll h.bus h.isOpen
      ({ h with subscribers := h.subscribers.set name s }, .polled p s.missed)
  | .close => ({ h with isOpen := false }, .done)

/-- Does operations one after another. -/
def run (h : Hall) : List Op → Hall × List Answer
  | [] => (h, [])
  | op :: ops =>
    let (h, answer) := h.step op
    let (h, answers) := h.run ops
    (h, answer :: answers)

/-- How many subscribers there are. -/
def size (h : Hall) : Nat := h.subscribers.entries.length

end Hall

end TextVault
