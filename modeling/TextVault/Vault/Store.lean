import TextVault.Message.Record

/-
  The store of messages.

  Program: a store has at most one row for each key; reading a row classifies it.
-/
namespace TextVault

open Message

/-- A message as it is stored. -/
structure Row where
  key : RecordKey
  threadId : Int64
  mask : TypeMask
  status : Int32
  body : Body
  sent : Int
  received : Int
  recipients : Group
  individual : Contact
  deriving DecidableEq, Repr

/-- The rows of the store; the one of a key is the newest that was put there. -/
abbrev Store := List Row

namespace Store

/-- Takes the row of a key out, if there is one. -/
def remove (s : Store) (key : RecordKey) : Store := s.filter fun row => row.key ≠ key

/-- Puts a row in the place of the one with its key. -/
def put (s : Store) (row : Row) : Store := row :: s.remove row.key

/-- The record of a key. -/
def read (s : Store) (c : Classifier) (key : RecordKey) : Option Record :=
  (s.find? fun row => row.key = key).map fun row =>
    .build c row.key row.threadId row.mask row.status row.body row.sent row.received row.recipients
      row.individual

end Store

end TextVault
