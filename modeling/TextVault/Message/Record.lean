import TextVault.Contact.Basic
import TextVault.Message.Classifier

/-
  Records of stored messages and threads.

  Program: `Record.build` classifies a message once, when it is read from the store; a change in the
  store means reading it again. `Thread.build` does the same for the newest message of a thread.

  Spec: `build` keeps what it is given and adds the classification.
-/
namespace TextVault.Message

/-- How a message was carried. -/
inductive Transport where
  | sms
  | mms
  deriving DecidableEq, Repr

instance : Labelled Transport where
  all := [.sms, .mms]
  label
    | .sms => "Sms"
    | .mms => "Mms"

/-- The name of a transport in the text of a key. -/
def Transport.shortName : Transport → String
  | .sms => "sms"
  | .mms => "mms"

/-- Which message a record is of. The two transports number their messages apart. -/
structure RecordKey where
  transport : Transport
  id : Int64
  deriving DecidableEq, Repr

/-- The transport's name and the number. -/
def RecordKey.shortText (k : RecordKey) : String :=
  k.transport.shortName ++ String.ofList (Text.decimalInt k.id.toInt)

/-- A stored body and whether it is plain text yet. -/
structure Body where
  text : String
  plaintext : Bool
  deriving DecidableEq, Repr

/-- One message of a conversation; dates are in milliseconds of the epoch. -/
structure Record where
  key : RecordKey
  threadId : Int64
  mask : TypeMask
  body : Body
  sent : Int
  received : Int
  recipients : Group
  individual : Contact
  classification : Classification
  deriving DecidableEq, Repr

namespace Record

/-- A record is classified once, when it is made; nothing classifies it again while it is shared. -/
def build (c : Classifier) (key : RecordKey) (threadId : Int64) (mask : TypeMask) (status : Int32)
    (body : Body) (sent received : Int) (recipients : Group) (individual : Contact) : Record where
  key := key
  threadId := threadId
  mask := mask
  body := body
  sent := sent
  received := received
  recipients := recipients
  individual := individual
  classification := c.classify mask status body.plaintext body.text

/-- Whether the message came as a multimedia message, which is a matter of its key and not of its body. -/
def isMms (r : Record) : Bool := r.key.transport == .mms

/-- Whether the network has reported the message as received. -/
def isDelivered (r : Record) : Bool := r.classification.delivery == .received

end Record

/-- For whom a thread is meant. -/
inductive Distribution where
  | default
  | broadcast
  | conversation
  deriving DecidableEq, Repr

instance : Labelled Distribution where
  all := [.default, .broadcast, .conversation]
  label
    | .default => "Default"
    | .broadcast => "Broadcast"
    | .conversation => "Conversation"

/-- A conversation in the list of threads. -/
structure Thread where
  threadId : Int64
  recipients : Group
  date : Int
  count : UInt64
  isRead : Bool
  mask : TypeMask
  distribution : Distribution
  summary : Summary
  deriving DecidableEq, Repr

/-- A thread shows its newest message, summarized when the thread is made. -/
def Thread.build (c : Classifier) (threadId : Int64) (newest : Body) (mask : TypeMask)
    (recipients : Group) (date : Int) (count : UInt64) (isRead : Bool)
    (distribution : Distribution) : Thread where
  threadId := threadId
  recipients := recipients
  date := date
  count := count
  isRead := isRead
  mask := mask
  distribution := distribution
  summary := c.summarize mask newest.plaintext newest.text

example : (RecordKey.mk .mms (-7)).shortText = "mms-7" := by decide +kernel

end TextVault.Message
