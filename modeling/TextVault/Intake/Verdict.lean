import TextVault.Intake.Challenge
import TextVault.Intake.Payload
import TextVault.Intake.Wire

/-
  The verdict on an inbound payload.

  Problem: decide whether the client claims a payload, takes a registration code from it, or leaves it
  to the system. Some payloads are never the client's, and none is before its old store has been
  imported; whether that is so may be asked only when it matters.

  Program: `exemption?` finds the payloads that are never claimed. `screen` applies the rules in order
  and gives an `Inquiry`: a verdict, or a question about the import and a verdict for each answer.

  Spec: the type of `screen` shows that the question is put at most once, and `Inquiry.questions`
  counts it.
-/
namespace TextVault.Intake

open Text

/-- Why a payload is left to the system. -/
inductive Exemption where
  | empty
  | ephemeral
  | thirdPartyOtp
  | vendorControl
  | importPending
  | notSecureTraffic
  deriving DecidableEq, Repr

instance : Labelled Exemption where
  all := [.empty, .ephemeral, .thirdPartyOtp, .vendorControl, .importPending, .notSecureTraffic]
  label
    | .empty => "Empty"
    | .ephemeral => "Ephemeral"
    | .thirdPartyOtp => "ThirdPartyOtp"
    | .vendorControl => "VendorControl"
    | .importPending => "ImportPending"
    | .notSecureTraffic => "NotSecureTraffic"

/-- What becomes of a payload: it is left to others, taken for the code it holds, or claimed. -/
inductive Verdict where
  /-- Left to the system. -/
  | exempt (reason : Exemption)
  /-- A registration challenge with its code. -/
  | challenge (code : String)
  /-- Claimed for the secure pipeline. -/
  | relevant
  deriving DecidableEq, Repr

namespace Verdict

/-- Whether a payload is left to others, for whatever reason. -/
def isExempt : Verdict → Bool
  | exempt _ => true
  | _ => false

/-- Whether delivery to others stops. -/
def claimsDelivery (v : Verdict) : Bool := !v.isExempt

end Verdict

/-- The switches of the intake. -/
structure Switches where
  /-- Claim every message, not only secure traffic. -/
  acceptAll : Bool := true
  /-- A registration waits for its code. -/
  awaitingVerification : Bool := false
  deriving DecidableEq, Repr

/-! ## Payloads that are never claimed -/

/-- The start of one-time passwords that another service reads. -/
def otpStart : String := "Sparebank1://otp?"

/-- The starts of a carrier's control messages. -/
def vendorStarts : List String := ["//ANDROID:", "//Android:", "//android:", "//BREW:"]

/-- Shorter origins are short codes of the carrier. -/
def shortOriginLength : Nat := 7

/-- Why a payload is never claimed, under whatever switches. -/
def exemption? (p : Payload) : Option Exemption :=
  match p.origin? with
  | none => some .empty
  | some origin =>
    if p.messageClass.isEphemeral then some .ephemeral
    else if hasStart otpStart p.body then some .thirdPartyOtp
    -- Only a short origin is that of a service.
    else if origin.length < shortOriginLength && vendorStarts.any (hasStart · p.body) then
      some .vendorControl
    else none

/-! ## Screening -/

/-- A result that may hang on one question. -/
inductive Inquiry (α : Type) where
  | settled (a : α)
  | ask (answer : Bool → α)

namespace Inquiry

variable {α : Type}

/-- The result, given the answer. -/
def resolve (answer : Bool) : Inquiry α → α
  | settled a => a
  | ask k => k answer

/-- How often the question is put. -/
def questions : Inquiry α → Nat
  | settled _ => 0
  | ask _ => 1

end Inquiry

/-- The verdict on secure and other traffic once the import is done. -/
def trafficVerdict (s : Switches) (body : String) : Verdict :=
  if s.acceptAll then .relevant
  else if isEncrypted body || isKeyExchange body then .relevant
  else .exempt .notSecureTraffic

/-- The code of a payload, if a registration waits for one. -/
def awaitedCode? (s : Switches) (body : String) : Option String :=
  if s.awaitingVerification then challengeCode? body else none

/-- Applies the rules in order. The question is whether the old store has been imported. -/
def screen (s : Switches) (p : Payload) : Inquiry Verdict :=
  match exemption? p with
  | some reason => .settled (.exempt reason)
  | none =>
    match awaitedCode? s p.body with
    | some code => .settled (.challenge code)
    | none =>
      -- Only here is the question put, and until the import is done it puts the payload off.
      .ask fun imported =>
        if imported then trafficVerdict s p.body else .exempt .importPending

/-- What the transport does with a payload. -/
inductive Disposition where
  /-- Claimed; nobody else gets it. -/
  | aborted
  | passThrough
  deriving DecidableEq, Repr

instance : Labelled Disposition where
  all := [.aborted, .passThrough]
  label
    | .aborted => "Aborted"
    | .passThrough => "PassThrough"

/-- What the carrier is told: a payload that is not exempt goes to nobody else. -/
def Verdict.disposition (v : Verdict) : Disposition :=
  if v.claimsDelivery then .aborted else .passThrough

end TextVault.Intake
