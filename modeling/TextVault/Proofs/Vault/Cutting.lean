import Mathlib.Data.List.Forall2
import TextVault.Proofs.Intake.Screening
import TextVault.Proofs.Vault.Run

/-
  How a message is cut does not matter.

  Problem: a long message arrives in parts, and where it is cut is up to the network. A rule that went by the
  parts could be got round by a cut through the words that it looks for, and one that went by the envelope of
  a later part by a part that nobody reads.

  Program: `Payload.SameMessage` says of two payloads that their first parts have one envelope and that the
  parts of each together have one text, wherever they are cut. `Op.Recut` says so of the payloads that two
  operations hand in, and `Outcome.Recut` of those that they hand on.

  Spec: all that the rules read of a payload is the envelope of its first part and the text of all parts
  (`SameMessage.screen_eq`). So one operation leaves the vault in the same state, and what comes of it differs
  in the cut alone (`recut_step`), and so it goes on for a run (`recut_run`).
-/
namespace TextVault

open Intake

namespace Intake

/-- The characters of all parts, in order. -/
def Payload.chars (p : Payload) : List Char := p.parts.flatMap (·.body.toList)

/-- The payloads carry one message: their first parts have the same origin and class, and the parts of each
make up the same text. -/
structure Payload.SameMessage (p q : Payload) : Prop where
  envelope : ∃ a as b bs, p.parts = a :: as ∧ q.parts = b :: bs ∧
    a.origin = b.origin ∧ a.messageClass = b.messageClass
  chars_eq : p.chars = q.chars

/-- The body of a payload is the text of its parts, one after another. -/
theorem Payload.toList_body (p : Payload) : p.body.toList = p.chars := by
  rw [body, chars, String.toList_join, List.flatMap_map]

namespace Payload.SameMessage

variable {p q : Payload}

/-- **Two cuttings of one message have the same body**, so whatever is asked of the body gives the same answer. -/
theorem body_eq (h : p.SameMessage q) : p.body = q.body := by
  apply String.toList_injective
  rw [toList_body, toList_body, h.chars_eq]

theorem origin?_eq (h : p.SameMessage q) : p.origin? = q.origin? := by
  obtain ⟨a, as, b, bs, hp, hq, horigin, -⟩ := h.envelope
  rw [origin?, origin?, hp, hq]
  exact congrArg some horigin

theorem messageClass_eq (h : p.SameMessage q) : p.messageClass = q.messageClass := by
  obtain ⟨a, as, b, bs, hp, hq, -, hclass⟩ := h.envelope
  rw [messageClass, messageClass, hp, hq]
  exact hclass

/-- **No exemption hangs on the cut.** -/
theorem exemption?_eq (h : p.SameMessage q) : exemption? p = exemption? q := by
  rw [exemption?, exemption?, h.origin?_eq, h.messageClass_eq, h.body_eq]

/-- **Neither does the verdict**, nor whether anybody is asked about the import. -/
theorem screen_eq (h : p.SameMessage q) (s : Switches) : screen s p = screen s q := by
  rw [screen, screen, h.exemption?_eq, h.body_eq]

end Payload.SameMessage

end Intake

namespace Vault

/-! ## One operation -/

/-- The operations are the same, or hand in payloads that carry one message. -/
inductive Op.Recut : Op → Op → Prop
  | same (op : Op) : Recut op op
  | receive {p q : Payload} (h : p.SameMessage q) : Recut (.receive p) (.receive q)

/-- The outcomes are the same, or hand on payloads that carry one message. -/
inductive Outcome.Recut : Outcome → Outcome → Prop
  | same (outcome : Outcome) : Recut outcome outcome
  | enqueue {p q : Payload} (disposition : Option Disposition) (h : p.SameMessage q) :
    Recut ⟨disposition, [.call (.enqueue p)]⟩ ⟨disposition, [.call (.enqueue q)]⟩

variable {op op' : Op} {ops ops' : List Op}

/-- What a verdict asks for differs at most in the cut of what is handed on. -/
theorem recut_actsOf {p q : Payload} (h : p.SameMessage q) (disposition : Option Disposition)
    (verdict : Verdict) :
    Outcome.Recut ⟨disposition, actsOf p verdict⟩ ⟨disposition, actsOf q verdict⟩ := by
  cases verdict with
  | relevant => exact .enqueue disposition h
  | _ => exact .same _

/-- The bus is told the verdict and not the payload. -/
theorem events_actsOf (p q : Payload) (verdict : Verdict) :
    events (actsOf p verdict) = events (actsOf q verdict) := by
  cases verdict with
  | _ => rfl

theorem hostCalls_actsOf (p : Payload) (verdict : Verdict) :
    hostCalls (actsOf p verdict) = if verdict = .relevant then [.enqueue p] else [] := by
  cases verdict with
  | _ => rfl

/-- So they get the same verdict under the same terms. -/
theorem verdict_eq {p q : Payload} (h : p.SameMessage q) (t : Terms) : t.verdict p = t.verdict q := by
  rw [Terms.verdict, Terms.verdict, h.screen_eq]

/-- **An operation goes by the message**, and hands it on in the cut in which it came. -/
theorem recut_step (v : Vault) (h : op.Recut op') :
    (v.step op).1 = (v.step op').1 ∧ (v.step op).2.Recut (v.step op').2 := by
  cases h with
  | same op => exact ⟨rfl, .same _⟩
  | @receive p q h =>
    rw [outcome_receive, outcome_receive, verdict_eq h]
    refine ⟨?_, recut_actsOf h _ _⟩
    show v.publishAll (actsOf p (v.terms.verdict p)) = v.publishAll (actsOf q (v.terms.verdict q))
    rw [verdict_eq h, publishAll, publishAll, events_actsOf p q]

/-! ## A run -/

/-- **So does a run.** -/
theorem recut_run (h : List.Forall₂ Op.Recut ops ops') (v : Vault) :
    (v.run ops).1 = (v.run ops').1 ∧ List.Forall₂ Outcome.Recut (v.run ops).2 (v.run ops').2 := by
  induction h generalizing v with
  | nil => exact ⟨rfl, .nil⟩
  | cons hop _ ih =>
    obtain ⟨hstate, houtcome⟩ := v.recut_step hop
    rw [run_cons, run_cons, hstate]
    obtain ⟨hend, houtcomes⟩ := ih (v.step _).1
    exact ⟨hend, .cons houtcome houtcomes⟩

/-- **How a message is cut does not matter.** Take any two payloads whose first parts have the same origin and
class and whose parts make up the same text, cut wherever it may be, with empty parts anywhere and any
origins and classes on the later ones. Under any switches they have the same exemption, the same verdict for
either answer about the import, and the question is put equally often. A vault tells the transport the same,
publishes the same code if there is one, and ends up in the same state; what it enqueues is the payload as it
came. So runs whose payloads are cut in different ways differ in nothing but the cut of what they enqueue. -/
theorem cut_irrelevant {p q : Payload} (h : p.SameMessage q) (s : Switches) (imported : Bool)
    (v : Vault) :
    verdict s imported p = verdict s imported q ∧
    (screen s p).questions = (screen s q).questions ∧
    exemption? p = exemption? q ∧
    (v.receive p).2.1 = (v.receive q).2.1 ∧
    events (v.receive p).2.2 = events (v.receive q).2.2 ∧
    (v.receive p).1 = (v.receive q).1 ∧
    hostCalls (v.receive p).2.2 =
      (if verdict v.switches v.imported p = .relevant then [.enqueue p] else []) ∧
    hostCalls (v.receive q).2.2 =
      (if verdict v.switches v.imported p = .relevant then [.enqueue q] else []) ∧
    ∀ ops ops', List.Forall₂ Op.Recut ops ops' →
      (v.run ops).1 = (v.run ops').1 ∧
        List.Forall₂ Outcome.Recut (v.run ops).2 (v.run ops').2 := by
  have hscreen : screen s p = screen s q := h.screen_eq s
  have hverdict : v.terms.verdict p = v.terms.verdict q := verdict_eq h v.terms
  refine ⟨?_, by rw [hscreen], h.exemption?_eq, ?_, ?_, (v.recut_step (.receive h)).1,
    hostCalls_actsOf p _, ?_, fun ops ops' hops => v.recut_run hops⟩
  · rw [verdict, verdict, hscreen]
  · show (v.terms.verdict p).disposition = (v.terms.verdict q).disposition
    rw [hverdict]
  · show events (actsOf p (v.terms.verdict p)) = events (actsOf q (v.terms.verdict q))
    rw [hverdict, events_actsOf p q]
  · show hostCalls (actsOf q (v.terms.verdict q)) = if v.terms.verdict p = .relevant then _ else _
    rw [hostCalls_actsOf, hverdict]

/-- A control message of a carrier that is cut in its mark, and a code that is cut in its wording and in its
digits. -/
theorem cut_irrelevant_challenge :
    let control : Payload := ⟨[⟨"12345", "//BR", .class1⟩, ⟨"+15551234567", "", .flash⟩, ⟨"", "EW:9", .class2⟩]⟩
    let control' : Payload := ⟨[⟨"12345", "//BREW:9", .class1⟩]⟩
    let registration : Payload :=
      ⟨[⟨"+1555", "Your TextSecure verifi", .unspecified⟩, ⟨"", "cation code: 12", .flash⟩,
        ⟨"+1555", "3-4567", .unspecified⟩]⟩
    let registration' := Payload.single "+1555" "Your TextSecure verification code: 123-4567"
    let v : Vault := { ofSettings {} with switches := { awaitingVerification := true } }
    control.SameMessage control' ∧ verdict {} true control = .exempt .vendorControl ∧
    registration.SameMessage registration' ∧ (v.receive registration).2.1 = .aborted ∧
      events (v.receive registration).2.2 = [.challengeReceived "1234567"] := by
  intro control control' registration registration' v
  have hcontrol : control.SameMessage control' := ⟨⟨_, _, _, _, rfl, rfl, rfl, rfl⟩, by decide⟩
  have hregistration : registration.SameMessage registration' :=
    ⟨⟨_, _, _, _, rfl, rfl, rfl, rfl⟩, by decide⟩
  obtain ⟨hverdict, -⟩ := cut_irrelevant hcontrol {} true v
  obtain ⟨-, -, -, hdisposition, hevents, -⟩ := cut_irrelevant hregistration {} true v
  refine ⟨hcontrol, hverdict.trans (by decide +kernel), hregistration,
    hdisposition.trans (by decide +kernel), hevents.trans (by decide +kernel)⟩

end Vault

end TextVault
