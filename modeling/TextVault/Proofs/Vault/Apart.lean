import TextVault.Proofs.Vault.Inbound

/-
  The key cache and the intake keep out of each other's way.

  Problem: both share a bus, a pipeline and the state of the migration, and what is done to one comes in
  between what is done to the other. Neither may notice.

  Program: `Interleaves` says that operations are those on the key cache and those on the intake, each in
  their order. `Splits` says that of the acts of such a run the ones of each half are those of its own.

  Spec: one operation adds to one half alone (`Splits.keys`, `Splits.intake`), and what it does hangs on its
  own half of the vault, so a run does what two runs would do that never met (`splits_run`).
-/
namespace TextVault

open Intake

namespace HostCall

/-- Whether a payload is handed on; all other calls are about the credential. -/
def isEnqueue : HostCall → Bool
  | enqueue _ => true
  | _ => false

end HostCall

namespace Event

/-- Whether a code is handed on; all other events are about the credential. -/
def isChallenge : Event → Bool
  | challengeReceived _ => true
  | _ => false

end Event

/-- Only calls that enqueue tell what is enqueued. -/
theorem enqueued_filter (calls : List HostCall) :
    enqueued (calls.filter (·.isEnqueue)) = enqueued calls := by
  induction calls with
  | nil => rfl
  | cons c calls ih =>
    cases c with
    | enqueue p => exact congrArg (p :: ·) ih
    | _ => exact ih

/-- Acts that are none of the intake are about the credential. -/
theorem NotIntake.about_credential {acts : List Act} (h : NotIntake acts) :
    (∀ c ∈ hostCalls acts, c.isEnqueue = false) ∧ ∀ e ∈ events acts, e.isChallenge = false := by
  refine ⟨fun c hc => ?_, fun e he => ?_⟩
  · have hnone := List.filterMap_eq_nil_iff.mp h.enqueued c hc
    cases c with
    | enqueue p => nomatch hnone
    | _ => rfl
  · have hnone := List.filterMap_eq_nil_iff.mp h.codes e he
    cases e with
    | challengeReceived code => nomatch hnone
    | _ => rfl

namespace Vault

/-- The operations are those on the key cache and the other ones, both in order. -/
inductive Interleaves : List KeyCache.Op → List Op → List Op → Prop
  | nil : Interleaves [] [] []
  | keys {xs : List KeyCache.Op} {ys ops : List Op} (op : KeyCache.Op) :
      Interleaves xs ys ops → Interleaves (op :: xs) ys (.keys op :: ops)
  | intake {xs : List KeyCache.Op} {ys ops : List Op} {op : Op} :
      op.key? = none → Interleaves xs ys ops → Interleaves xs (op :: ys) (op :: ops)

/-! ## The acts of each half -/

/-- Of the acts of both, what is about the credential are the acts of the one half, and the rest are those of
the other. -/
structure Splits (both lifecycle intake : List Act) : Prop where
  lifecycleCalls : (hostCalls both).filter (!·.isEnqueue) = hostCalls lifecycle
  intakeCalls : (hostCalls both).filter (·.isEnqueue) = hostCalls intake
  lifecycleEvents : (events both).filter (!·.isChallenge) = events lifecycle
  intakeEvents : (events both).filter (·.isChallenge) = events intake

namespace Splits

variable {both lifecycle intake both' lifecycle' intake' : List Act}

/-- What splits stretch by stretch splits as a whole. -/
theorem append (h : Splits both lifecycle intake) (h' : Splits both' lifecycle' intake') :
    Splits (both ++ both') (lifecycle ++ lifecycle') (intake ++ intake') where
  lifecycleCalls := by
    rw [hostCalls_append, hostCalls_append, List.filter_append, h.lifecycleCalls, h'.lifecycleCalls]
  intakeCalls := by
    rw [hostCalls_append, hostCalls_append, List.filter_append, h.intakeCalls, h'.intakeCalls]
  lifecycleEvents := by
    rw [events_append, events_append, List.filter_append, h.lifecycleEvents, h'.lifecycleEvents]
  intakeEvents := by
    rw [events_append, events_append, List.filter_append, h.intakeEvents, h'.intakeEvents]

/-- The key cache acts for its own half alone. -/
theorem keys {acts : List Act} (h : NotIntake acts) : Splits acts acts [] := by
  obtain ⟨hcalls, hevents⟩ := h.about_credential
  refine ⟨?_, ?_, ?_, ?_⟩
  · exact List.filter_eq_self.mpr fun c hc => by rw [hcalls c hc]; rfl
  · exact List.filter_eq_nil_iff.mpr fun c hc => by rw [hcalls c hc]; exact Bool.false_ne_true
  · exact List.filter_eq_self.mpr fun e he => by rw [hevents e he]; rfl
  · exact List.filter_eq_nil_iff.mpr fun e he => by rw [hevents e he]; exact Bool.false_ne_true

/-- So does the intake. -/
theorem intake_step (v : Vault) {op : Op} (h : op.key? = none) :
    Splits (v.step op).2.acts [] (v.step op).2.acts := by
  cases op with
  | keys op => nomatch h
  | receive p =>
    rw [outcome_receive]
    cases v.terms.verdict p with
    | _ => exact ⟨rfl, rfl, rfl, rfl⟩
  | _ => exact ⟨rfl, rfl, rfl, rfl⟩

end Splits

/-! ## One operation -/

/-- The key cache gives no disposition, and what it does hangs on itself alone. -/
theorem outcome_keys (v : Vault) (op : KeyCache.Op) :
    (v.step (.keys op)).2 = { acts := (v.keys.step op).2 } := rfl

theorem terms_keys (v : Vault) (op : KeyCache.Op) : (v.step (.keys op)).1.terms = v.terms := rfl

/-- Operations of the intake leave the key cache alone. -/
theorem keys_intake (v : Vault) {op : Op} (h : op.key? = none) : (v.step op).1.keys = v.keys := by
  rw [keys_step, h]
  rfl

/-- What the intake does hangs on the terms alone. -/
theorem outcome_intake {v w : Vault} (hterms : v.terms = w.terms) {op : Op} (h : op.key? = none) :
    (v.step op).2 = (w.step op).2 := by
  cases op with
  | keys op => nomatch h
  | receive p => rw [outcome_receive, outcome_receive, hterms]
  | _ => rfl

/-! ## A run -/

theorem actsOfAll_cons (outcome : Outcome) (outcomes : List Outcome) :
    actsOfAll (outcome :: outcomes) = outcome.acts ++ actsOfAll outcomes := rfl

section Run

variable {xs : List KeyCache.Op} {ys ops : List Op}

/-- **A run does what two runs would do that never met**, of a vault with its key cache and of one with its
terms. -/
theorem splits_run (h : Interleaves xs ys ops) {v a b : Vault} (hkeys : v.keys = a.keys)
    (hterms : v.terms = b.terms) :
    (v.run ops).1.keys = (a.run (xs.map .keys)).1.keys ∧
    (v.run ops).1.terms = (b.run ys).1.terms ∧
    (v.run ops).2.filterMap Outcome.disposition = (b.run ys).2.filterMap Outcome.disposition ∧
    Splits (actsOfAll (v.run ops).2) (actsOfAll (a.run (xs.map .keys)).2)
      (actsOfAll (b.run ys).2) := by
  induction h generalizing v a b with
  | nil => exact ⟨hkeys, hterms, rfl, ⟨rfl, rfl, rfl, rfl⟩⟩
  | keys op h ih =>
    -- The other half stands still meanwhile.
    have hkeys' : (v.step (.keys op)).1.keys = (a.step (.keys op)).1.keys := by
      rw [keys_step, keys_step, hkeys]
    obtain ⟨hk, ht, hd, hs⟩ := ih hkeys' ((terms_keys v op).trans hterms)
    have hacts : (v.step (.keys op)).2 = (a.step (.keys op)).2 := by
      rw [outcome_keys, outcome_keys, hkeys]
    rw [List.map_cons, run_cons, run_cons]
    refine ⟨hk, ht, hd, ?_⟩
    rw [actsOfAll_cons, actsOfAll_cons, ← hacts]
    exact (Splits.keys (v.keys.notIntake_step op)).append hs
  | @intake _ _ _ op hop h ih =>
    have hterms' : (v.step op).1.terms = (b.step op).1.terms := by
      rw [terms_step, terms_step, hterms]
    obtain ⟨hk, ht, hd, hs⟩ := ih ((keys_intake v hop).trans hkeys) hterms'
    have houtcome := outcome_intake hterms hop
    rw [run_cons, run_cons]
    refine ⟨hk, ht, ?_, ?_⟩
    · rw [List.filterMap_cons, List.filterMap_cons, houtcome, hd]
    · rw [actsOfAll_cons, actsOfAll_cons, ← houtcome]
      exact (Splits.intake_step v hop).append hs

/-- **The key cache and the intake do not interfere.** Of every vault, take any operations on its key cache,
any on its intake, and any way to do both in turns. The key cache, its secrets and its alarms end up as
without the intake, and the drains, refreshes, raises and lowers are the same. The terms end up as without the
key cache, and the payloads handed on and what the transport is told are the same. The bus carries the events
of both, those on the credential as without the intake and the codes as without the key cache. -/
theorem apart_of_run (v : Vault) (h : Interleaves xs ys ops) :
    let both := v.run ops
    let lifecycle := v.run (xs.map .keys)
    let intake := v.run ys
    let calls (outcomes : List Outcome) := hostCalls (actsOfAll outcomes)
    let published (outcomes : List Outcome) := events (actsOfAll outcomes)
    both.1.keys = lifecycle.1.keys ∧
    (calls both.2).filter (!·.isEnqueue) = calls lifecycle.2 ∧
    both.1.terms = intake.1.terms ∧
    (calls both.2).filter (·.isEnqueue) = calls intake.2 ∧
    enqueued (calls both.2) = enqueued (calls intake.2) ∧
    both.2.filterMap Outcome.disposition = intake.2.filterMap Outcome.disposition ∧
    both.1.bus = (published both.2).foldl Channel.publish v.bus ∧
    (published both.2).filter (!·.isChallenge) = published lifecycle.2 ∧
    (published both.2).filter (·.isChallenge) = published intake.2 := by
  intro both lifecycle intake calls published
  obtain ⟨hkeys, hterms, hdispositions, hsplits⟩ := splits_run h (v := v) rfl rfl
  refine ⟨hkeys, hsplits.lifecycleCalls, hterms, hsplits.intakeCalls, ?_, hdispositions, v.bus_run ops,
    hsplits.lifecycleEvents, hsplits.intakeEvents⟩
  show enqueued (hostCalls (actsOfAll (v.run ops).2)) = enqueued (hostCalls (actsOfAll (v.run ys).2))
  rw [← enqueued_filter (hostCalls (actsOfAll (v.run ops).2)), hsplits.intakeCalls]

end Run

/-- A code comes between an unlock and a lock, and a plain message after the intake was told to leave those
alone. -/
theorem apart_of_run_turns :
    let registration := Payload.single "+15551234567" "Your TextSecure verification code: 123-4567"
    let plain := Payload.single "+15551234567" "lunch?"
    let xs : List KeyCache.Op := [.create [7], .install ⟨0⟩, .evict]
    let ys : List Op := [.setAwaitingVerification true, .receive registration, .setAcceptAll false,
      .receive plain]
    let ops : List Op := [.keys (.create [7]), .setAwaitingVerification true, .keys (.install ⟨0⟩),
      .receive registration, .setAcceptAll false, .keys .evict, .receive plain]
    let v : Vault := .ofSettings {}
    Interleaves xs ys ops ∧ (v.run ops).1.keys = (v.run (xs.map .keys)).1.keys ∧
      (v.run ops).2.filterMap Outcome.disposition = (v.run ys).2.filterMap Outcome.disposition ∧
      (events (actsOfAll (v.run ops).2)).filter (!·.isChallenge) =
        [.credentialInstalled ⟨0⟩, .credentialCleared] := by
  intro registration plain xs ys ops v
  have h : Interleaves xs ys ops :=
    .keys _ (.intake rfl (.keys _ (.intake rfl (.intake rfl (.keys _ (.intake rfl .nil))))))
  obtain ⟨hkeys, -, -, -, -, hdispositions, -, hevents, -⟩ := apart_of_run v h
  exact ⟨h, hkeys, hdispositions, hevents.trans (by decide)⟩

end Vault

end TextVault
