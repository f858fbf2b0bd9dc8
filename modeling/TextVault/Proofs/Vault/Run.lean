import TextVault.Proofs.Key.Run
import TextVault.Vault.Basic

/-
  Runs of a vault.

  Problem: the key cache and the intake of a vault are used in turns. What is known of each by itself is to
  hold for the vault, whatever is done to the other in between.

  Program: `Vault.Op` is what can be done to either, and `Vault.run` does operations one after another.
  `Terms` is all that the verdict on a payload hangs on.

  Spec: the key cache of a run is that of its own operations (`keys_run`), the terms are those last set
  (`terms_run`), and the bus carries the events among the acts (`bus_run`). The bus has no say in any of it
  (`outcomes_congr`).
-/
namespace TextVault

open Intake

/-- What the intake goes by. -/
structure Terms where
  switches : Switches
  imported : Bool

namespace Terms

/-- The verdict on a payload. -/
def verdict (t : Terms) (p : Payload) : Verdict := (screen t.switches p).resolve t.imported

end Terms

namespace Vault

/-- What can be done to the key cache and the intake of a vault. -/
inductive Op where
  | keys (op : KeyCache.Op)
  | receive (p : Payload)
  | setAcceptAll (on : Bool)
  | setAwaitingVerification (on : Bool)
  | setImported (on : Bool)

/-- What an operation asks of the key cache. -/
def Op.key? : Op → Option KeyCache.Op
  | keys op => some op
  | _ => none

/-- The payload that an operation hands in. -/
def Op.payload? : Op → Option Payload
  | receive p => some p
  | _ => none

/-- What comes of an operation. -/
structure Outcome where
  /-- What the transport is told of a payload. -/
  disposition : Option Disposition := none
  acts : List Act := []
  deriving DecidableEq

/-- Does one operation, with the acts and what the transport is told. -/
def step (v : Vault) : Op → Vault × Outcome
  | .keys op => ((v.onKeys op).1, { acts := (v.onKeys op).2 })
  | .receive p =>
    let (v, disposition, acts) := v.receive p
    (v, { disposition := some disposition, acts })
  | .setAcceptAll on => (v.setAcceptAll on, {})
  | .setAwaitingVerification on => (v.setAwaitingVerification on, {})
  | .setImported on => ({ v with imported := on }, {})

/-- Does operations one after another; gives what comes of each. -/
def run (v : Vault) : List Op → Vault × List Outcome
  | [] => (v, [])
  | op :: ops =>
    let (v, outcome) := v.step op
    let (v, outcomes) := v.run ops
    (v, outcome :: outcomes)

/-- All acts of a run, in order. -/
def actsOfAll (outcomes : List Outcome) : List Act := outcomes.flatMap Outcome.acts

/-- The terms in force. -/
def terms (v : Vault) : Terms := ⟨v.switches, v.imported⟩

end Vault

/-- The terms after an operation. Only the settings and the import have a say in them. -/
def Terms.after (t : Terms) : Vault.Op → Terms
  | .keys _ => t
  | .receive _ => t
  | .setAcceptAll on => { t with switches := { t.switches with acceptAll := on } }
  | .setAwaitingVerification on =>
    { t with switches := { t.switches with awaitingVerification := on } }
  | .setImported on => { t with imported := on }

namespace Vault

theorem run_cons (v : Vault) (op : Op) (ops : List Op) :
    v.run (op :: ops) = (((v.step op).1.run ops).1, (v.step op).2 :: ((v.step op).1.run ops).2) := rfl

/-! ## One operation -/

/-- What comes of a payload hangs on the terms alone. -/
theorem outcome_receive (v : Vault) (p : Payload) :
    (v.step (.receive p)).2 =
      ⟨some (v.terms.verdict p).disposition, actsOf p (v.terms.verdict p)⟩ := rfl

/-- Only what is asked of the key cache changes it. -/
theorem keys_step (v : Vault) (op : Op) : (v.step op).1.keys = (v.keys.run op.key?.toList).1 := by
  cases op with
  | _ => rfl

theorem terms_step (v : Vault) (op : Op) : (v.step op).1.terms = v.terms.after op := by
  cases op with
  | _ => rfl

/-- Whatever an operation publishes is on the bus when it is over, in order. -/
theorem bus_step (v : Vault) (op : Op) :
    (v.step op).1.bus = (events (v.step op).2.acts).foldl Channel.publish v.bus := by
  cases op with
  | _ => rfl

/-- The bus has no say in what comes of an operation. -/
theorem outcome_congr {v w : Vault} (hkeys : v.keys = w.keys) (hterms : v.terms = w.terms) (op : Op) :
    (v.step op).2 = (w.step op).2 := by
  cases op with
  | keys op =>
    show (⟨none, (v.keys.step op).2⟩ : Outcome) = ⟨none, (w.keys.step op).2⟩
    rw [hkeys]
  | receive p => rw [outcome_receive, outcome_receive, hterms]
  | _ => rfl

/-! ## A run -/

/-- **The key cache of a vault does nothing but its own operations.** -/
theorem keys_run (v : Vault) (ops : List Op) :
    (v.run ops).1.keys = (v.keys.run (ops.filterMap Op.key?)).1 := by
  induction ops generalizing v with
  | nil => rfl
  | cons op ops ih =>
    rw [run_cons, ih, keys_step, List.filterMap_cons]
    cases op.key? with
    | none => rfl
    | some keyOp => rfl

theorem terms_run (v : Vault) (ops : List Op) : (v.run ops).1.terms = ops.foldl Terms.after v.terms := by
  induction ops generalizing v with
  | nil => rfl
  | cons op ops ih => rw [run_cons, ih, terms_step, List.foldl_cons]

/-- The bus of a vault changes by the events among its acts, and by nothing else. -/
theorem bus_run (v : Vault) (ops : List Op) :
    (v.run ops).1.bus = (events (actsOfAll (v.run ops).2)).foldl Channel.publish v.bus := by
  induction ops generalizing v with
  | nil => rfl
  | cons op ops ih =>
    rw [run_cons, ih, bus_step, actsOfAll, actsOfAll, List.flatMap_cons, events_append,
      List.foldl_append]

/-- **What comes of a run hangs on the key cache and the terms alone.** -/
theorem outcomes_congr {v w : Vault} (hkeys : v.keys = w.keys) (hterms : v.terms = w.terms)
    (ops : List Op) : (v.run ops).2 = (w.run ops).2 := by
  induction ops generalizing v w with
  | nil => rfl
  | cons op ops ih =>
    have hkeys' : (v.step op).1.keys = (w.step op).1.keys := by rw [keys_step, keys_step, hkeys]
    have hterms' : (v.step op).1.terms = (w.step op).1.terms := by
      rw [terms_step, terms_step, hterms]
    rw [run_cons, run_cons, outcome_congr hkeys hterms, ih hkeys' hterms']

end Vault

end TextVault
