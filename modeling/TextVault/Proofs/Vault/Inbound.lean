import TextVault.Proofs.Vault.Run

/-
  What becomes of inbound payloads.

  Problem: a payload that is claimed and not handed on is lost, and one that is handed on and not claimed
  arrives twice. The switches and the import may change between any two payloads, and the key cache shares
  the bus and the collaborators with the intake.

  Program: `Outcome.ofVerdict` is the table of what can become of a payload. `Terms.verdicts` goes through the
  operations of a run and screens each payload on the terms in force then. `receipts` reads off a run what
  came of its payloads.

  Spec: what comes of the payloads of a run is the table applied to the verdicts, one by one
  (`follows_run`). The key cache hands nothing to the pipeline and publishes no code
  (`KeyCache.notIntake_step`), so what was enqueued and which codes were published is read off the verdicts
  as well.
-/
namespace TextVault

open Intake

/-- The payloads handed to the pipeline. -/
def enqueued (calls : List HostCall) : List Payload :=
  calls.filterMap fun
    | .enqueue p => some p
    | _ => none

/-- The registration codes published. -/
def codes (es : List Event) : List String :=
  es.filterMap fun
    | .challengeReceived code => some code
    | _ => none

@[simp] theorem enqueued_append (xs ys : List HostCall) :
    enqueued (xs ++ ys) = enqueued xs ++ enqueued ys := List.filterMap_append

@[simp] theorem codes_append (xs ys : List Event) : codes (xs ++ ys) = codes xs ++ codes ys :=
  List.filterMap_append

/-! ## The key cache does none of it -/

/-- None of the acts is one of the intake. -/
structure NotIntake (acts : List Act) : Prop where
  enqueued : TextVault.enqueued (hostCalls acts) = []
  codes : TextVault.codes (events acts) = []

/-- Acts that are none of the intake stay so together. -/
theorem NotIntake.append {xs ys : List Act} (hx : NotIntake xs) (hy : NotIntake ys) :
    NotIntake (xs ++ ys) where
  enqueued := by rw [hostCalls_append, enqueued_append, hx.enqueued, hy.enqueued]; rfl
  codes := by rw [events_append, codes_append, hx.codes, hy.codes]; rfl

namespace KeyCache

/-- An install drains what has been queued but queues nothing. -/
theorem notIntake_install (k : KeyCache) (c : Credential) : NotIntake (k.install c).2 := by
  rw [install]
  split
  · exact ⟨rfl, rfl⟩
  · dsimp only
    split
    · exact ⟨rfl, rfl⟩
    · exact ⟨rfl, rfl⟩

/-- Nor does a callback. -/
theorem notIntake_onAlarm (k : KeyCache) (number : Nat) : NotIntake (k.onAlarm number).2 := by
  rw [onAlarm]
  split
  · split
    · dsimp only
      split
      · exact ⟨rfl, rfl⟩
      · exact ⟨rfl, rfl⟩
    · exact ⟨rfl, rfl⟩
  · exact ⟨rfl, rfl⟩

theorem notIntake_fire (k : KeyCache) (id : AlarmId) : NotIntake (k.fire id).2 := by
  rw [fire]
  split
  · dsimp only
    split
    · exact notIntake_onAlarm _ _
    · exact ⟨rfl, rfl⟩
  · exact ⟨rfl, rfl⟩

theorem notIntake_fireAll (k : KeyCache) (ids : List AlarmId) : NotIntake (k.fireAll ids).2 := by
  induction ids generalizing k with
  | nil => exact ⟨rfl, rfl⟩
  | cons id ids ih => exact (k.notIntake_fire id).append (ih (k.fire id).1)

/-- **The key cache does nothing that the intake does.** -/
theorem notIntake_step (k : KeyCache) (op : Op) : NotIntake (k.step op).2 := by
  cases op with
  | install c => exact k.notIntake_install c
  | hideSurface =>
    show NotIntake k.hideSurface.2
    rw [hideSurface]
    dsimp only
    split
    · exact ⟨rfl, rfl⟩
    · exact ⟨rfl, rfl⟩
  | fire id => exact k.notIntake_fire id
  | advance ticks => exact notIntake_fireAll _ _
  | _ => exact ⟨rfl, rfl⟩

end KeyCache

/-! ## The verdicts of a run -/

/-- The payloads found relevant. -/
def relevant (verdicts : List (Payload × Verdict)) : List Payload :=
  verdicts.filterMap fun
    | (p, .relevant) => some p
    | _ => none

/-- The codes found in payloads. -/
def codesFound (verdicts : List (Payload × Verdict)) : List String :=
  verdicts.filterMap fun
    | (_, .challenge code) => some code
    | _ => none

namespace Terms

/-- The payload that an operation hands in, with the verdict on it. -/
def verdictBy (t : Terms) (op : Vault.Op) : List (Payload × Verdict) :=
  op.payload?.toList.map fun p => (p, t.verdict p)

/-- The payloads that operations hand in, each with the verdict on the terms in force then. -/
def verdicts (t : Terms) : List Vault.Op → List (Payload × Verdict)
  | [] => []
  | op :: ops => t.verdictBy op ++ (t.after op).verdicts ops

/-- Every payload gets one verdict. -/
theorem map_fst_verdicts (t : Terms) (ops : List Vault.Op) :
    (t.verdicts ops).map Prod.fst = ops.filterMap Vault.Op.payload? := by
  induction ops generalizing t with
  | nil => rfl
  | cons op ops ih =>
    rw [verdicts, List.map_append, ih, verdictBy, List.filterMap_cons]
    cases op.payload? with
    | none => rfl
    | some p => rfl

/-- Handing in a payload leaves the terms as they are. -/
theorem foldl_after (t : Terms) (ops : List Vault.Op) :
    ops.foldl after t = (ops.filter fun op => op.payload?.isNone).foldl after t := by
  induction ops generalizing t with
  | nil => rfl
  | cons op ops ih =>
    rw [List.foldl_cons, ih]
    cases op with
    | _ => rfl

end Terms

namespace Vault

/-! ## What comes of payloads -/

/-- What can become of a payload. -/
def Outcome.ofVerdict (p : Payload) : Verdict → Outcome
  | .relevant => { disposition := some .aborted, acts := [.call (.enqueue p)] }
  | .challenge code => { disposition := some .aborted, acts := [.publish (.challengeReceived code)] }
  | .exempt _ => { disposition := some .passThrough, acts := [] }

/-- What came of the payloads that operations handed in. -/
def receipts (ops : List Op) (outcomes : List Outcome) : List (Payload × Outcome) :=
  (ops.zip outcomes).filterMap fun x => x.1.payload?.map fun p => (p, x.2)

/-- What came of payloads is what the verdicts on them make of them, and nothing else came of the rest. -/
structure Follows (received : List (Payload × Outcome)) (acts : List Act)
    (verdicts : List (Payload × Verdict)) : Prop where
  receipts : received = verdicts.map fun x => (x.1, .ofVerdict x.1 x.2)
  enqueued : TextVault.enqueued (hostCalls acts) = relevant verdicts
  codes : TextVault.codes (events acts) = codesFound verdicts

namespace Follows

variable {received more : List (Payload × Outcome)} {acts bs : List Act}
variable {verdicts ws : List (Payload × Verdict)}

/-- What follows the verdicts in two stretches follows them throughout. -/
theorem append (h : Follows received acts verdicts) (h' : Follows more bs ws) :
    Follows (received ++ more) (acts ++ bs) (verdicts ++ ws) where
  receipts := by rw [h.receipts, h'.receipts, List.map_append]
  enqueued := by
    rw [hostCalls_append, enqueued_append, h.enqueued, h'.enqueued]
    exact List.filterMap_append.symm
  codes := by
    rw [events_append, codes_append, h.codes, h'.codes]
    exact List.filterMap_append.symm

/-- What is claimed is handed on, to the pipeline or to the bus, and only that. -/
theorem countP_aborted (h : Follows received acts verdicts) :
    received.countP (·.2.disposition == some .aborted) =
      (TextVault.enqueued (hostCalls acts)).length + (TextVault.codes (events acts)).length := by
  rw [h.receipts, h.enqueued, h.codes]
  clear h
  induction verdicts with
  | nil => rfl
  | cons x verdicts ih =>
    obtain ⟨p, verdict⟩ := x
    rw [List.map_cons, List.countP_cons, ih, relevant, relevant, codesFound, codesFound]
    cases verdict with
    | relevant => exact Nat.add_right_comm _ _ 1
    | challenge code => rfl
    | exempt reason => rfl

end Follows

/-- **One payload, one outcome**: it is the one that the table has for the verdict on the terms in force. -/
theorem receive_eq_ofVerdict (v : Vault) (p : Payload) :
    (v.step (.receive p)).2 = .ofVerdict p (v.terms.verdict p) := by
  rw [outcome_receive]
  cases v.terms.verdict p with
  | _ => rfl

/-- An operation that hands nothing in does nothing that the intake does. -/
theorem notIntake_step (v : Vault) {op : Op} (h : op.payload? = none) :
    NotIntake (v.step op).2.acts := by
  cases op with
  | keys op => exact v.keys.notIntake_step op
  | receive p => nomatch h
  | _ => exact ⟨rfl, rfl⟩

/-- **One operation does what the verdict says**, if it hands in a payload. -/
theorem follows_step (v : Vault) (op : Op) :
    Follows (receipts [op] [(v.step op).2]) (v.step op).2.acts (v.terms.verdictBy op) := by
  cases hp : op.payload? with
  | none =>
    have hnot := v.notIntake_step hp
    have hreceipts : receipts [op] [(v.step op).2] = [] := by
      rw [receipts, List.zip_cons_cons, List.filterMap_cons, hp]
      rfl
    rw [hreceipts, Terms.verdictBy, hp]
    exact ⟨rfl, hnot.enqueued, hnot.codes⟩
  | some p =>
    obtain rfl : op = .receive p := by
      cases op with
      | receive q => exact congrArg Op.receive (Option.some.inj hp)
      | _ => nomatch hp
    rw [receive_eq_ofVerdict]
    show Follows [(p, .ofVerdict p (v.terms.verdict p))] _ [(p, v.terms.verdict p)]
    cases v.terms.verdict p with
    | _ => exact ⟨rfl, rfl, rfl⟩

/-- The receipts of a run are those of its operations in order. -/
theorem receipts_cons (op : Op) (ops : List Op) (outcome : Outcome) (outcomes : List Outcome) :
    receipts (op :: ops) (outcome :: outcomes) = receipts [op] [outcome] ++ receipts ops outcomes := by
  rw [receipts, receipts, receipts, ← List.filterMap_append]
  rfl

/-- **A run does what the verdicts say.** -/
theorem follows_run (v : Vault) (ops : List Op) :
    Follows (receipts ops (v.run ops).2) (actsOfAll (v.run ops).2) (v.terms.verdicts ops) := by
  induction ops generalizing v with
  | nil => exact ⟨rfl, rfl, rfl⟩
  | cons op ops ih =>
    have hrest := ih (v.step op).1
    rw [terms_step] at hrest
    rw [run_cons, receipts_cons, actsOfAll, List.flatMap_cons, Terms.verdicts]
    exact (v.follows_step op).append hrest

/-- **No payload is lost and none comes twice.** Whatever the settings are changed to between payloads, and
whatever is done to the key cache meanwhile: each payload is enqueued as it is and claimed, or its code is
published and it is claimed, or it is left alone and passed through, as the verdict has it on the terms in
force then. So the payloads enqueued and the codes published are those found, in order, and there are as many
of them as payloads claimed. A payload leaves the terms alone, and what comes after it would come without
it. -/
theorem handled_of_run (v : Vault) (ops : List Op) :
    let outcomes := (v.run ops).2
    let acts := actsOfAll outcomes
    let verdicts := v.terms.verdicts ops
    receipts ops outcomes = verdicts.map (fun x => (x.1, .ofVerdict x.1 x.2)) ∧
    verdicts.map Prod.fst = ops.filterMap Op.payload? ∧
    enqueued (hostCalls acts) = relevant verdicts ∧
    codes (events acts) = codesFound verdicts ∧
    (receipts ops outcomes).countP (·.2.disposition == some .aborted) =
      (enqueued (hostCalls acts)).length + (codes (events acts)).length ∧
    (v.run ops).1.bus = (events acts).foldl Channel.publish v.bus ∧
    (v.run ops).1.terms =
      (ops.filter fun op => op.payload?.isNone).foldl Terms.after v.terms ∧
    ∀ p later, (((v.run ops).1.step (.receive p)).1.run later).2 = ((v.run ops).1.run later).2 := by
  intro outcomes acts verdicts
  have hfollows := v.follows_run ops
  refine ⟨hfollows.receipts, v.terms.map_fst_verdicts ops, hfollows.enqueued, hfollows.codes,
    hfollows.countP_aborted, v.bus_run ops, ?_, fun p later => ?_⟩
  · rw [terms_run, Terms.foldl_after]
  · refine outcomes_congr ?_ ?_ later
    · rw [keys_step]
      rfl
    · rw [terms_step]
      rfl

end Vault

end TextVault
