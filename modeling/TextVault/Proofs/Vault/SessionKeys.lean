import TextVault.Proofs.Key.Run
import TextVault.Vault.Session

/-
  The key cache within a session.

  Problem: a session reaches its key cache by names, by hand and by the clock, and most of its operations do
  not reach it at all; what is known of runs of the cache is to hold in every session.

  Program: `keyOps` gives what an operation of a session asks of the key cache, `settleOps` what the clock
  asks after it.

  Spec: as long as the vault has not been dropped, the key cache of a session is one that a run of its own
  operations leads to (`exists_run_keys`).
-/
namespace TextVault.Session

/-- What an operation asks of the key cache of a vault that has not been dropped. -/
def keyOps (s : Session) : Op → List KeyCache.Op
  | .unlock _ bytes => [.create bytes, .install (s.keyring.create bytes).1]
  | .install credential =>
    match s.credentials.get? credential with
    | some c => [.install c]
    | none => []
  | .keys op => [op]
  | .shutdown => [.evict]
  | .fire id => [.fire id]
  | .advance seconds => [.advance (s.vault.keys.clock.ticks seconds)]
  | .setUpgrading on => if s.host.plain then [] else [.setUpgrading on]
  | _ => []

/-- What the clock asks of it then. -/
def settleOps (s : Session) : List KeyCache.Op :=
  if s.host.timing = .clock then [.advance 0] else []

/-! ## One operation -/

/-- A dropped vault stays dropped. -/
theorem isOpen_of_perform {s : Session} {op : Op} (h : (s.perform op).1.isOpen = true) :
    s.isOpen = true := by
  cases op with
  | drop => exact absurd h Bool.false_ne_true
  | fire id =>
    rw [perform, fire] at h
    cases hopen : s.isOpen with
    | true => rfl
    | false =>
      rw [hopen] at h
      exact h
  -- These go two ways, and either way leaves the vault where it is.
  | install _ | isInstalled _ | credential _ | drain _ | advance _ | setUpgrading _ | setImported _ =>
    rw [perform] at h
    split at h <;> exact h
  | _ => exact h

/-- An operation does to the key cache what it asks of it. -/
theorem keys_perform {s : Session} (hopen : s.isOpen = true) (op : Op) :
    (s.perform op).1.vault.keys = (s.vault.keys.run (s.keyOps op)).1 := by
  cases op with
  | install credential =>
    rw [perform, keyOps]
    cases s.credentials.get? credential with
    | none => rfl
    | some c => rfl
  | setUpgrading on =>
    rw [perform, keyOps]
    cases s.host.plain with
    | false => rfl
    | true => rfl
  | fire id =>
    rw [perform, fire, hopen]
    rfl
  | advance seconds =>
    rw [perform, hopen]
    rfl
  -- These go two ways as well, but neither reaches the key cache.
  | isInstalled _ | credential _ | drain _ | setImported _ =>
    rw [perform]
    split <;> rfl
  | _ => rfl

/-- Letting due alarms run drops nothing. -/
theorem isOpen_settle (s : Session) : s.settle.1.isOpen = s.isOpen := by
  rw [settle]
  split
  · rfl
  · rfl

/-- **Callbacks that run by the clock are callbacks run one by one**, as far as the key cache is concerned. -/
theorem keys_settle {s : Session} (hopen : s.isOpen = true) :
    s.settle.1.vault.keys = (s.vault.keys.run s.settleOps).1 := by
  rw [settle, settleOps, hopen]
  cases s.host.timing with
  | manual => rfl
  | clock => rfl

theorem step_eq (s : Session) (op : Op) : (s.step op).1 = (s.perform op).1.settle.1 := rfl

/-! ## A run -/

theorem run_cons (s : Session) (op : Op) (ops : List Op) :
    (s.run (op :: ops)).1 = ((s.step op).1.run ops).1 := rfl

/-- A vault that is still there in the end has been there all along. -/
theorem isOpen_of_run {s : Session} {ops : List Op} (h : (s.run ops).1.isOpen = true) :
    s.isOpen = true := by
  induction ops generalizing s with
  | nil => exact h
  | cons op ops ih =>
    have hstep : (s.step op).1.isOpen = true := ih h
    rw [step_eq, isOpen_settle] at hstep
    exact isOpen_of_perform hstep

/-- **Within a session the key cache does nothing but its own operations**, until it is dropped. -/
theorem exists_run_keys {s : Session} {ops : List Op} (h : (s.run ops).1.isOpen = true) :
    ∃ keyOps, (s.run ops).1.vault.keys = (s.vault.keys.run keyOps).1 := by
  induction ops generalizing s with
  | nil => exact ⟨[], rfl⟩
  | cons op ops ih =>
    -- The vault is there in the end, so it was there at every step.
    have hrest : ((s.step op).1.run ops).1.isOpen = true := h
    have hstep : (s.step op).1.isOpen = true := isOpen_of_run hrest
    have hperform : (s.perform op).1.isOpen = true := by rw [← isOpen_settle]; exact hstep
    have hkeys : (s.step op).1.vault.keys =
        (s.vault.keys.run (s.keyOps op ++ (s.perform op).1.settleOps)).1 := by
      rw [step_eq, keys_settle hperform, keys_perform (isOpen_of_perform hperform),
        KeyCache.run_append]
    obtain ⟨more, hmore⟩ := ih hrest
    refine ⟨(s.keyOps op ++ (s.perform op).1.settleOps) ++ more, ?_⟩
    rw [run_cons, hmore, hkeys, KeyCache.run_append _ _ more]

end TextVault.Session
